import Tollgate.Text.Digits

/-!
Dates and times in settings files, and their canonical text.

The canonical text has capital letters between and behind its parts, and a fraction of at most nine
digits without zeros at the end, of which one digit stays. Seconds may be left out.
-/

namespace Tollgate.Toml.Date

open Tollgate.Text

/-- A number of exactly so many digits, and what follows. -/
def digits? (count : Nat) (cs : List Char) : Option (Nat × List Char) := do
  let digits := cs.take count
  if digits.length < count then none
  return (← natural? digits, cs.drop count)

/-- What follows a character, if that comes next. -/
def after? (c : Char) : List Char → Option (List Char)
  | d :: rest => if d = c then some rest else none
  | [] => none

def isLeap (year : Nat) : Bool :=
  year % 4 == 0 && (year % 100 != 0 || year % 400 == 0)

/-- The number of days of a month. -/
def daysIn (year month : Nat) : Nat :=
  if month = 2 then (if isLeap year then 29 else 28)
  else if month = 4 ∨ month = 6 ∨ month = 9 ∨ month = 11 then 30
  else 31

/-- The characters that reading has consumed. -/
def consumed (cs rest : List Char) : List Char :=
  cs.take (cs.length - rest.length)

/-- Year, month and day, and what follows. -/
def date? (cs : List Char) : Option (List Char × List Char) := do
  let (year, rest) ← digits? 4 cs
  let (month, rest) ← digits? 2 (← after? '-' rest)
  let (day, rest) ← digits? 2 (← after? '-' rest)
  if 1 ≤ month ∧ month ≤ 12 ∧ 1 ≤ day ∧ day ≤ daysIn year month then
    return (consumed cs rest, rest)
  else none

/-- The fraction of a second, and what follows. Zeros at its end are left out, except a single one. -/
def fraction? : List Char → Option (List Char × List Char)
  | '.' :: rest => do
    let digits := rest.takeWhile isDigit
    if digits.isEmpty then none
    let kept := ((digits.take 9).reverse.dropWhile (· = '0')).reverse
    return ('.' :: (if kept.isEmpty then ['0'] else kept), rest.dropWhile isDigit)
  | rest => some ([], rest)

/-- Hours, minutes and perhaps seconds, and what follows. -/
def time? (cs : List Char) : Option (List Char × List Char) := do
  let (hour, rest) ← digits? 2 cs
  let (minute, rest) ← digits? 2 (← after? ':' rest)
  if hour > 23 ∨ minute > 59 then none
  let minutes := consumed cs rest
  match rest with
  | ':' :: more =>
    let (second, rest) ← digits? 2 more
    if second > 60 then none
    let (fraction, rest) ← fraction? rest
    return (minutes ++ ':' :: more.take 2 ++ fraction, rest)
  | _ => return (minutes, rest)

/-- The distance from universal time, if any, up to the end. -/
def zone? : List Char → Option (List Char)
  | [] => some []
  | ['z'] | ['Z'] => some ['Z']
  | c :: rest => do
    if c ≠ '+' ∧ c ≠ '-' then none
    let (hour, more) ← digits? 2 rest
    let (minute, more) ← digits? 2 (← after? ':' more)
    if hour > 23 ∨ minute > 59 ∨ !more.isEmpty then none
    return (if hour = 0 ∧ minute = 0 then '+' else c) :: rest

/-- The canonical text of a date, a time or both. -/
def ofWord? (word : List Char) : Option String :=
  match date? word with
  | some (date, []) => some (String.ofList date)
  | some (date, c :: rest) => do
    if c ≠ 'T' ∧ c ≠ 't' ∧ c ≠ ' ' then none
    let (time, rest) ← time? rest
    return String.ofList (date ++ 'T' :: time ++ (← zone? rest))
  | none => do
    let (time, rest) ← time? word
    if rest.isEmpty then return String.ofList time else none

end Tollgate.Toml.Date
