import Tollgate.Toml.Date
import Tollgate.Toml.Document
import Tollgate.Toml.Number
import Tollgate.Toml.Path

/-!
Reading settings files: keys with values, tables, and lists of tables.
-/

namespace Tollgate.Toml

/-- Consumes characters from the front of a text, or fails. -/
abbrev Reader := StateT (List Char) Option

def next? : Reader (Option Char) := do
  return (← get).head?

def skip : Reader Unit :=
  modify (·.drop 1)

/-- Consumes a character, which has to come next. -/
def expect (c : Char) : Reader Unit := do
  if (← next?) = some c then skip else failure

/-- Consumes characters of a kind. -/
def takeWhile (kind : Char → Bool) : Reader (List Char) := do
  let rest ← get
  set (rest.dropWhile kind)
  return rest.takeWhile kind

/-- Enough fuel to read what is left. -/
def plenty : Reader Nat := do
  return 2 * (← get).length + 2

/-! ### Between values -/

/-- Spaces and tabs inside a line. -/
def spaces : Reader Unit := do
  let _ ← takeWhile isSpace

/-- Characters that may stand in a line, in comments and texts. -/
def isLineChar (c : Char) : Bool :=
  c == '\t' || (c.toNat ≥ 32 && c.toNat ≠ 127)

/-- A comment, if one comes next. -/
def comment : Reader Unit := do
  if (← next?) = some '#' then
    let _ ← takeWhile isLineChar

/-- The characters that end a line, if they come next. -/
def lineBreak? : Reader (Option (List Char)) := do
  match ← get with
  | '\n' :: rest => set rest; return some ['\n']
  | '\r' :: '\n' :: rest => set rest; return some ['\r', '\n']
  | _ => return none

/-- The end of a line, or of the text, after spaces and a comment. -/
def endOfLine : Reader Unit := do
  spaces
  comment
  if (← get).isEmpty then return ()
  if (← lineBreak?).isNone then failure

/-- Spaces, comments and ends of lines; `fuel` bounds the number of lines. -/
def blankLinesWithin : Nat → Reader Unit
  | 0 => failure
  | fuel + 1 => do
    spaces
    match ← next? with
    | some '#' | some '\n' | some '\r' => endOfLine; blankLinesWithin fuel
    | _ => return ()

/-- Spaces, comments and ends of lines. -/
def blankLines : Reader Unit := do
  blankLinesWithin (← plenty)

/-! ### Texts -/

/-- The character with the code point that `count` hexadecimal digits give. -/
def codePoint (count : Nat) : Reader Char := do
  let rest ← get
  let digits := rest.take count
  let code ← Text.numberIn? 16 digits
  if digits.length = count ∧ (code < 0xD800 ∨ (0xDFFF < code ∧ code < 0x110000)) then
    set (rest.drop count)
    return Char.ofNat code
  else failure

/-- The character meant by an escape whose backslash has been consumed. -/
def escaped : Reader Char := do
  let c ← next?
  skip
  match c with
  | some 'b' => return '\x08'
  | some 't' => return '\t'
  | some 'n' => return '\n'
  | some 'f' => return '\x0c'
  | some 'r' => return '\r'
  | some 'e' => return '\x1b'
  | some '"' => return '"'
  | some '\\' => return '\\'
  | some 'x' => codePoint 2
  | some 'u' => codePoint 4
  | some 'U' => codePoint 8
  | _ => failure

/-- The character that encloses texts without escapes. -/
def singleQuote : Char := Char.ofNat 39

/-- The rest of a text inside a line up to its `quote`; `fuel` bounds the number of characters. -/
def lineText (quote : Char) : Nat → Reader (List Char)
  | 0 => failure
  | fuel + 1 => do
    let c ← next?
    skip
    match c with
    | some c =>
      if c == quote then return []
      else if c == '\\' && quote == '"' then return (← escaped) :: (← lineText quote fuel)
      else if isLineChar c then return c :: (← lineText quote fuel)
      else failure
    | none => failure

/-- Spaces and line breaks up to the next other character; `fuel` bounds the number of lines. -/
def restOfBreak : Nat → Reader Unit
  | 0 => failure
  | fuel + 1 => do
    spaces
    if (← lineBreak?).isSome then restOfBreak fuel

/-- The rest of a text of several lines up to three of its `quote`s, before which one or two more may
stand. A backslash at the end of a line leaves out the break and the blanks after it. `fuel` bounds the
number of characters. -/
def linesText (quote : Char) : Nat → Reader (List Char)
  | 0 => failure
  | fuel + 1 => do
    let rest ← get
    let quotes := (rest.takeWhile (· == quote)).length
    if quotes ≥ 3 then
      set (rest.drop (min quotes 5))
      return List.replicate (min quotes 5 - 3) quote
    if let some ending ← lineBreak? then
      return ending ++ (← linesText quote fuel)
    let c ← next?
    skip
    match c with
    | some c =>
      if c == '\\' && quote == '"' then
        let after := (← get).dropWhile isSpace
        if after.head? = some '\n' ∨ after.head? = some '\r' then
          spaces
          if (← lineBreak?).isNone then failure
          restOfBreak (← plenty)
          linesText quote fuel
        else return (← escaped) :: (← linesText quote fuel)
      else if isLineChar c then return c :: (← linesText quote fuel)
      else failure
    | none => failure

/-- A text inside a line in quotes of either kind, or nothing if none comes next. -/
def quotedInLine? : Reader (Option String) := do
  match ← next? with
  | some c =>
    if c == '"' || c == singleQuote then
      skip
      return some (String.ofList (← lineText c (← plenty)))
    else return none
  | none => return none

/-- A text in quotes, or nothing if none comes next. Three quotes enclose a text of several lines; a
break right behind them is left out. -/
def quoted? : Reader (Option String) := do
  match ← get with
  | a :: b :: c :: rest =>
    if (a == '"' || a == singleQuote) && b == a && c == a then
      set rest
      let _ ← lineBreak?
      return some (String.ofList (← linesText a (← plenty)))
    else quotedInLine?
  | _ => quotedInLine?

/-! ### Keys -/

/-- One part of a key. -/
def simpleKey : Reader String := do
  match ← quotedInLine? with
  | some key => return key
  | none =>
    let cs ← takeWhile isNameChar
    if cs.isEmpty then failure else return String.ofList cs

/-- The largest number of parts of a key. -/
def maxParts : Nat := 80

/-- A key, its parts separated by points; `fuel` bounds their number. -/
def keyWithin : Nat → Reader (List String)
  | 0 => failure
  | fuel + 1 => do
    spaces
    let first ← simpleKey
    spaces
    if (← next?) = some '.' then
      skip
      return first :: (← keyWithin fuel)
    else return [first]

def key : Reader (List String) :=
  keyWithin maxParts

/-! ### Values -/

/-- Characters of words: numbers, dates and the two truth values. -/
def isWordChar (c : Char) : Bool :=
  isNameChar c || c == '+' || c == '.' || c == ':'

/-- A word. The time of a date may follow after a space. -/
def word : Reader (List Char) := do
  let first ← takeWhile isWordChar
  match Date.date? first, ← get with
  | some (_, []), ' ' :: c :: rest =>
    if Text.isDigit c then
      set (c :: rest)
      return first ++ ' ' :: (← takeWhile isWordChar)
    else return first
  | _, _ => return first

/-- A value that is neither in quotes nor in brackets. -/
def scalar : Reader Value := do
  let cs ← word
  if cs = "true".toList then return .boolean true
  if cs = "false".toList then return .boolean false
  match number? cs with
  | some value => return value
  | none => return .text (← Date.ofWord? cs)

/-- How deep arrays and tables may be inside one another in one value. -/
def maxDepth : Nat := 80

mutual

/-- A value; `depth` levels of brackets may follow, and `fuel` bounds the number of elements. -/
def value (depth : Nat) : Nat → Reader Value
  | 0 => failure
  | fuel + 1 => do
    match ← quoted? with
    | some s => return .text s
    | none =>
      let c ← next?
      if c = some '[' ∧ depth ≠ 0 then
        skip
        return .array (← elements (depth - 1) fuel)
      else if c = some '\x7b' ∧ depth ≠ 0 then
        skip
        return .table (← entries (depth - 1) [] fuel)
      else scalar

/-- The elements of an array up to its closing bracket. -/
def elements (depth : Nat) : Nat → Reader (List Value)
  | 0 => failure
  | fuel + 1 => do
    blankLines
    if (← next?) = some ']' then
      skip
      return []
    let first ← value depth fuel
    blankLines
    match ← next? with
    | some ',' => skip; return first :: (← elements depth fuel)
    | some ']' => skip; return [first]
    | _ => failure

/-- The entries of a table up to its closing brace, after those read so far. -/
def entries (depth : Nat) (sofar : Entries) : Nat → Reader Table
  | 0 => failure
  | fuel + 1 => do
    blankLines
    if (← next?) = some '\x7d' then
      skip
      return Entries.finish sofar
    let path ← key
    blankLines
    expect '='
    blankLines
    let first ← value depth fuel
    let sofar ← (sofar.assign path first : Option Entries)
    blankLines
    match ← next? with
    | some ',' => skip; entries depth sofar fuel
    | some '\x7d' => skip; return Entries.finish sofar
    | _ => failure

end

/-! ### Lines -/

/-- One line that is not blank. -/
def line (doc : Document) : Reader Document := do
  match ← get with
  | '[' :: '[' :: rest =>
    set rest
    let path ← key
    expect ']'
    expect ']'
    (doc.openElement path : Option Document)
  | '[' :: rest =>
    set rest
    let path ← key
    expect ']'
    (doc.openTable path : Option Document)
  | _ =>
    let path ← key
    expect '='
    spaces
    let entry ← value maxDepth (← plenty)
    (doc.assign path entry : Option Document)

/-- All lines; `fuel` bounds their number. -/
def lines (doc : Document) : Nat → Reader Document
  | 0 => failure
  | fuel + 1 => do
    blankLines
    if (← get).isEmpty then return doc
    let doc ← line doc
    endOfLine
    lines doc fuel

/-- The mark of the order of bytes that some editors put in front of a text. -/
def byteOrderMark : Char := Char.ofNat 0xfeff

/-- A text without the marks in front of it, of which there may be two: one of the file, and one of what
it holds. -/
def withoutMarks (cs : List Char) : List Char :=
  let marks := ((cs.take 2).takeWhile (· = byteOrderMark)).length
  cs.drop marks

/-- The table that a file holds. -/
def read? (s : String) : Option Table := do
  let cs := withoutMarks s.toList
  let (doc, _) ← (lines .empty (cs.length + 1)).run cs
  return doc.table

end Tollgate.Toml
