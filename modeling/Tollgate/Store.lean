import Tollgate.Text.Digits
import Tollgate.Time.Duration

/-!
The store that nodes share: texts under keys, some of which expire.

Main statement: taking the record under a key out leaves other keys alone.
-/

namespace Tollgate

/-- A text, and the instant from which on it is gone. -/
structure Record where
  text : String
  expires : Option Instant
deriving DecidableEq, Repr

def Record.isLive (r : Record) (now : Instant) : Bool :=
  r.expires.all (now < ·)

/-- Records under keys; nothing can be done while the store is down. -/
structure Store where
  records : List (String × Record)
  isDown : Bool
  /-- How long it takes to answer. -/
  delay : Duration
deriving DecidableEq

namespace Store

def empty : Store := ⟨[], false, .zero⟩

/-- Why the store does not do what it is asked to. -/
inductive Fault
  | unavailable
  | notANumber
deriving DecidableEq, Repr

def Fault.message : Fault → String
  | .unavailable => "the store cannot be reached"
  | .notANumber => "the stored value is not an integer or out of range"

/-- The record under a key, unless it is gone. -/
def find? (s : Store) (now : Instant) (key : String) : Option Record :=
  (s.records.lookup key).filter (·.isLive now)

/-- The records that are not gone. -/
def live (s : Store) (now : Instant) : List (String × Record) :=
  s.records.filter (·.2.isLive now)

/-- Puts a record under a key, in place of the one there was. -/
def put (s : Store) (key : String) (r : Record) : Store :=
  { s with records := (key, r) :: s.records.filter (·.1 ≠ key) }

/-- Stores a text for good. -/
def seed (s : Store) (key text : String) : Store :=
  s.put key ⟨text, none⟩

/-- One more than the number under a key, if that still has 64 bits; a key that is not there counts from
zero. What expires keeps its time. -/
def increment (s : Store) (now : Instant) (key : String) : Except Fault (Int × Store) :=
  match s.find? now key with
  | none => .ok (1, s.put key ⟨"1", none⟩)
  | some r =>
    match (Text.integer? r.text).filter (· + 1 < 0x8000000000000000) with
    | none => .error .notANumber
    | some n => .ok (n + 1, s.put key ⟨toString (n + 1), r.expires⟩)

/-- Lets the record under a key live for some seconds from now on. -/
def expire (s : Store) (now : Instant) (key : String) (seconds : Nat) : Store :=
  match s.find? now key with
  | none => s
  | some r => s.put key { r with expires := some (now + (seconds * 1000000000 : Nat)) }

/-- Counts up under a key that then lives for some seconds, both in one transaction; tells the count. -/
def countUp (s : Store) (now : Instant) (key : String) (seconds : Nat) :
    Except Fault Int × Store :=
  if s.isDown then (.error .unavailable, s)
  else
    match s.increment now key with
    | .ok (count, s) => (.ok count, s.expire now key seconds)
    | .error fault => (.error fault, s.expire now key seconds)

/-- The counts under some keys; a key that is not there counts zero. -/
def counts (s : Store) (now : Instant) (keys : List String) : Except Fault (List Nat) :=
  if s.isDown then .error .unavailable
  else
    keys.mapM fun key =>
      match s.find? now key with
      | none => .ok 0
      | some r =>
        match Text.word? r.text with
        | some n => .ok n
        | none => .error .notANumber

theorem lookup_filter_ne {key other : String} (different : other ≠ key)
    (records : List (String × Record)) :
    (records.filter (·.1 ≠ key)).lookup other = records.lookup other := by
  induction records with
  | nil => rfl
  | cons first rest ih =>
    obtain ⟨k, r⟩ := first
    by_cases same : k = key
    · subst same
      simpa [List.lookup_cons, beq_eq_false_iff_ne.2 different] using ih
    · by_cases found : other == k
      · simp [same, List.lookup_cons, found]
      · simpa [same, List.lookup_cons, found] using ih

end Store

end Tollgate
