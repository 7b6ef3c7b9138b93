import Tollgate.Json.Reader
import Tollgate.Text.Utf8
import Tollgate.Toml.Value

/-!
How values of a type are read, from JSON texts and from settings files alike.

A record is told once, by its fields; both readers follow from that.
-/

namespace Tollgate

/-- How values of a type are read from either format. -/
structure Codec (α : Type) where
  json : Json.Reader α
  toml : Toml.Value → Option α

/-- Whether a field of a record has to be given. -/
inductive Presence
  | required
  /-- May be left out of an object, but not off the end of an array of fields. -/
  | optional
  | defaulted
deriving DecidableEq, Repr

/-- A field of a record: reading it replaces its value in the record read so far. -/
structure Field (T : Type) where
  name : String
  presence : Presence
  json : T → Json.Reader T
  toml : T → Toml.Value → Option T

/-- A field whose values are read by `codec` and put into place by `put`. -/
def Field.of {T α : Type} (name : String) (presence : Presence) (codec : Codec α)
    (put : T → α → T) : Field T where
  name := name
  presence := presence
  json := fun record => do return put record (← codec.json)
  toml := fun record value => do return put record (← codec.toml value)

namespace Json.Read

variable {T : Type}

/-- Reads the fields of an object up to its closing brace; `seen` are the names read so far, and `fuel`
bounds the number of entries. -/
def entries (fields : List (Field T)) (record : T) (seen : List String) : Nat → Reader T
  | 0 => throw .illFormed
  | fuel + 1 => do
    let next ← peek?
    if next = some '\x7d' then
      let missing := fields.any fun field =>
        field.presence = .required && !seen.contains field.name
      if missing then throw .unfit
      skip
      return record
    if !seen.isEmpty then
      if next = some ',' then skip else throw .illFormed
    if (← peek?) = some '"' then skip else throw .illFormed
    let name ← literalBody
    match fields.find? (·.name == name) with
    | some field =>
      if seen.contains name then throw .unfit
      expectAfterSpaces ':'
      let record ← field.json record
      entries fields record (name :: seen) fuel
    | none =>
      expectAfterSpaces ':'
      skipValue
      entries fields record (name :: seen) fuel

/-- Reads the fields of a record given as an array, in the order of declaration. -/
def positions (record : T) (first : Bool) : List (Field T) → Reader T
  | [] => do
    expectAfterSpaces ']'
    return record
  | field :: rest => do
    let next ← peek?
    if next = some ']' then
      if (field :: rest).any (·.presence != .defaulted) then throw .unfit
      skip
      return record
    if !first then
      if next = some ',' then skip else throw .illFormed
      if (← peek?) = some ']' then throw .illFormed
    let record ← field.json record
    positions record false rest

/-- Reads a record, starting from the values that hold where nothing is given. -/
def record (fields : List (Field T)) (start : T) : Reader T := do
  match ← peek? with
  | some '\x7b' =>
    skip
    entries fields start [] ((← get).length + 1)
  | some '[' =>
    skip
    positions start true fields
  | _ => reject

end Json.Read

namespace Toml

variable {T : Type}

/-- Reads a record from a table; unknown keys are ignored. -/
def record (fields : List (Field T)) (start : T) (table : Table) : Option T :=
  fields.foldlM (fun record field =>
    match table.lookup field.name with
    | some value => field.toml record value
    | none => if field.presence = .required then none else some record) start

/-- Reads a record given as an array, in the order of declaration; elements beyond are ignored. -/
def positions (record : T) : List (Field T) → List Value → Option T
  | [], _ => some record
  | fields, [] => if fields.all (·.presence = .defaulted) then some record else none
  | field :: fields, value :: values => do
    positions (← field.toml record value) fields values

end Toml

namespace Codec

/-- Whole numbers from zero to `limit`. -/
def natural (limit : Nat) : Codec Nat where
  json := Json.Read.natural limit
  toml := fun value => value.natural?.filter (· ≤ limit)

def byte : Codec UInt8 where
  json := do return (← Json.Read.natural 255).toUInt8
  toml := fun value => (·.toUInt8) <$> (natural 255).toml value

def word32 : Codec UInt32 where
  json := do return (← Json.Read.natural 0xffffffff).toUInt32
  toml := fun value => (·.toUInt32) <$> (natural 0xffffffff).toml value

def word64 : Codec UInt64 where
  json := do return (← Json.Read.natural 0xffffffffffffffff).toUInt64
  toml := fun value => (·.toUInt64) <$> (natural 0xffffffffffffffff).toml value

def float : Codec Float where
  json := Json.Read.float
  toml := Toml.Value.float?

def boolean : Codec Bool where
  json := Json.Read.boolean
  toml := Toml.Value.boolean?

def text : Codec String where
  json := Json.Read.text
  toml := Toml.Value.text?

/-- Texts of which only some are values. -/
def textOf {α : Type} (read : String → Option α) : Codec α where
  json := do
    match read (← Json.Read.text) with
    | some a => return a
    | none => throw .unfit
  toml := fun value => value.text?.bind read

/-- One of some names. -/
def choice {α : Type} (named : String → Option α) : Codec α where
  json := Json.Read.choice named
  toml := fun value => value.name?.bind named

def optional {α : Type} (codec : Codec α) : Codec (Option α) where
  json := Json.Read.optional codec.json
  toml
    | .missing => some none
    | value => some <$> codec.toml value

def list {α : Type} (codec : Codec α) : Codec (List α) where
  json := Json.Read.array codec.json
  toml
    | .array elements => elements.mapM codec.toml
    | _ => none

/-- Records with these fields, starting from the values that hold where nothing is given. -/
def record {T : Type} (fields : List (Field T)) (start : T) : Codec T where
  json := Json.Read.record fields start
  toml
    | .table table => Toml.record fields start table
    | .array elements => Toml.positions start fields elements
    | _ => none

/-- Reads a whole JSON text. -/
def readJson {α : Type} (codec : Codec α) (s : String) : Except Json.Fault α :=
  Json.Read.readAll codec.json (s.toList.map some)

/-- Reads a JSON text that comes as bytes. -/
def readOctets {α : Type} (codec : Codec α) (bytes : List UInt8) : Except Json.Fault α :=
  Json.Read.readAll codec.json (Text.characters bytes)

end Codec

end Tollgate
