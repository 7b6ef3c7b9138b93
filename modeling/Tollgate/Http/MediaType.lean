import Tollgate.Text.Split

/-!
Media types as the header `Content-Type` tells them, and which of them say that a body is JSON.
-/

namespace Tollgate.Http

/-- The characters of names and of values without quotes. -/
def isTokenChar (c : Char) : Bool :=
  c.isAlphanum || "!#$%&'*+-.^_|~".toList.contains c || c.toNat == 96

/-- The characters that may stand in quotes. -/
def isQuotable (c : Char) : Bool :=
  31 < c.toNat && c.toNat ≠ 127

/-- Whether these are parameters with semicolons between them; `fuel` bounds the number of steps. A
value in quotes holds at least one character, and its first one may be a quote. -/
def areParameters : Nat → List Char → Bool
  | _, [] => true
  | 0, _ => false
  | fuel + 1, ' ' :: rest => areParameters fuel rest
  | fuel + 1, cs =>
    !(cs.takeWhile isTokenChar).isEmpty &&
      match cs.dropWhile isTokenChar with
      | '=' :: '"' :: first :: rest =>
        isQuotable first &&
          match rest.dropWhile fun c => c ≠ '"' ∧ isQuotable c with
          | '"' :: rest =>
            match rest.dropWhile (· = ' ') with
            | [] => true
            | ';' :: rest => areParameters fuel rest
            | _ => false
          | _ => false
      | '=' :: rest =>
        match rest.dropWhile isTokenChar with
        | [] => true
        | ';' :: more => !(rest.takeWhile isTokenChar).isEmpty && areParameters fuel more
        | _ => false
      | _ => false

/-- A media type in lower case, without its parameters. -/
structure MediaType where
  family : String
  subtype : String
  /-- What follows the last plus sign of the subtype. -/
  suffix : Option String
deriving DecidableEq, Repr

namespace MediaType

def lower (cs : List Char) : String :=
  String.ofList (cs.map Char.toLower)

/-- Splits a subtype at its last plus sign, unless that is its first character. -/
def ofNames (family subtype : List Char) : MediaType :=
  match (Text.split '+' subtype).reverse with
  | last :: more =>
    let front := ['+'].intercalate more.reverse
    if more.isEmpty || front.isEmpty then ⟨lower family, lower subtype, none⟩
    else ⟨lower family, lower front, some (lower last)⟩
  | [] => ⟨lower family, "", none⟩

/-- Reads a media type with its parameters. -/
def parse? (s : String) : Option MediaType :=
  let cs := s.toList
  let family := cs.takeWhile isTokenChar
  if family.isEmpty then none
  else
    match cs.dropWhile isTokenChar with
    | '/' :: rest =>
      let subtype := rest.takeWhile isTokenChar
      match rest.dropWhile isTokenChar with
      | [] => some (ofNames family subtype)
      | ';' :: parameters =>
        if !subtype.isEmpty && areParameters parameters.length parameters then
          some (ofNames family subtype)
        else none
      | _ => none
    | _ => none

/-- Whether a body of this type is JSON. -/
def isJson (m : MediaType) : Bool :=
  m.family == "application" && (m.subtype == "json" || m.suffix == some "json")

end MediaType

end Tollgate.Http
