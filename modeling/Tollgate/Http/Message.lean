import Tollgate.Http.MediaType
import Tollgate.Json.Value
import Tollgate.Net.Address
import Tollgate.Schema
import Tollgate.Text.Blank

/-!
Requests and responses, as far as the service looks at them.

Of a header that is given more than once the first line counts.
-/

namespace Tollgate.Http

/-- What a request asks to be done with a resource. -/
inductive Method
  | get
  | head
  | post
  | options
  | other
deriving DecidableEq, Repr

namespace Method

def ofName : String → Method
  | "GET" => .get
  | "HEAD" => .head
  | "POST" => .post
  | "OPTIONS" => .options
  | _ => .other

end Method

/-- Header lines, names and values. -/
abbrev Headers := List (String × String)

namespace Headers

/-- Names of headers are alike if they differ in case only. -/
def sameName (x y : String) : Bool :=
  x.map Char.toLower == y.map Char.toLower

/-- The value of the first line with a name. -/
def first? (headers : Headers) (name : String) : Option String :=
  (headers.find? fun line => sameName line.1 name).map (·.2)

/-- Whether a character may stand in a value that is read as text. -/
def isVisible (c : Char) : Bool :=
  (32 ≤ c.toNat && c.toNat < 127) || c == '\t'

/-- The value of the first line with a name, if it is a text. -/
def text? (headers : Headers) (name : String) : Option String :=
  (headers.first? name).filter fun value => value.toList.all isVisible

/-- The value of the first line with a name without blanks around it, if anything is left. -/
def word? (headers : Headers) (name : String) : Option String :=
  ((headers.text? name).map Text.trim).filter (!·.isEmpty)

end Headers

/-- Characters of the schemes that targets with an origin begin with. -/
def isSchemeChar (c : Char) : Bool :=
  c.isAlphanum || c == '+' || c == '-' || c == '.' || c == '~'

/-- Path and query in a target. They may stand behind an origin, and an origin may stand alone. -/
def behindOrigin (target : List Char) : List Char :=
  if target.head? = some '/' then target
  else
    match target.dropWhile isSchemeChar with
    | ':' :: '/' :: '/' :: rest =>
      if rest.head?.any isEnd then [] else rest.dropWhile fun c => !isEnd c
    | _ => []
where
  /-- Whether a character ends an origin. -/
  isEnd (c : Char) : Bool :=
    c == '/' || c == '?' || c == '#'

/-- A text as a body. -/
instance coeContent : Coe String (List UInt8) :=
  ⟨Text.octets⟩

/-- A request and the address it comes from. -/
structure Request where
  method : Method
  /-- Path and query, with an origin in front or without, or an origin alone. -/
  target : String
  headers : Headers
  peer : Address
  body : List UInt8

namespace Request

/-- Path and query; what follows a number sign is left out. -/
def parts (r : Request) : List Char × Option (List Char) :=
  Text.cut '?' (Text.cut '#' (behindOrigin r.target.toList)).1

/-- The segments of the path, if it is one. -/
def segments? (r : Request) : Option (List (List Char)) :=
  match r.parts.1 with
  | '/' :: path => some (Text.split '/' path)
  | _ => none

/-- The query, an empty one if there is none. -/
def query (r : Request) : List Char :=
  r.parts.2.getD []

end Request

/-- Why the body of a request is not what was asked for. -/
inductive BodyFault
  /-- It is not said to be JSON. -/
  | otherType
  | tooLong
  | illFormed
  | unfit
deriving DecidableEq, Repr

namespace BodyFault

def all : List BodyFault := [.otherType, .tooLong, .illFormed, .unfit]

def status : BodyFault → Nat
  | .otherType => 415
  | .tooLong => 413
  | .illFormed => 400
  | .unfit => 422

def message : BodyFault → String
  | .otherType => "the request body is not declared to be JSON"
  | .tooLong => "the request body is too long"
  | .illFormed => "the request body is not valid JSON"
  | .unfit => "the request body does not have the expected fields"

end BodyFault

/-- The largest number of bytes of a body. -/
def longestBody : Nat := 2097152

/-- Reads the body of a request. -/
def Request.read {α : Type} (codec : Codec α) (r : Request) : Except BodyFault α :=
  let declared := (r.headers.text? "content-type").bind MediaType.parse?
  if !declared.any MediaType.isJson then .error .otherType
  else if longestBody < r.body.length then .error .tooLong
  else
    match codec.readOctets r.body with
    | .ok a => .ok a
    | .error .illFormed => .error .illFormed
    | .error .unfit => .error .unfit

/-- What a response carries. -/
inductive Body
  | empty
  | json (value : Json)
  | text (content : String)

/-- A response. -/
structure Response where
  status : Nat
  headers : Headers := []
  body : Body := .empty

namespace Response

def json (status : Nat) (value : Json) : Response :=
  ⟨status, [("content-type", "application/json")], .json value⟩

def plain (status : Nat) (content : String) : Response :=
  ⟨status, [("content-type", "text/plain; charset=utf-8")], .text content⟩

def withHeader (r : Response) (name value : String) : Response :=
  { r with headers := r.headers ++ [(name, value)] }

def withoutBody (r : Response) : Response :=
  { r with body := .empty }

/-- The response to a request whose body is not what was asked for. -/
def ofBodyFault (fault : BodyFault) : Response :=
  .plain fault.status fault.message

end Response

end Tollgate.Http
