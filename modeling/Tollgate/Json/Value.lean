import Tollgate.Decimal.Shortest

/-!
JSON values as answers hold them, and their compact text.
-/

namespace Tollgate

/-- A JSON value; keys keep their order. -/
inductive Json
  | null
  | bool (value : Bool)
  | integer (value : Int)
  | float (value : Float)
  | text (value : String)
  | array (elements : List Json)
  | object (entries : List (String × Json))

namespace Json

/-- The lower-case hexadecimal digit of a value below sixteen. -/
def hexDigit (value : Nat) : Char :=
  Char.ofNat (if value < 10 then 48 + value else 87 + value)

/-- How a character is written inside quotes: quotes, backslashes and control characters are escaped,
everything else stands for itself. -/
def escapeChar (c : Char) : List Char :=
  if c = '"' then ['\\', '"']
  else if c = '\\' then ['\\', '\\']
  else if c = '\x08' then ['\\', 'b']
  else if c = '\x0c' then ['\\', 'f']
  else if c = '\n' then ['\\', 'n']
  else if c = '\r' then ['\\', 'r']
  else if c = '\t' then ['\\', 't']
  else if c.toNat < 32 then
    ['\\', 'u', '0', '0', hexDigit (c.toNat / 16), hexDigit (c.toNat % 16)]
  else [c]

/-- A text in quotes. -/
def quoted (s : String) : List Char :=
  '"' :: s.toList.flatMap escapeChar ++ ['"']

mutual

/-- The compact text of a value. -/
def chars : Json → List Char
  | .null => "null".toList
  | .bool value => (if value then "true" else "false").toList
  | .integer value => (toString value).toList
  | .float value => (Decimal.pointed value).toList
  | .text value => quoted value
  | .array elements => '[' :: elementChars elements ++ [']']
  | .object entries => '\x7b' :: entryChars entries ++ ['\x7d']

def elementChars : List Json → List Char
  | [] => []
  | [last] => last.chars
  | value :: rest => value.chars ++ ',' :: elementChars rest

def entryChars : List (String × Json) → List Char
  | [] => []
  | [(key, value)] => quoted key ++ ':' :: value.chars
  | (key, value) :: rest => quoted key ++ ':' :: value.chars ++ ',' :: entryChars rest

end

/-- The compact text of a value. -/
def compact (value : Json) : String :=
  String.ofList value.chars

end Json

end Tollgate
