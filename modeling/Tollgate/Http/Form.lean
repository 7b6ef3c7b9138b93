import Tollgate.Octets
import Tollgate.Text.Hex
import Tollgate.Text.Split
import Tollgate.Text.Utf8

/-!
Percent-encoded texts, and the key-value pairs of a query.

Decoding never fails on its own: a percent sign that no two digits follow stands for itself.
-/

namespace Tollgate.Http

/-- Replaces each percent sign and the two hexadecimal digits behind it by the byte meant. -/
def percentDecode : List UInt8 → List UInt8
  | [] => []
  | byte :: rest =>
    match rest with
    | high :: low :: more =>
      if byte = 37 then
        match Text.Hex.value? high, Text.Hex.value? low with
        | some high, some low => (high * 16 + low).toUInt8 :: percentDecode more
        | _, _ => byte :: percentDecode (high :: low :: more)
      else byte :: percentDecode (high :: low :: more)
    | short => byte :: percentDecode short

/-- The text of one segment of a path, if it is well formed. -/
def segmentText? (segment : List Char) : Option String :=
  Text.ofOctets? (percentDecode (Text.octets (String.ofList segment)))

/-- The text of a key or a value of a query, in which a plus sign is a space. -/
def formText (word : List Char) : String :=
  let spaced := word.map fun c => if c = '+' then ' ' else c
  String.ofList (Text.lossy (percentDecode (Text.octets (String.ofList spaced))))

/-- The pairs of a query in their order. A key without a value has an empty one, and between two
ampersands there may be nothing. -/
def formPairs (query : List Char) : List (String × String) :=
  ((Text.split '&' query).filter (!·.isEmpty)).map fun pair =>
    let (key, value) := Text.cut '=' pair
    (formText key, formText (value.getD []))

/-- The values of a key. -/
def formValues (key : String) (pairs : List (String × String)) : List String :=
  (pairs.filter (·.1 == key)).map (·.2)

end Tollgate.Http
