import Tollgate.Schema
import Tollgate.Failure
import Tollgate.Json.Value
import Tollgate.Octets
import Tollgate.Text.Blank
import Tollgate.Text.Hex
import Tollgate.Text.Utf8

/-!
Owners: the resources that puzzles protect.
-/

namespace Tollgate

/-- The sixteen bytes that name the resource a puzzle protects. -/
abbrev Owner := Octets 16

namespace Owner

/-- Thirty-two lower-case digits. -/
def display (owner : Owner) : String :=
  Text.Hex.encode owner.toList

/-- Reads thirty-two digits of either case, with blanks around them. -/
def parse (s : String) : Except Text.Hex.Fault Owner := do
  let bytes ← Text.Hex.decode 16 (Text.octets (Text.trim s))
  match Octets.ofList? 16 bytes with
  | some owner => return owner
  | none => throw .wrongLength

/-- The failure of a text that names no owner. -/
def failure (s : String) (fault : Text.Hex.Fault) : Failure :=
  ⟨.invalidInput, "owner id '" ++ s ++ "': " ++ fault.message⟩

def codec : Codec Owner :=
  .textOf fun s => (parse s).toOption

/-- How an owner is told in JSON. -/
def toJson (owner : Owner) : Json :=
  .text owner.display

end Owner

end Tollgate
