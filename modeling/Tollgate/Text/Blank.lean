/-!
White space as Unicode's property `White_Space` has it, and cutting it off the ends of a text.
-/

namespace Tollgate.Text

/-- Tells whether the code point has the property `White_Space`. -/
def isBlank (c : Char) : Bool :=
  let code := c.toNat
  (0x09 ≤ code && code ≤ 0x0D) || code == 0x20 || code == 0x85 || code == 0xA0 ||
    code == 0x1680 || (0x2000 ≤ code && code ≤ 0x200A) || code == 0x2028 || code == 0x2029 ||
    code == 0x202F || code == 0x205F || code == 0x3000

/-- The characters without the blanks at the end. -/
def dropBlankEnd (cs : List Char) : List Char :=
  (cs.reverse.dropWhile isBlank).reverse

/-- The characters without the blanks at both ends. -/
def trimChars (cs : List Char) : List Char :=
  dropBlankEnd (cs.dropWhile isBlank)

/-- The text without the blanks at both ends. -/
def trim (s : String) : String :=
  String.ofList (trimChars s.toList)

@[simp]
theorem toList_trim (s : String) : (trim s).toList = trimChars s.toList := by
  simp [trim]

end Tollgate.Text
