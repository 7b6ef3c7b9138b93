/-!
Cutting a text at every occurrence of a character.

Main statement: there is always a part.
-/

namespace Tollgate.Text

/-- The parts of a text between occurrences of `separator`; there is one more part than occurrences. -/
def split (separator : Char) : List Char → List (List Char)
  | [] => [[]]
  | c :: rest =>
    if c = separator then [] :: split separator rest
    else
      match split separator rest with
      | [] => [[c]]
      | part :: parts => (c :: part) :: parts

/-- The parts of a text before and after the first occurrence of `separator`, the second one only if
there is an occurrence. -/
def cut (separator : Char) (cs : List Char) : List Char × Option (List Char) :=
  (cs.takeWhile (· ≠ separator),
    match cs.dropWhile (· ≠ separator) with
    | [] => none
    | _ :: rest => some rest)

theorem split_ne_nil (separator : Char) (cs : List Char) : split separator cs ≠ [] := by
  cases cs with
  | nil => simp [split]
  | cons c rest =>
    simp only [split]
    split
    · simp
    · split <;> simp

end Tollgate.Text
