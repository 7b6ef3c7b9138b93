import Tollgate.Json.Value
import Tollgate.Proofs.Text.Characters
import Tollgate.Schema

/-!
# Text literals

A text without quotes, backslashes and control characters stands for itself between
quotes, for readers and for writers alike.

Results:
1. `literalBody_append`, `text_append`: a literal of plain characters is read as it stands.
2. `quoted_of_plain`: plain characters are written as they stand.
3. `readOctets_octets`: a text is read from its bytes as from its characters.
4. `readJson_textOf`: a value that is told by a plain text is read back from it.
-/

namespace Tollgate.Json.Read

/-- Characters that stand for themselves in a text literal. -/
def Plain (cs : List Char) : Prop :=
  ∀ c ∈ cs, c ≠ '"' ∧ c ≠ '\\' ∧ 32 ≤ c.toNat

instance (cs : List Char) : Decidable (Plain cs) :=
  List.decidableBAll _ cs

variable {α β : Type} {cs : List Char} {text rest : List (Option Char)} {s : String} {fuel : Nat}
  {a : α}

/-! ## Reading -/

theorem bind_of_ok {x : Reader α} {f : α → Reader β} (h : x text = .ok (a, rest)) :
    (x >>= f) text = f a rest := by
  show (x text >>= fun result => f result.1 result.2) = _
  rw [h]
  rfl

theorem get_eq (text : List (Option Char)) :
    (get : Reader (List (Option Char))) text = .ok (text, text) :=
  rfl

theorem literal?_append (h : Plain cs) (rest : List (Option Char)) (hfuel : cs.length < fuel) :
    literal? fuel (cs.map some ++ some '"' :: rest) = some (cs, rest) := by
  induction cs generalizing fuel with
  | nil =>
    cases fuel with
    | zero => cases hfuel
    | succ fuel => rw [List.map_nil, List.nil_append, literal?, if_pos rfl]
  | cons c cs ih =>
    cases fuel with
    | zero => cases hfuel
    | succ fuel =>
      obtain ⟨⟨hquote, hescape, hcontrol⟩, hcs⟩ := List.forall_mem_cons.mp h
      rw [List.map_cons, List.cons_append, literal?, if_neg hquote, if_neg hescape,
        if_neg (Nat.not_lt.mpr hcontrol), ih hcs (Nat.lt_of_succ_lt_succ hfuel)]
      rfl

theorem literalBody_append (h : Plain cs) (rest : List (Option Char)) :
    literalBody (cs.map some ++ some '"' :: rest) = .ok (String.ofList cs, rest) := by
  have hfuel : cs.length < (cs.map some ++ some '"' :: rest).length + 1 := by
    rw [List.length_append, List.length_map, List.length_cons]
    omega
  have hliteral := literal?_append h rest hfuel
  unfold literalBody
  rw [bind_of_ok (get_eq _), hliteral]
  rfl

theorem text_append (h : Plain cs) (rest : List (Option Char)) :
    Read.text (some '"' :: (cs.map some ++ some '"' :: rest)) = .ok (String.ofList cs, rest) :=
  literalBody_append h rest

/-! ## Writing -/

theorem escapeChar_of_plain {c : Char} (h : c ≠ '"' ∧ c ≠ '\\' ∧ 32 ≤ c.toNat) :
    escapeChar c = [c] := by
  obtain ⟨hquote, hescape, hcontrol⟩ := h
  have hne (d : Char) (hd : d.toNat < 32) : c ≠ d := by
    rintro rfl
    exact Nat.not_lt.mpr hcontrol hd
  rw [escapeChar, if_neg hquote, if_neg hescape, if_neg (hne '\x08' (by decide)),
    if_neg (hne '\x0c' (by decide)), if_neg (hne '\n' (by decide)), if_neg (hne '\r' (by decide)),
    if_neg (hne '\t' (by decide)), if_neg (Nat.not_lt.mpr hcontrol)]

theorem quoted_of_plain (h : Plain s.toList) : quoted s = '"' :: (s.toList ++ ['"']) := by
  have hchars : s.toList.flatMap escapeChar = s.toList := by
    calc
      s.toList.flatMap escapeChar = (s.toList.map fun c => [c]).flatten := by
        rw [List.flatMap_def, List.map_congr_left fun c hin => escapeChar_of_plain (h c hin)]
      _ = s.toList := by rw [← List.flatMap_def, List.flatMap_singleton']
  rw [quoted, hchars, List.cons_append]

theorem compact_text (h : Plain s.toList) : (Json.text s).compact = "\"" ++ s ++ "\"" := by
  refine String.toList_inj.mp ?_
  rw [compact, String.toList_ofList, chars, quoted_of_plain h, String.toList_append,
    String.toList_append]
  rfl

/-- An object shows a text in its first entry as it is. -/
theorem compact_object_cons {key : String} (hkey : Plain key.toList) (h : Plain s.toList)
    (entry : String × Json) (entries : List (String × Json)) :
    (Json.object ((key, .text s) :: entry :: entries)).compact =
      "\x7b\"" ++ key ++ "\":\"" ++ s ++ "\"," ++
        String.ofList (entryChars (entry :: entries) ++ ['\x7d']) := by
  refine String.toList_inj.mp ?_
  rw [compact, String.toList_ofList, chars, entryChars, chars, quoted_of_plain hkey,
    quoted_of_plain h]
  · simp
  · exact nofun

/-! ## Reading what was written -/

/-- A text may come as it is or as bytes. -/
theorem readOctets_octets (codec : Codec α) (s : String) :
    codec.readOctets (Text.octets s) = codec.readJson s := by
  rw [Codec.readOctets, Text.characters_octets, Codec.readJson]

theorem readJson_of_ok {codec : Codec α} (h : codec.json (s.toList.map some) = .ok (a, [])) :
    codec.readJson s = .ok a := by
  show (codec.json (s.toList.map some) >>= fun result =>
    if result.2.all (·.any isSpace) then .ok result.1 else .error Json.Fault.illFormed) = _
  rw [h]
  rfl

theorem readJson_textOf {read : String → Option α} (h : Plain s.toList) (hread : read s = some a) :
    (Codec.textOf read).readJson (Json.text s).compact = .ok a := by
  refine readJson_of_ok ?_
  rw [compact, String.toList_ofList, chars, quoted_of_plain h, List.map_cons, List.map_append]
  refine (bind_of_ok (text_append h [])).trans ?_
  rw [String.ofList_toList, hread]
  rfl

end Tollgate.Json.Read
