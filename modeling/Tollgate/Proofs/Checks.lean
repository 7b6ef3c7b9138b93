/-!
# Chains of checks

A function that checks before it answers is a chain of steps, each of which may
throw. It answers exactly if no check throws, and then with the end of the
chain.

Results:
1. `bind_eq_ok_iff`, `map_eq_ok_iff`, `mapError_eq_ok_iff`: a chain of two steps.
2. `ite_error_eq_ok_iff`: a check before a step; `throw_bind` brings checks into
   this form.
3. `ite_throw_eq_ok_iff`: a check at the end of a chain.
4. `toOption_eq_some_iff`: an answer without the faults, which can be decided.
-/

namespace Tollgate

variable {ε α β : Type}

theorem throw_bind (fault : ε) (f : α → Except ε β) : (throw fault >>= f) = .error fault :=
  rfl

theorem pure_eq_ok_iff {x y : α} : (pure x : Except ε α) = .ok y ↔ x = y :=
  Except.ok.injEq x y ▸ Iff.rfl

theorem bind_eq_ok_iff {x : Except ε α} {f : α → Except ε β} {b : β} :
    (x >>= f) = .ok b ↔ ∃ a, x = .ok a ∧ f a = .ok b := by
  cases x with
  | error fault =>
    constructor
    · intro h
      cases h
    · rintro ⟨a, h, -⟩
      cases h
  | ok a =>
    constructor
    · intro h
      exact ⟨a, rfl, h⟩
    · rintro ⟨a', h, hf⟩
      obtain rfl := Except.ok.inj h
      exact hf

theorem map_eq_ok_iff {x : Except ε α} {f : α → β} {b : β} :
    x.map f = .ok b ↔ ∃ a, x = .ok a ∧ f a = b := by
  cases x with
  | error fault =>
    constructor
    · intro h
      cases h
    · rintro ⟨a, h, -⟩
      cases h
  | ok a =>
    constructor
    · intro h
      exact ⟨a, rfl, Except.ok.inj h⟩
    · rintro ⟨a', h, hf⟩
      obtain rfl := Except.ok.inj h
      exact congrArg Except.ok hf

theorem mapError_eq_ok_iff {ε' : Type} {x : Except ε α} {f : ε → ε'} {a : α} :
    x.mapError f = .ok a ↔ x = .ok a := by
  cases x with
  | error fault =>
    constructor
    · intro h
      cases h
    · intro h
      cases h
  | ok a' => exact ⟨fun h => congrArg _ (Except.ok.inj h), fun h => congrArg _ (Except.ok.inj h)⟩

theorem ite_error_eq_ok_iff {c : Prop} [Decidable c] {fault : ε} {rest : Except ε α} {x : α} :
    (if c then .error fault else rest) = .ok x ↔ ¬c ∧ rest = .ok x := by
  split
  · next h =>
    constructor
    · intro hok
      cases hok
    · intro hok
      exact absurd h hok.1
  · next h => exact ⟨fun hok => ⟨h, hok⟩, fun hok => hok.2⟩

theorem ite_throw_eq_ok_iff {c : Prop} [Decidable c] {fault : ε} :
    (if c then throw fault else pure () : Except ε Unit) = .ok () ↔ ¬c :=
  ite_error_eq_ok_iff.trans (and_iff_left rfl)

theorem toOption_eq_some_iff {x : Except ε α} {a : α} : x.toOption = some a ↔ x = .ok a := by
  cases x with
  | error fault =>
    constructor
    · intro h
      cases h
    · intro h
      cases h
  | ok b => exact ⟨fun h => congrArg _ (Option.some.inj h), fun h => congrArg _ (Except.ok.inj h)⟩

end Tollgate
