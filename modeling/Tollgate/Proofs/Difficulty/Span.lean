import Tollgate.Difficulty.Controller
import Tollgate.Proofs.Checks

/-!
# Levels stay within their profile

A profile names a lowest and a highest level. Its checks keep these in order, and
then no load, however large or ill-formed, asks for a level beyond them; so a
controller that starts at the low level never leaves their span.

Results:
1. `Profile.validate_eq_ok_iff`: what the checks of a profile say.
2. `Profile.spans_interpolate`: a consistent profile has a level of its span for
   every pressure.
3. `Controller.stays_refresh`: a refresh, successful or not, keeps the level in
   force within the span.
-/

namespace Tollgate

/-! ## Levels in order -/

namespace Level

theorem le_refl (x : Level) : x ≤ x :=
  UInt8.le_refl x.bits

theorem le_trans {x y z : Level} (hxy : x ≤ y) (hyz : y ≤ z) : x ≤ z :=
  UInt8.le_trans hxy hyz

theorem le_of_not_le {x y : Level} (h : ¬x ≤ y) : y ≤ x :=
  (UInt8.le_total x.bits y.bits).resolve_left h

theorem le_sup_left (x y : Level) : x ≤ x.sup y := by
  unfold sup
  split
  · next h => exact h
  · exact le_refl x

theorem sup_le {x y z : Level} (hx : x ≤ z) (hy : y ≤ z) : x.sup y ≤ z := by
  unfold sup
  split
  · exact hy
  · exact hx

theorem inf_le_right (x y : Level) : x.inf y ≤ y := by
  unfold inf
  split
  · next h => exact h
  · exact le_refl y

theorem le_inf {x y z : Level} (hx : z ≤ x) (hy : z ≤ y) : z ≤ x.inf y := by
  unfold inf
  split
  · exact hx
  · exact hy

theorem toNat_sup (x y : Level) : (x.sup y).bits.toNat = max x.bits.toNat y.bits.toNat := by
  unfold sup
  split
  · next h => exact (Nat.max_eq_right (UInt8.le_iff_toNat_le.mp h)).symm
  · next h => exact (Nat.max_eq_left (UInt8.le_iff_toNat_le.mp (le_of_not_le h))).symm

end Level

/-! ## Consistent profiles -/

namespace Profile

/-- What the checks of a profile say. -/
structure Consistent (p : Profile) : Prop where
  low_le_medium : p.low ≤ p.medium
  medium_le_high : p.medium ≤ p.high
  high_le_highest : p.high.bits ≤ Level.highest
  solutions_ne_zero : p.solutions ≠ 0
  validitySeconds_ne_zero : p.validitySeconds ≠ 0

/-- The level is neither below the low level nor above the high one. -/
def Spans (p : Profile) (level : Level) : Prop :=
  p.low ≤ level ∧ level ≤ p.high

variable {p : Profile} {level : Level}

theorem validate_eq_ok_iff : p.validate = .ok () ↔ p.Consistent := by
  simp only [validate, throw_bind, ite_error_eq_ok_iff, ite_throw_eq_ok_iff, Decidable.not_not]
  constructor
  · rintro ⟨hhighest, ⟨hlow, hhigh⟩, hsolutions, hvalidity⟩
    exact ⟨hlow, hhigh, UInt8.not_lt.mp hhighest, hsolutions, hvalidity⟩
  · intro h
    exact ⟨UInt8.not_lt.mpr h.high_le_highest, ⟨h.low_le_medium, h.medium_le_high⟩,
      h.solutions_ne_zero, h.validitySeconds_ne_zero⟩

theorem Consistent.low_le_high (h : p.Consistent) : p.low ≤ p.high :=
  Level.le_trans h.low_le_medium h.medium_le_high

theorem Consistent.spans_level (h : p.Consistent) (tier : Tier) : p.Spans (p.level tier) := by
  cases tier with
  | low => exact ⟨Level.le_refl _, h.low_le_high⟩
  | medium => exact ⟨h.low_le_medium, h.medium_le_high⟩
  | high => exact ⟨h.low_le_high, Level.le_refl _⟩

/-- Every level of the span can stand in a token. -/
theorem Spans.le_highest (h : p.Spans level) (hp : p.Consistent) : level.bits ≤ Level.highest :=
  UInt8.le_trans h.2 hp.high_le_highest

theorem Spans.sup {other : Level} (h : p.Spans level) (hother : p.Spans other) :
    p.Spans (level.sup other) :=
  ⟨Level.le_trans h.1 (Level.le_sup_left _ _), Level.sup_le h.2 hother.2⟩

/-- Neither the bound of a byte nor the one of levels takes away bits that were
there before others were added. -/
theorem le_ofBits_add (steps : Nat) (hlevel : level.bits ≤ Level.highest) :
    level ≤ .ofBits (min (level.bits.toNat + steps) 255).toUInt8 := by
  have hbyte : (min (level.bits.toNat + steps) 255).toUInt8.toNat =
      min (level.bits.toNat + steps) 255 := by
    rw [Nat.toUInt8, UInt8.toNat_ofNat', Nat.mod_eq_of_lt (by omega)]
  have hadded : level.bits ≤ (min (level.bits.toNat + steps) 255).toUInt8 := by
    have := level.bits.toNat_lt
    rw [UInt8.le_iff_toNat_le, hbyte]
    omega
  show level.bits ≤ min _ Level.highest
  rw [show ∀ x y : UInt8, min x y = if x ≤ y then x else y from fun _ _ => rfl]
  split
  · exact hadded
  · exact hlevel

theorem le_between {lower high : Level} (upper : Level) (fraction : Float)
    (hhigh : lower ≤ high) (hhighest : high.bits ≤ Level.highest) :
    lower ≤ between lower upper fraction high :=
  Level.le_inf (le_ofBits_add _ (UInt8.le_trans hhigh hhighest)) hhigh

/-- No pressure asks for a level out of the span, not even one that is no number. -/
theorem spans_interpolate (h : p.Consistent) (pressure : Float) :
    p.Spans (p.interpolate pressure) := by
  unfold interpolate
  split
  · exact ⟨Level.le_refl _, h.low_le_high⟩
  · split
    · exact ⟨h.low_le_high, Level.le_refl _⟩
    · split
      · exact ⟨le_between _ _ h.low_le_high h.high_le_highest, Level.inf_le_right _ _⟩
      · exact ⟨Level.le_trans h.low_le_medium
          (le_between _ _ h.medium_le_high h.high_le_highest), Level.inf_le_right _ _⟩

end Profile

/-! ## Controllers -/

/-- The level in force changes to the one asked for, or not at all. -/
theorem Snapshot.level_next (settings : ControllerSettings) (s : Snapshot) (target : Level)
    (rate : Float) (now : Instant) :
    (s.next settings target rate now).level = target ∨
      (s.next settings target rate now).level = s.level := by
  simp only [next]
  split
  · exact .inl rfl
  · exact .inr rfl

namespace Controller

/-- The level in force lies in the profile's span, and so does whatever the
strategy asks for. -/
structure Stays (c : Controller) (p : Profile) : Prop where
  level : p.Spans c.level
  target : ∀ sample, p.Spans (c.strategy.target sample)

variable {c : Controller} {p : Profile}

theorem stays_new (h : p.Consistent) (name : String) (baseline : Float)
    (settings : ControllerSettings) (now : Instant) :
    (new name (LogGrowth.of p baseline).strategy settings now).Stays p where
  level := ⟨Level.le_refl _, h.low_le_high⟩
  target _ := Profile.spans_interpolate h _

theorem stays_refresh (h : c.Stays p) (sample : Except Failure LoadSample) (now : Instant) :
    (c.refresh sample now).2.Stays p := by
  cases sample with
  | error failure => exact ⟨h.level, h.target⟩
  | ok sample =>
    refine ⟨?_, h.target⟩
    have hnext : (c.refresh (.ok sample) now).2.level = c.strategy.target sample ∨
        (c.refresh (.ok sample) now).2.level = c.level := Snapshot.level_next _ _ _ _ _
    cases hnext with
    | inl htarget => exact htarget.symm ▸ h.target sample
    | inr hlevel => exact hlevel.symm ▸ h.level

end Controller

end Tollgate
