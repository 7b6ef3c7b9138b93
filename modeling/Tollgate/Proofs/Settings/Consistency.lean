import Tollgate.Proofs.Server.Sites

/-!
# Settings that are accepted

The checks of the settings ask for refill intervals, proxies, a baseline and a window that
can be used, for sites of different keys, and for consistent profiles of all sites.

A profile is made before it is checked, and its levels are cut down to the highest one. So
what is checked are not the levels as they are written: a level that is too high is accepted,
and so are levels that descend, if they do it beyond the highest one.

Results:
1. `float_pos_iff`, `mapM_isOk_iff`, `validate_eq_ok_iff`: what the checks say one by one.
2. `profile_consistent_iff`, `consistent_iff`: what is asked of a site, and what should be.
3. `validate_iff`: which settings are accepted, and which of them are consistent as written.
4. `exDescending_accepted`: a site whose levels descend.
-/

namespace Tollgate

/-! ## Positive numbers -/

section

open Float.Model

theorem unpacked_pos_iff (u : UnpackedFloat) :
    UnpackedFloat.lt (.zero .positive) u = true ↔
      u.isNaN = false ∧ u.le (.zero .positive) = false := by
  cases u with
  | notANumber => decide
  | infinity sign => cases sign <;> decide
  | zero sign => cases sign <;> decide
  | finite sign mantissa exponent hpos =>
    cases sign with
    | positive => exact ⟨fun _ => ⟨rfl, rfl⟩, fun _ => rfl⟩
    | negative =>
      constructor
      · intro h
        exact absurd h Bool.false_ne_true
      · intro h
        exact absurd h.2.symm Bool.false_ne_true

/-- A number is positive unless it is none, or is at most zero. -/
theorem float_pos_iff {x : Float} : 0.0 < x ↔ ¬(x.isNaN || x <= 0.0) = true := by
  have hpos := unpacked_pos_iff x.toModel.unpack
  have hlt : 0.0 < x ↔ UnpackedFloat.lt (.zero .positive) x.toModel.unpack = true :=
    decide_eq_true_iff
  have hle : x ≤ 0.0 ↔ UnpackedFloat.le x.toModel.unpack (.zero .positive) = true :=
    decide_eq_true_iff
  rw [hlt, hpos, Bool.or_eq_true, not_or, decide_eq_true_iff, hle, Bool.not_eq_true,
    Bool.not_eq_true]
  rfl

end

/-! ## Lists of answers -/

/-- A list is read exactly if each of its elements is. -/
theorem mapM_isOk_iff {ε α β : Type} {f : α → Except ε β} {xs : List α} :
    (∃ ys, xs.mapM f = .ok ys) ↔ ∀ x ∈ xs, ∃ y, f x = .ok y := by
  induction xs with
  | nil => exact ⟨fun _ x hx => absurd hx List.not_mem_nil, fun _ => ⟨[], rfl⟩⟩
  | cons x rest ih =>
    rw [List.forall_mem_cons, ← ih, List.mapM_cons]
    constructor
    · rintro ⟨zs, hzs⟩
      obtain ⟨y, hy, hrest⟩ := bind_eq_ok_iff.mp hzs
      obtain ⟨ys, hys, -⟩ := bind_eq_ok_iff.mp hrest
      exact ⟨⟨y, hy⟩, ys, hys⟩
    · rintro ⟨⟨y, hy⟩, ys, hys⟩
      exact ⟨y :: ys, bind_eq_ok_iff.mpr ⟨y, hy, bind_eq_ok_iff.mpr ⟨ys, hys, rfl⟩⟩⟩

/-! ## Sites -/

theorem Level.toNat_ofBits (bits : UInt8) : (Level.ofBits bits).bits.toNat = min bits.toNat 40 := by
  show (if bits ≤ highest then bits else highest).toNat = _
  split
  · next h => exact (Nat.min_eq_left (UInt8.le_iff_toNat_le.mp h)).symm
  · next h =>
    have hlt := UInt8.lt_iff_toNat_lt.mp (UInt8.not_le.mp h)
    exact (Nat.min_eq_right (Nat.le_of_lt hlt)).symm

/-- Levels that are cut down are in order if they were before, or the upper one is cut down. -/
theorem Level.ofBits_le_ofBits_iff {x y : UInt8} :
    Level.ofBits x ≤ Level.ofBits y ↔ x ≤ y ∨ highest ≤ y := by
  show (Level.ofBits x).bits ≤ (Level.ofBits y).bits ↔ _
  rw [UInt8.le_iff_toNat_le, UInt8.le_iff_toNat_le, UInt8.le_iff_toNat_le, toNat_ofBits,
    toNat_ofBits]
  show min x.toNat 40 ≤ min y.toNat 40 ↔ x.toNat ≤ y.toNat ∨ 40 ≤ y.toNat
  omega

namespace SiteSettings

variable {c : SiteSettings}

/-- The numbers of a site, as they are written, contradict each other in nothing. -/
structure Consistent (c : SiteSettings) : Prop where
  low_le_medium : c.low ≤ c.medium
  medium_le_high : c.medium ≤ c.high
  high_le_highest : c.high ≤ Level.highest
  solutions_pos : 0 < c.solutions
  validitySeconds_pos : 0 < c.validitySeconds

/-- What is left of it where levels beyond the highest one count as that one. -/
structure ConsistentAsCut (c : SiteSettings) : Prop where
  low_le_medium : c.low ≤ c.medium ∨ Level.highest ≤ c.medium
  medium_le_high : c.medium ≤ c.high ∨ Level.highest ≤ c.high
  solutions_pos : 0 < c.solutions
  validitySeconds_pos : 0 < c.validitySeconds

theorem profile_consistent_iff : c.profile.Consistent ↔ c.ConsistentAsCut := by
  constructor
  · intro h
    exact ⟨Level.ofBits_le_ofBits_iff.mp h.low_le_medium,
      Level.ofBits_le_ofBits_iff.mp h.medium_le_high,
      UInt8.pos_iff_ne_zero.mpr h.solutions_ne_zero,
      UInt64.pos_iff_ne_zero.mpr h.validitySeconds_ne_zero⟩
  · intro h
    refine ⟨Level.ofBits_le_ofBits_iff.mpr h.low_le_medium,
      Level.ofBits_le_ofBits_iff.mpr h.medium_le_high, ?_,
      UInt8.pos_iff_ne_zero.mp h.solutions_pos,
      UInt64.pos_iff_ne_zero.mp h.validitySeconds_pos⟩
    rw [UInt8.le_iff_toNat_le]
    show (Level.ofBits c.high).bits.toNat ≤ 40
    rw [Level.toNat_ofBits]
    exact Nat.min_le_right _ _

/-- The cut hides a contradiction only where there is something to cut. -/
theorem consistent_iff :
    c.Consistent ↔
      c.ConsistentAsCut ∧ ∀ level ∈ [c.low, c.medium, c.high], level ≤ Level.highest := by
  rw [List.forall_mem_cons, List.forall_mem_cons, List.forall_mem_singleton]
  constructor
  · intro h
    have hmedium := UInt8.le_trans h.medium_le_high h.high_le_highest
    exact ⟨⟨.inl h.low_le_medium, .inl h.medium_le_high, h.solutions_pos,
      h.validitySeconds_pos⟩, UInt8.le_trans h.low_le_medium hmedium, hmedium,
      h.high_le_highest⟩
  · rintro ⟨h, hlow, hmedium, hhigh⟩
    exact ⟨h.low_le_medium.elim id (UInt8.le_trans hlow),
      h.medium_le_high.elim id (UInt8.le_trans hmedium), hhigh, h.solutions_pos,
      h.validitySeconds_pos⟩

end SiteSettings

/-! ## Settings -/

theorem RateSettings.policy_isOk_iff {s : RateSettings} :
    (∃ policy, s.policy = .ok policy) ↔
      (∃ limits, Rate.Limits.ofSeconds s.defaultCapacity s.defaultInterval = .ok limits) ∧
        ∃ limits, Rate.Limits.ofSeconds s.promotedCapacity s.promotedInterval = .ok limits := by
  constructor
  · rintro ⟨policy, h⟩
    obtain ⟨default, hdefault, h⟩ := bind_eq_ok_iff.mp h
    obtain ⟨promoted, hpromoted, -⟩ := bind_eq_ok_iff.mp h
    exact ⟨⟨default, hdefault⟩, promoted, hpromoted⟩
  · rintro ⟨⟨default, hdefault⟩, promoted, hpromoted⟩
    exact ⟨⟨default, promoted⟩,
      bind_eq_ok_iff.mpr ⟨default, hdefault, bind_eq_ok_iff.mpr ⟨promoted, hpromoted, rfl⟩⟩⟩

theorem Network.parse?_isSome_iff {entry : String} :
    (∃ network, parse? entry = some network) ↔
      (∃ network, ofPair? (Text.trim entry).toList = some network) ∨
        ∃ address, Address.parse? (Text.trim entry) = some address := by
  simp only [← Option.isSome_iff_exists, parse?, Option.isSome_or, Option.isSome_map,
    Bool.or_eq_true]

namespace Settings

variable {s : Settings}

theorem networks_isOk_iff :
    (∃ networks, s.networks = .ok networks) ↔
      ∀ entry ∈ s.trustedProxies, ∃ network, Network.parse? entry = some network := by
  rw [networks, mapM_isOk_iff]
  refine forall₂_congr fun entry _ => ?_
  cases Network.parse? entry with
  | none =>
    constructor
    · rintro ⟨network, h⟩
      cases h
    · rintro ⟨network, h⟩
      cases h
  | some network => exact ⟨fun _ => ⟨network, rfl⟩, fun _ => ⟨network, rfl⟩⟩

/-- Settings pass if they pass check by check. -/
theorem validate_eq_ok_iff :
    s.validate = .ok () ↔
      (∃ policy, s.rates.policy = .ok policy) ∧ (∃ networks, s.networks = .ok networks) ∧
        0.0 < s.difficulty.baseline ∧ s.difficulty.windowMinutes ≠ 0 ∧
          validateSites [] s.sites = .ok () := by
  rw [float_pos_iff]
  simp only [validate, throw_bind]
  cases s.rates.policy with
  | error fault =>
    constructor
    · intro h
      cases h
    · rintro ⟨⟨policy, h⟩, -⟩
      cases h
  | ok policy =>
    cases s.networks with
    | error fault =>
      constructor
      · intro h
        cases h
      · rintro ⟨-, ⟨networks, h⟩, -⟩
        cases h
    | ok networks =>
      refine ite_error_eq_ok_iff.trans ?_
      rw [ite_error_eq_ok_iff]
      exact ⟨fun h => ⟨⟨policy, rfl⟩, ⟨networks, rfl⟩, h⟩, fun h => h.2.2⟩

/-- The settings contradict each other in nothing, and no site contradicts itself in what is
asked of one. -/
structure Consistent (s : Settings) (asked : SiteSettings → Prop) : Prop where
  default_interval :
    ∃ limits, Rate.Limits.ofSeconds s.rates.defaultCapacity s.rates.defaultInterval = .ok limits
  promoted_interval :
    ∃ limits, Rate.Limits.ofSeconds s.rates.promotedCapacity s.rates.promotedInterval = .ok limits
  proxies : ∀ entry ∈ s.trustedProxies,
    (∃ network, Network.ofPair? (Text.trim entry).toList = some network) ∨
      ∃ address, Address.parse? (Text.trim entry) = some address
  baseline : 0.0 < s.difficulty.baseline
  window : 0 < s.difficulty.windowMinutes
  siteKeys : (s.sites.map SiteSettings.siteKey).Nodup
  sites : ∀ c ∈ s.sites, asked c

/-- Settings are accepted exactly if they are consistent with the levels of all sites cut
down. They are consistent as they are written exactly if they are accepted and no level is
beyond the highest one. -/
theorem validate_iff (s : Settings) :
    (s.validate = .ok () ↔ s.Consistent SiteSettings.ConsistentAsCut) ∧
    (s.Consistent SiteSettings.Consistent ↔
      s.validate = .ok () ∧
        ∀ c ∈ s.sites, ∀ level ∈ [c.low, c.medium, c.high], level ≤ Level.highest) := by
  have haccepted : s.validate = .ok () ↔ s.Consistent SiteSettings.ConsistentAsCut := by
    rw [validate_eq_ok_iff, RateSettings.policy_isOk_iff, networks_isOk_iff,
      validateSites_eq_ok_iff]
    simp only [Network.parse?_isSome_iff, SiteSettings.profile_consistent_iff]
    constructor
    · rintro ⟨⟨hdefault, hpromoted⟩, hproxies, hbaseline, hwindow, hkeys, hsites⟩
      exact ⟨hdefault, hpromoted, hproxies, hbaseline, UInt32.pos_iff_ne_zero.mpr hwindow,
        hkeys, fun c hc => (hsites c hc).2⟩
    · intro h
      exact ⟨⟨h.default_interval, h.promoted_interval⟩, h.proxies, h.baseline,
        UInt32.pos_iff_ne_zero.mp h.window, h.siteKeys,
        fun c hc => ⟨List.not_mem_nil, h.sites c hc⟩⟩
  refine ⟨haccepted, ?_⟩
  rw [haccepted]
  constructor
  · intro h
    exact ⟨{ h with sites := fun c hc => (SiteSettings.consistent_iff.mp (h.sites c hc)).1 },
      fun c hc => (SiteSettings.consistent_iff.mp (h.sites c hc)).2⟩
  · rintro ⟨h, hlevels⟩
    exact { h with
      sites := fun c hc => SiteSettings.consistent_iff.mpr ⟨h.sites c hc, hlevels c hc⟩ }

/-! ## Levels that descend -/

/-- A site whose levels descend, all of them beyond the highest one. -/
def exDescending : Settings :=
  { sites := [{ siteKey := "a", owner := default, low := 60, medium := 50, high := 45 }] }

/-- The site is accepted, and all its levels count as the highest one. The same levels are
refused where none of them is cut. -/
theorem exDescending_accepted :
    exDescending.validate = .ok () ∧
    exDescending.sites.map SiteSettings.profile =
      [{ low := ⟨40⟩, medium := ⟨40⟩, high := ⟨40⟩ }] ∧
    ¬exDescending.Consistent SiteSettings.Consistent ∧
    Profile.validate { low := ⟨60⟩, medium := ⟨50⟩, high := ⟨45⟩ } = .error (.tooDifficult 45) := by
  refine ⟨rfl, rfl, fun h => ?_, rfl⟩
  have hlow : (60 : UInt8) ≤ 50 := (h.sites _ List.mem_cons_self).low_le_medium
  exact absurd hlow (by decide)

end Settings

end Tollgate
