import Tollgate.Proofs.Difficulty.Hysteresis
import Tollgate.Sites

/-!
# Published levels

What a controller publishes, and what a site asks of its puzzles, stays within the
levels of the site's profile. No load leads out of them: the level that a sample
asks for is taken from the profile, and the level in force only ever changes to
such a level, and is never below the last one.

Results:
1. `Snapshot.Within.next`, `within_step`: one refresh keeps to the profile.
2. `within_run`, `within_published`: so does every run.
3. `params_within`: puzzles are at the level in force or above it, within the
   profile.
4. `published_within`: all of it for the profiles that are accepted.
-/

namespace Tollgate

/-- The levels of a snapshot lie in the profile, and the level in force is not below
the one that was asked for. -/
structure Snapshot.Within (s : Snapshot) (p : Profile) : Prop where
  low_le_target : p.low ≤ s.target
  target_le_level : s.target ≤ s.level
  level_le_high : s.level ≤ p.high

/-! ## Snapshots -/

theorem Snapshot.within_initial {p : Profile} (hp : p.Consistent) (now : Instant) :
    (initial p.low now).Within p :=
  ⟨Level.le_refl _, Level.le_refl _, hp.low_le_high⟩

theorem Snapshot.Within.next {s : Snapshot} {p : Profile} (h : s.Within p) {target : Level}
    (htarget : p.Spans target) (settings : ControllerSettings) (rate : Float) (now : Instant) :
    (s.next settings target rate now).Within p := by
  refine ⟨htarget.1, ?_, ?_⟩
  · show target ≤ (s.next settings target rate now).level
    cases Snapshot.move_next settings s target rate now with
    | rise _ hlevel | fall _ _ hlevel =>
      rw [hlevel]
      exact Level.le_refl _
    | hold hle _ hlevel =>
      rw [hlevel]
      exact hle
  · cases Snapshot.level_next settings s target rate now with
    | inl hlevel =>
      rw [hlevel]
      exact htarget.2
    | inr hlevel =>
      rw [hlevel]
      exact h.level_le_high

/-! ## Runs -/

namespace Controller

variable {c : Controller} {p : Profile}

theorem within_step (hstays : c.Stays p) (h : c.snapshot.Within p) (r : Refresh) :
    (c.step r).snapshot.Within p := by
  cases hr : r.sample with
  | error failure =>
    rw [step_of_error hr]
    exact h
  | ok sample =>
    rw [step_of_ok hr]
    exact h.next (hstays.target sample) _ _ _

theorem within_run (hstays : c.Stays p) (h : c.snapshot.Within p) (refreshes : List Refresh) :
    (c.run refreshes).snapshot.Within p := by
  induction refreshes generalizing c with
  | nil => exact h
  | cons r rest ih => exact ih (stays_refresh hstays _ _) (within_step hstays h r)

theorem within_published (hstays : c.Stays p) (h : c.snapshot.Within p)
    (refreshes : List Refresh) : ∀ s ∈ c.published refreshes, s.Within p := by
  induction refreshes generalizing c with
  | nil => exact List.forall_mem_nil _
  | cons r rest ih =>
    have hstep := within_step hstays h r
    have hrest := ih (stays_refresh hstays r.sample r.time) hstep
    cases hr : r.sample with
    | error failure =>
      rw [published_cons_of_error hr]
      exact hrest
    | ok sample =>
      rw [published_cons_of_ok hr]
      exact List.forall_mem_cons.mpr ⟨hstep, hrest⟩

end Controller

/-! ## Puzzles -/

/-- A level of the profile that is asked for as the least one does not lead out of
the profile. -/
theorem Site.params_within {site : Site} {p : Profile} (hp : p.Consistent)
    (hlevel : site.controller.level ≤ p.high) (floor : Option Tier) :
    site.controller.level ≤ (site.params (floor.map p.level)).difficulty ∧
      (site.params (floor.map p.level)).difficulty ≤ p.high := by
  cases floor with
  | none => exact ⟨Level.le_refl _, hlevel⟩
  | some tier => exact ⟨Level.le_sup_left _ _, Level.sup_le hlevel (hp.spans_level tier).2⟩

/-- For every profile that is accepted, whatever the load and the baseline: all that
is published along a run lies in the profile, and so do the puzzles of its site. -/
theorem Controller.published_within {p : Profile} (hvalid : p.validate = .ok ())
    (name : String) (baseline : Float) (settings : ControllerSettings) (created : Instant)
    (refreshes : List Refresh) :
    let made := new name (LogGrowth.of p baseline).strategy settings created
    let c := made.run refreshes
    p.high.bits.toNat ≤ 40 ∧
      (∀ s ∈ made.snapshot :: made.published refreshes, s.Within p) ∧ c.snapshot.Within p ∧
      ∀ site : Site, site.profile = p → site.controller = c → ∀ floor : Option Tier,
        let difficulty := (site.params (floor.map site.profile.level)).difficulty
        c.level ≤ difficulty ∧ difficulty ≤ p.high := by
  intro made c
  have hp := Profile.validate_eq_ok_iff.mp hvalid
  have hstays : made.Stays p := stays_new hp name baseline settings created
  have hmade : made.snapshot.Within p := Snapshot.within_initial hp created
  have hrun : c.snapshot.Within p := within_run hstays hmade refreshes
  refine ⟨UInt8.le_iff_toNat_le.mp hp.high_le_highest,
    List.forall_mem_cons.mpr ⟨hmade, within_published hstays hmade refreshes⟩, hrun, ?_⟩
  intro site hprofile hcontroller floor
  rw [hprofile, ← hcontroller]
  exact Site.params_within hp (hcontroller ▸ hrun.level_le_high) floor

/-- Reaches the highest level that there is at pressure one. -/
def exSteep : Profile :=
  { low := ⟨0⟩, medium := ⟨40⟩, high := ⟨40⟩, growth := .fast }

/-- The largest count, the failure to get one, and a count over no time at all; the
clock goes back. -/
def exSurges : List Refresh :=
  [⟨.ok (.perMinute [0xffffffffffffffff]), 5⟩, ⟨.error ⟨.loadSource, "down"⟩, 4⟩,
    ⟨.ok ⟨.zero, [7]⟩, 3⟩]

/-- Also where the baseline is no number. -/
theorem published_exSurges :
    let made := Controller.new "shop" (LogGrowth.of exSteep (0.0 / 0.0)).strategy {} 0
    exSteep.validate = .ok () ∧ (made.published exSurges).length = 2 ∧
      ∀ s ∈ made.published exSurges, s.Within exSteep := by
  have hvalid : exSteep.validate = .ok () := rfl
  obtain ⟨-, hpublished, -, -⟩ :=
    Controller.published_within hvalid "shop" (0.0 / 0.0) {} 0 exSurges
  exact ⟨hvalid, rfl, (List.forall_mem_cons.mp hpublished).2⟩

end Tollgate
