import Tollgate.Proofs.Difficulty.Span

/-!
# Hysteresis

A controller is refreshed again and again. The level in force follows the level
that a sample asks for at once where that is higher; where it is lower by the
margin, only once the level in force has held for an epoch. Smaller differences
downward do not count.

The changes of the level are read off the levels along a run. That the epoch
starts with the last of them, and not with any other refresh, is a result.

Results:
1. `move_next`, `governed_next`: what one sample does to the level in force.
2. `epochStarted_run`: the epoch starts when the level last changed.
3. `pairwise_changes`: no fall comes within an epoch of a change before it.
4. `Alike.published_filter`, `Alike.run_filter`: failures leave no trace in what is
   published, and in the snapshot.
5. `hysteresis`: all of it, after any run.
-/

namespace Tollgate

/-! ## Definitions -/

/-- A refresh of a controller: a sample of the load, or the failure to get one, and
its time. -/
structure Refresh where
  sample : Except Failure LoadSample
  time : Instant

def Refresh.succeeds (r : Refresh) : Bool :=
  r.sample.isOk

/-- A change of the level in force. -/
structure Change where
  old : Level
  new : Level
  time : Instant

/-- A fall to a level is due: it is by the margin at least, which is never less than
one, and an epoch has passed since the level in force last changed. -/
def Level.FallDue (settings : ControllerSettings) (since : Instant) (old target : Level)
    (now : Instant) : Prop :=
  target.bits.toNat + max 1 settings.stepDownMargin.toNat ≤ old.bits.toNat ∧
    since + settings.epoch.nanos ≤ now

/-- The level in force goes from `old` to `new` as it has to when a sample asks for
`target`. It has last changed at `since`. -/
structure Level.Governed (settings : ControllerSettings) (since : Instant)
    (old target : Level) (now : Instant) (new : Level) : Prop where
  target_le : target ≤ new
  rises : old < new → new = target
  falls : new < old → new = target ∧ old.FallDue settings since target now
  due : old.FallDue settings since target now → new = target

/-- What a sample makes of a snapshot: the level rises, falls or holds, and only in
the first two cases an epoch starts. -/
inductive Snapshot.Move (settings : ControllerSettings) (s : Snapshot) (target : Level)
    (now : Instant) (s' : Snapshot) : Prop
  | rise : s.level < target → s'.level = target → s'.epochStarted = now →
      Move settings s target now s'
  | fall : target < s.level → s.mayFall settings target now = true → s'.level = target →
      s'.epochStarted = now → Move settings s target now s'
  | hold : target ≤ s.level → ¬(target < s.level ∧ s.mayFall settings target now = true) →
      s'.level = s.level → s'.epochStarted = s.epochStarted → Move settings s target now s'

namespace Controller

/-- The controller after a refresh. -/
def step (c : Controller) (r : Refresh) : Controller :=
  (c.refresh r.sample r.time).2

def run (c : Controller) (refreshes : List Refresh) : Controller :=
  refreshes.foldl step c

/-- The snapshots that the refreshes of a run publish. -/
def published (c : Controller) : List Refresh → List Snapshot
  | [] => []
  | r :: rest => (c.refresh r.sample r.time).1.toOption.toList ++ (c.step r).published rest

/-- The changes of the level in force along a run. -/
def changes (c : Controller) : List Refresh → List Change
  | [] => []
  | r :: rest =>
    if (c.step r).level = c.level then (c.step r).changes rest
    else ⟨c.level, (c.step r).level, r.time⟩ :: (c.step r).changes rest

/-- When the level in force last changed along a run; `created` if it never did. -/
def lastChange (c : Controller) (created : Instant) (refreshes : List Refresh) : Instant :=
  ((c.changes refreshes).getLast?.map Change.time).getD created

/-- The clock does not go back in a run that starts at an instant. -/
def InOrder (start : Instant) (refreshes : List Refresh) : Prop :=
  (∀ r ∈ refreshes, start ≤ r.time) ∧
    refreshes.Pairwise fun earlier later => earlier.time ≤ later.time

end Controller

/-! ## One refresh -/

namespace Level

variable {x y : Level}

theorem lt_irrefl (x : Level) : ¬x < x :=
  UInt8.lt_irrefl x.bits

theorem le_of_lt (h : x < y) : x ≤ y :=
  UInt8.le_of_lt h

theorem not_lt_of_le (h : x ≤ y) : ¬y < x :=
  UInt8.not_lt.mpr h

theorem le_of_not_lt (h : ¬x < y) : y ≤ x :=
  UInt8.not_lt.mp h

theorem lt_of_toNat_lt (h : x.bits.toNat < y.bits.toNat) : x < y :=
  UInt8.lt_iff_toNat_lt.mpr h

end Level

namespace Snapshot

variable {settings : ControllerSettings} {s : Snapshot} {target : Level} {rate : Float}
  {now : Instant}

theorem move_next (settings : ControllerSettings) (s : Snapshot) (target : Level) (rate : Float)
    (now : Instant) : Move settings s target now (s.next settings target rate now) := by
  simp only [next, Bool.or_eq_true, Bool.and_eq_true, decide_eq_true_eq]
  split
  · next h =>
    rcases h with hrise | ⟨hlt, hmay⟩
    · exact .rise hrise rfl rfl
    · exact .fall hlt hmay rfl rfl
  · next h =>
    rw [not_or] at h
    exact .hold (Level.le_of_not_lt h.1) h.2 rfl rfl

theorem mayFall_iff (horder : s.epochStarted ≤ now) :
    s.mayFall settings target now = true ↔
      s.level.FallDue settings s.epochStarted target now := by
  unfold mayFall Level.FallDue Instant.since
  rw [Bool.and_eq_true, decide_eq_true_iff, decide_eq_true_iff, Nat.max_comm]
  simp only [Instant] at *
  omega

/-- One sample moves the level as it has to, if the clock has not gone back since
the epoch started. -/
theorem governed_next (settings : ControllerSettings) (target : Level) (rate : Float)
    (horder : s.epochStarted ≤ now) :
    s.level.Governed settings s.epochStarted target now
      (s.next settings target rate now).level := by
  have hdue : s.level.FallDue settings s.epochStarted target now → target < s.level := by
    intro h
    have hmargin := h.1
    exact Level.lt_of_toNat_lt (by omega)
  cases move_next settings s target rate now with
  | rise hlt hlevel =>
    rw [hlevel]
    refine ⟨Level.le_refl _, fun _ => rfl, fun h => ?_, fun _ => rfl⟩
    exact absurd h (Level.not_lt_of_le (Level.le_of_lt hlt))
  | fall hlt hmay hlevel =>
    rw [hlevel]
    refine ⟨Level.le_refl _, fun h => ?_, fun _ => ⟨rfl, ?_⟩, fun _ => rfl⟩
    · exact absurd h (Level.not_lt_of_le (Level.le_of_lt hlt))
    · exact (mayFall_iff horder).mp hmay
  | hold hle hnot hlevel =>
    rw [hlevel]
    refine ⟨hle, fun h => ?_, fun h => ?_, fun h => ?_⟩
    · exact absurd h (Level.lt_irrefl _)
    · exact absurd h (Level.lt_irrefl _)
    · exact absurd ⟨hdue h, (mayFall_iff horder).mpr h⟩ hnot

end Snapshot

namespace Controller

variable {c : Controller} {refreshes : List Refresh} {r : Refresh} {x : Change} {start : Instant}

theorem step_of_error {failure : Failure} (h : r.sample = .error failure) :
    c.step r = { c with failures := c.failures + 1 } := by
  rw [step, h]
  rfl

theorem step_of_ok {sample : LoadSample} (h : r.sample = .ok sample) :
    c.step r = { c with
      snapshot := c.snapshot.next c.settings (c.strategy.target sample) sample.weightedRate
        r.time } := by
  rw [step, h]
  rfl

theorem settings_step (c : Controller) (r : Refresh) : (c.step r).settings = c.settings := by
  cases h : r.sample with
  | error failure => rw [step_of_error h]
  | ok sample => rw [step_of_ok h]

theorem strategy_step (c : Controller) (r : Refresh) : (c.step r).strategy = c.strategy := by
  cases h : r.sample with
  | error failure => rw [step_of_error h]
  | ok sample => rw [step_of_ok h]

/-- Where the level changes, the epoch starts with the change; where it does not, the
epoch goes on. -/
theorem epochStarted_step (c : Controller) (r : Refresh) :
    (c.step r).snapshot.epochStarted =
      if (c.step r).level = c.level then c.snapshot.epochStarted else r.time := by
  cases h : r.sample with
  | error failure =>
    rw [step_of_error h]
    exact (if_pos rfl).symm
  | ok sample =>
    rw [step_of_ok h]
    show (c.snapshot.next _ _ _ _).epochStarted =
      if (c.snapshot.next _ _ _ _).level = c.snapshot.level then _ else _
    cases Snapshot.move_next c.settings c.snapshot (c.strategy.target sample)
        sample.weightedRate r.time with
    | rise hlt hlevel hstarted =>
      rw [hlevel, hstarted, if_neg fun heq => Level.lt_irrefl _ (heq ▸ hlt)]
    | fall hlt _ hlevel hstarted =>
      rw [hlevel, hstarted, if_neg fun heq => Level.lt_irrefl _ (heq ▸ hlt)]
    | hold _ _ hlevel hstarted => rw [hlevel, hstarted, if_pos rfl]

/-- A refresh after which the level is lower has come an epoch after the change
before it. -/
theorem epoch_le_of_fall (horder : c.snapshot.epochStarted ≤ r.time)
    (hfall : (c.step r).level < c.level) :
    c.snapshot.epochStarted + c.settings.epoch.nanos ≤ r.time := by
  cases h : r.sample with
  | error failure =>
    rw [step_of_error h] at hfall
    exact absurd hfall (Level.lt_irrefl _)
  | ok sample =>
    rw [step_of_ok h] at hfall
    have hgoverned := Snapshot.governed_next c.settings (c.strategy.target sample)
      sample.weightedRate horder
    exact (hgoverned.falls hfall).2.2

/-! ## Runs -/

theorem settings_run (c : Controller) (refreshes : List Refresh) :
    (c.run refreshes).settings = c.settings := by
  induction refreshes generalizing c with
  | nil => rfl
  | cons r rest ih => exact (ih (c.step r)).trans (settings_step c r)

theorem strategy_run (c : Controller) (refreshes : List Refresh) :
    (c.run refreshes).strategy = c.strategy := by
  induction refreshes generalizing c with
  | nil => rfl
  | cons r rest ih => exact (ih (c.step r)).trans (strategy_step c r)

theorem lastChange_cons (c : Controller) (created : Instant) (r : Refresh)
    (rest : List Refresh) :
    c.lastChange created (r :: rest) =
      (c.step r).lastChange (if (c.step r).level = c.level then created else r.time) rest := by
  rw [lastChange, changes]
  split
  · rfl
  · rw [List.getLast?_cons, lastChange]
    cases ((c.step r).changes rest).getLast? with
    | none => rfl
    | some x => rfl

theorem epochStarted_run (c : Controller) (refreshes : List Refresh) :
    (c.run refreshes).snapshot.epochStarted =
      c.lastChange c.snapshot.epochStarted refreshes := by
  induction refreshes generalizing c with
  | nil => rfl
  | cons r rest ih =>
    rw [lastChange_cons, ← epochStarted_step]
    exact ih (c.step r)

theorem InOrder.tail {rest : List Refresh} (h : InOrder start (r :: rest)) {now : Instant}
    (hnow : now ≤ r.time) : InOrder now rest :=
  ⟨fun r' hin => Int.le_trans hnow ((List.pairwise_cons.mp h.2).1 r' hin),
    (List.pairwise_cons.mp h.2).2⟩

theorem epochStarted_step_le (horder : c.snapshot.epochStarted ≤ r.time) :
    (c.step r).snapshot.epochStarted ≤ r.time := by
  rw [epochStarted_step]
  split
  · exact horder
  · exact Int.le_refl _

theorem epochStarted_run_le {now : Instant} (hstart : c.snapshot.epochStarted ≤ now)
    (hrun : ∀ r ∈ refreshes, r.time ≤ now) : (c.run refreshes).snapshot.epochStarted ≤ now := by
  induction refreshes generalizing c with
  | nil => exact hstart
  | cons r rest ih =>
    obtain ⟨hfirst, hrest⟩ := List.forall_mem_cons.mp hrun
    refine ih ?_ hrest
    rw [epochStarted_step]
    split
    · exact hstart
    · exact hfirst

theorem epochStarted_le_step (horder : c.snapshot.epochStarted ≤ r.time) :
    c.snapshot.epochStarted ≤ (c.step r).snapshot.epochStarted := by
  rw [epochStarted_step]
  split
  · exact Int.le_refl _
  · exact horder

/-- Every later fall is an epoch away from the start of the epoch that a run begins
with. -/
theorem epoch_le_of_mem_changes (horder : InOrder c.snapshot.epochStarted refreshes)
    (hin : x ∈ c.changes refreshes) (hfall : x.new < x.old) :
    c.snapshot.epochStarted + c.settings.epoch.nanos ≤ x.time := by
  induction refreshes generalizing c with
  | nil => cases hin
  | cons r rest ih =>
    have hfirst := horder.1 r List.mem_cons_self
    have hrest (hin : x ∈ (c.step r).changes rest) :
        c.snapshot.epochStarted + c.settings.epoch.nanos ≤ x.time := by
      have hlater := ih (horder.tail (epochStarted_step_le hfirst)) hin
      have hle := epochStarted_le_step hfirst
      rw [settings_step] at hlater
      simp only [Instant] at *
      omega
    rw [changes] at hin
    split at hin
    · exact hrest hin
    · cases hin with
      | head => exact epoch_le_of_fall hfirst hfall
      | tail _ hin => exact hrest hin

/-- A fall comes an epoch or more after every change before it. -/
theorem pairwise_changes (horder : InOrder c.snapshot.epochStarted refreshes) :
    (c.changes refreshes).Pairwise fun earlier later : Change =>
      later.new < later.old → earlier.time + c.settings.epoch.nanos ≤ later.time := by
  induction refreshes generalizing c with
  | nil => exact .nil
  | cons r rest ih =>
    have hfirst := horder.1 r List.mem_cons_self
    have horder' := horder.tail (epochStarted_step_le hfirst)
    have hrest := ih horder'
    rw [settings_step] at hrest
    rw [changes]
    split
    · exact hrest
    · next hne =>
      refine .cons (fun later hin hfall => ?_) hrest
      have hlater := epoch_le_of_mem_changes horder' hin hfall
      rw [epochStarted_step, if_neg hne, settings_step] at hlater
      exact hlater

theorem version_run (c : Controller) (refreshes : List Refresh) :
    (c.run refreshes).snapshot.version =
      c.snapshot.version + refreshes.countP Refresh.succeeds := by
  induction refreshes generalizing c with
  | nil => rfl
  | cons r rest ih =>
    have hrest : (c.run (r :: rest)).snapshot.version = _ := ih (c.step r)
    rw [hrest, List.countP_cons, Refresh.succeeds]
    cases h : r.sample with
    | error failure =>
      rw [step_of_error h]
      rfl
    | ok sample =>
      rw [step_of_ok h]
      show c.snapshot.version + 1 + _ = c.snapshot.version + (_ + 1)
      omega

theorem failures_run (c : Controller) (refreshes : List Refresh) :
    (c.run refreshes).failures = c.failures + refreshes.countP fun r => !r.succeeds := by
  induction refreshes generalizing c with
  | nil => rfl
  | cons r rest ih =>
    have hrest : (c.run (r :: rest)).failures = _ := ih (c.step r)
    rw [hrest, List.countP_cons, Refresh.succeeds]
    cases h : r.sample with
    | error failure =>
      rw [step_of_error h]
      show c.failures + 1 + _ = c.failures + (_ + 1)
      omega
    | ok sample =>
      rw [step_of_ok h]
      rfl

/-! ## Failures -/

/-- Two controllers that differ in the number of failures alone, if at all. -/
structure Alike (c c' : Controller) : Prop where
  strategy_eq : c.strategy = c'.strategy
  settings_eq : c.settings = c'.settings
  snapshot_eq : c.snapshot = c'.snapshot

variable {c' : Controller}

theorem Alike.refl (c : Controller) : c.Alike c :=
  ⟨rfl, rfl, rfl⟩

theorem Alike.step_error (h : c.Alike c') {failure : Failure} (hr : r.sample = .error failure) :
    (c.step r).Alike c' := by
  rw [step_of_error hr]
  exact ⟨h.strategy_eq, h.settings_eq, h.snapshot_eq⟩

theorem Alike.step_ok (h : c.Alike c') {sample : LoadSample} (hr : r.sample = .ok sample) :
    (c.step r).Alike (c'.step r) := by
  rw [step_of_ok hr, step_of_ok hr, h.strategy_eq, h.settings_eq, h.snapshot_eq]
  exact ⟨rfl, rfl, rfl⟩

theorem published_cons_of_ok {rest : List Refresh} {sample : LoadSample}
    (hr : r.sample = .ok sample) :
    c.published (r :: rest) = (c.step r).snapshot :: (c.step r).published rest := by
  rw [published, step_of_ok hr, hr]
  rfl

theorem published_cons_of_error {rest : List Refresh} {failure : Failure}
    (hr : r.sample = .error failure) :
    c.published (r :: rest) = (c.step r).published rest := by
  rw [published, hr]
  rfl

theorem Alike.run_filter (h : c.Alike c') (refreshes : List Refresh) :
    (c.run refreshes).Alike (c'.run (refreshes.filter Refresh.succeeds)) := by
  induction refreshes generalizing c c' with
  | nil => exact h
  | cons r rest ih =>
    rw [List.filter_cons, Refresh.succeeds]
    cases hr : r.sample with
    | error failure => exact ih (h.step_error hr)
    | ok sample => exact ih (h.step_ok hr)

theorem Alike.published_filter (h : c.Alike c') (refreshes : List Refresh) :
    c'.published (refreshes.filter Refresh.succeeds) = c.published refreshes := by
  induction refreshes generalizing c c' with
  | nil => rfl
  | cons r rest ih =>
    rw [List.filter_cons, Refresh.succeeds]
    cases hr : r.sample with
    | error failure =>
      rw [published_cons_of_error hr]
      exact ih (h.step_error hr)
    | ok sample =>
      have hstep := h.step_ok hr
      rw [published_cons_of_ok hr, hstep.snapshot_eq, ← ih hstep]
      exact published_cons_of_ok hr

/-! ## Any run -/

/-- After any run of a new controller the epoch has started with the last change of
the level, and whatever is sampled next moves the level as it has to. Falls keep an
epoch away from the changes before them, successes and failures are counted, and a
run without the failures publishes the same. -/
theorem hysteresis (name : String) (strategy : Strategy) (settings : ControllerSettings)
    (created : Instant) (refreshes : List Refresh) (horder : InOrder created refreshes) :
    let made := new name strategy settings created
    let c := made.run refreshes
    let since := made.lastChange created refreshes
    c.snapshot.epochStarted = since ∧
      (∀ sample now, created ≤ now → (∀ r ∈ refreshes, r.time ≤ now) →
        let next := (c.step ⟨.ok sample, now⟩).snapshot
        next.target = strategy.target sample ∧
          c.level.Governed settings since next.target now next.level) ∧
      ((made.changes refreshes).Pairwise fun earlier later : Change =>
        later.new < later.old → earlier.time + settings.epoch.nanos ≤ later.time) ∧
      c.snapshot.version = refreshes.countP Refresh.succeeds ∧
      (c.failures = refreshes.countP fun r => !r.succeeds) ∧
      made.published (refreshes.filter Refresh.succeeds) = made.published refreshes ∧
      (made.run (refreshes.filter Refresh.succeeds)).snapshot = c.snapshot := by
  intro made c since
  have hstarted : c.snapshot.epochStarted = since := epochStarted_run made refreshes
  refine ⟨hstarted, fun sample now hcreated hnow => ?_, @pairwise_changes made refreshes horder,
    ?_, ?_,
    (Alike.refl made).published_filter refreshes,
    ((Alike.refl made).run_filter refreshes).snapshot_eq.symm⟩
  · have hle : c.snapshot.epochStarted ≤ now :=
      @epochStarted_run_le made refreshes now hcreated hnow
    intro next
    have hstrategy : c.strategy = strategy := strategy_run made refreshes
    have hsettings : c.settings = settings := settings_run made refreshes
    have hgoverned : c.level.Governed c.settings c.snapshot.epochStarted next.target now
        next.level := Snapshot.governed_next _ _ _ hle
    rw [hstarted, hsettings] at hgoverned
    exact ⟨congrArg (Strategy.target · sample) hstrategy, hgoverned⟩
  · exact (version_run made refreshes).trans (Nat.zero_add _)
  · exact (failures_run made refreshes).trans (Nat.zero_add _)

/-- Asks for the level that the first count tells. -/
def exStrategy : Strategy where
  initial := ⟨10⟩
  target := fun sample => ⟨(sample.counts.headD 0).toUInt8⟩

def exAsks (level : UInt64) (seconds : Int) : Refresh :=
  ⟨.ok (.perMinute [level]), seconds * 1000000000⟩

/-- The level rises at 60 s. A fall by eight is asked for within the epoch, one by a
single level when the epoch has passed, and one by two after that. -/
def exRefreshes : List Refresh :=
  [exAsks 18 60, ⟨.error ⟨.loadSource, "down"⟩, 120000000000⟩, exAsks 10 700, exAsks 17 960,
    exAsks 16 961]

/-- Of the three falls asked for only the last one comes; from then on there is none
for another epoch. -/
theorem hysteresis_exRefreshes :
    let made := new "shop" exStrategy {} 0
    let c := made.run exRefreshes
    InOrder 0 exRefreshes ∧ made.changes exRefreshes = [⟨⟨10⟩, ⟨18⟩, 60000000000⟩,
        ⟨⟨18⟩, ⟨16⟩, 961000000000⟩] ∧
      c.snapshot.epochStarted = 961000000000 ∧ c.snapshot.version = 4 ∧ c.failures = 1 ∧
      ∀ sample now, 961000000000 ≤ now → now < 1861000000000 →
        ¬(c.step ⟨.ok sample, now⟩).level < c.level := by
  have horder : InOrder 0 exRefreshes := ⟨by decide, by decide⟩
  have hchanges : (new "shop" exStrategy {} 0).changes exRefreshes =
      [⟨⟨10⟩, ⟨18⟩, 60000000000⟩, ⟨⟨18⟩, ⟨16⟩, 961000000000⟩] := rfl
  have hsince : (new "shop" exStrategy {} 0).lastChange 0 exRefreshes = 961000000000 := rfl
  obtain ⟨hstarted, hnext, -, hversion, hfailures, -, -⟩ :=
    hysteresis "shop" exStrategy {} 0 exRefreshes horder
  refine ⟨horder, hchanges, hstarted.trans hsince, hversion, hfailures, ?_⟩
  intro sample now hle hlt hfall
  have hbefore : ∀ r ∈ exRefreshes, r.time ≤ now := by
    have hlast : ∀ r ∈ exRefreshes, r.time ≤ 961000000000 := by decide
    exact fun r hin => Int.le_trans (hlast r hin) hle
  obtain ⟨-, hgoverned⟩ := hnext sample now (by simp only [Instant] at *; omega) hbefore
  obtain ⟨-, -, hepoch⟩ := hgoverned.falls hfall
  rw [hsince] at hepoch
  have hnanos : (({} : ControllerSettings).epoch.nanos : Int) = 900000000000 := rfl
  rw [hnanos] at hepoch
  simp only [Instant] at *
  omega

end Controller

end Tollgate
