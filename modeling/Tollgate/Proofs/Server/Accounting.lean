import Tollgate.Proofs.Server.Admission
import Tollgate.Proofs.Server.Binding
import Tollgate.Proofs.Server.Posted
import Tollgate.Proofs.Verify.ClockEnd

/-!
# What the counts of a service add up to

Every request for a puzzle or a verdict takes one decision of the limiter, and
every submission that is admitted takes one verdict, also a body that is no
submission at all. There is one exception: where presentations are counted in
memory and a new counter would outlast the clock, the request breaks off after it
has been admitted, and no verdict is counted.

Results:
1. `judged_judge`: a body that is judged takes one verdict, or breaks off, or is given
   up.
2. `decisions_step`, `total_step`: what one event adds to the counts.
3. `counts_run`: what the counts are after any run, and what a request that is told
   to wait has left behind.
4. `exLasting_uncounted`: accepted settings, and a submission that is admitted and
   not counted.
-/

namespace Tollgate.Server

/-! ## Definitions -/

/-- The event is a request for something that takes admission. -/
def Event.demands : Event → Bool
  | .request r _ => r.demand?.isSome
  | _ => false

/-- The request and its body, if the event is one to verify a submission. -/
def Event.submitted? : Event → Option (Http.Request × Except Http.BodyFault VerifyRequest)
  | .request r _ =>
    match r.demand? with
    | some (.verdict body) => some (r, body)
    | _ => none
  | _ => none

/-- What a body presents, if only the counting of that is left to do. -/
def presented? (s : Server) (body : Except Http.BodyFault VerifyRequest) (now : Moment) :
    Option Presentation :=
  match body with
  | .error _ => none
  | .ok request =>
    match Submission.parse (Text.octets request.solution) with
    | .error _ => none
    | .ok submission =>
      (Verifier.examine s.key submission (s.sites.resource request.siteKey) now.wall).presentation?

/-- The counter of what is presented would outlast the clock. -/
def outlasts (s : Server) (body : Except Http.BodyFault VerifyRequest) (now : Moment) : Bool :=
  (s.presented? body now).any fun p => s.ledger.any (·.outlasts p now.clock)

/-- Presentations are counted in the shared store, and that takes longer to answer than a
verification may take. -/
def isLate (s : Server) : Bool :=
  s.ledger.isNone && s.settings.verifyTimeout.nanos < s.store.delay.nanos

/-- What is presented is not counted in time. -/
def overruns (s : Server) (body : Except Http.BodyFault VerifyRequest) (now : Moment) : Bool :=
  (s.presented? body now).isSome && s.isLate

/-- The event is an admitted request to verify a submission. -/
def takesOn (s : Server) (e : Event × Moment) : Bool :=
  e.1.submitted?.any fun submitted => s.admits submitted.1 e.2

/-- The event is such a request, and it breaks off. -/
def breaksOff (s : Server) (e : Event × Moment) : Bool :=
  e.1.submitted?.any fun submitted => s.admits submitted.1 e.2 && s.outlasts submitted.2 e.2

/-- The event is such a request, and its verification is given up. -/
def timesOut (s : Server) (e : Event × Moment) : Bool :=
  e.1.submitted?.any fun submitted => s.admits submitted.1 e.2 && s.overruns submitted.2 e.2

/-- How many events of a run find the service in a state that they hold of. -/
def countAlong (holds : Server → Event × Moment → Bool) (s : Server) :
    List (Event × Moment) → Nat
  | [] => 0
  | e :: rest => (if holds s e = true then 1 else 0) + countAlong holds (s.step e) rest

/-- What is found out about a body, and what is left of the verdicts. There is one more, unless a
new counter would outlast the clock or the count comes too late. -/
inductive Judged (s : Server) : (outlasts late : Bool) → Finding × Server → Prop
  | verdict {verdict : Verdict} {result : Finding × Server} :
      result.1 = .ok (.ok verdict) → result.2.verifier = s.verifier.finish verdict →
      Judged s false false result
  | brokenOff {result : Finding × Server} :
      result.1 = .error .clockOverflow → result.2.verifier = s.verifier →
      Judged s true false result
  | givenUp {result : Finding × Server} :
      result.1 = .ok (.error (Verifier.timeoutFailure s.settings.verifyTimeout)) →
      result.2.verifier = s.verifier → Judged s false true result

variable {s s' : Server} {settings : Settings} {r : Http.Request} {chance : Chance} {now : Moment}
  {body : Except Http.BodyFault VerifyRequest} {siteKey : String} {submission : Submission}
  {presented : Option Presentation}

/-! ## Verdicts -/

theorem delay_resource (r : SiteRegistry) (siteKey : String) :
    (r.resource siteKey).delay = .zero := by
  unfold SiteRegistry.resource
  split
  · rfl
  · rfl

/-- Counting in memory takes no time. -/
theorem verify_of_memory {ledger : ReplayLedger} (h : s.ledger = some ledger) (siteKey : String)
    (submission : Submission) (now : Moment) :
    s.verify siteKey submission now =
      ((s.verifier.verify (ReplayLedger.present now.clock) ledger submission
          (s.sites.resource siteKey) now.wall).1.map .ok,
        { s with
          verifier := (s.verifier.verify (ReplayLedger.present now.clock) ledger submission
            (s.sites.resource siteKey) now.wall).2.1
          ledger := some (s.verifier.verify (ReplayLedger.present now.clock) ledger submission
            (s.sites.resource siteKey) now.wall).2.2 }) := by
  unfold verify
  simp only [h]
  rw [Verifier.verifyWithin_of_inTime _ _ (delay_resource s.sites siteKey) fun _ => Nat.zero_le _]

theorem verify_of_shared (h : s.ledger = none)
    (htime : ((Verifier.examine s.key submission (s.sites.resource siteKey)
      now.wall).presentation?.isSome && s.isLate) = false) :
    s.verify siteKey submission now =
      ((s.verifier.verify (Store.present now.clock) s.store submission
          (s.sites.resource siteKey) now.wall).1.map .ok,
        { s with
          verifier := (s.verifier.verify (Store.present now.clock) s.store submission
            (s.sites.resource siteKey) now.wall).2.1
          store := (s.verifier.verify (Store.present now.clock) s.store submission
            (s.sites.resource siteKey) now.wall).2.2 }) := by
  have hinTime : (Verifier.examine s.verifier.key submission (s.sites.resource siteKey)
      now.wall).presentation?.isSome → s.store.delay.nanos ≤ s.settings.verifyTimeout.nanos := by
    intro hpending
    rw [key, hpending, Bool.true_and, isLate, h, Option.isNone_none, Bool.true_and] at htime
    exact Nat.not_lt.mp (of_decide_eq_false htime)
  unfold verify
  simp only [h]
  rw [Verifier.verifyWithin_of_inTime _ _ (delay_resource s.sites siteKey) hinTime]

/-- Nobody waits for a count that comes too late. -/
theorem verify_of_late
    (hlate : ((Verifier.examine s.key submission (s.sites.resource siteKey)
      now.wall).presentation?.isSome && s.isLate) = true) :
    s.verify siteKey submission now =
      (.ok (.error (Verifier.timeoutFailure s.settings.verifyTimeout)),
        { s with
          store := (s.verifier.verify (Store.present now.clock) s.store submission
            (s.sites.resource siteKey) now.wall).2.2 }) := by
  rw [Bool.and_eq_true, isLate, Bool.and_eq_true, Option.isNone_iff_eq_none,
    decide_eq_true_iff] at hlate
  obtain ⟨hpending, hnone, hover⟩ := hlate
  unfold verify
  simp only [hnone]
  rw [Verifier.verifyWithin_eq _ _ (delay_resource s.sites siteKey), if_pos ⟨hpending, hover⟩]

/-- Whatever is found, a verification changes no more than counts. -/
theorem exists_verify (s : Server) (siteKey : String) (submission : Submission) (now : Moment) :
    ∃ finding verifier ledger store,
      s.verify siteKey submission now = (finding, { s with verifier, ledger, store }) ∧
        ledger.isSome = s.ledger.isSome := by
  unfold verify
  dsimp only
  split
  · next hledger =>
    -- By reduction alone, the verification would be run to compare what it leaves.
    have hmemory : s.ledger.isSome = true := Option.isSome_of_eq_some hledger
    exact ⟨_, _, _, _, rfl, Option.isSome_some.trans hmemory.symm⟩
  · exact ⟨_, _, _, _, rfl, rfl⟩

theorem verify_keeps (s : Server) (siteKey : String) (submission : Submission) (now : Moment) :
    (s.verify siteKey submission now).2.limiter = s.limiter ∧
      (s.verify siteKey submission now).2.ledger.isSome = s.ledger.isSome := by
  obtain ⟨finding, verifier, ledger, store, hverify, hledger⟩ :=
    exists_verify s siteKey submission now
  rw [hverify]
  exact ⟨rfl, hledger⟩

theorem judge_keeps (s : Server) (body : Except Http.BodyFault VerifyRequest) (now : Moment) :
    (s.judge body now).2.limiter = s.limiter ∧
      (s.judge body now).2.ledger.isSome = s.ledger.isSome := by
  unfold judge
  split
  · exact ⟨rfl, rfl⟩
  · split
    · exact ⟨rfl, rfl⟩
    · exact verify_keeps s _ _ now

/-- What is no submission takes a verdict as well. -/
theorem judge_of_unreadable (s : Server) (now : Moment)
    (h : ∀ request submission, body = .ok request →
      Submission.parse (Text.octets request.solution) ≠ .ok submission) :
    ∃ reason, s.judge body now = (.ok (.ok ⟨.malformed, reason⟩),
      { s with verifier := s.verifier.finish ⟨.malformed, reason⟩ }) := by
  unfold judge
  cases body with
  | error fault => exact ⟨_, rfl⟩
  | ok request =>
    cases hparse : Submission.parse (Text.octets request.solution) with
    | error fault =>
      dsimp only
      rw [hparse]
      exact ⟨_, rfl⟩
    | ok submission => exact absurd hparse (h request submission rfl)

/-- Counting in memory only breaks off where a counter would outlast the clock. -/
theorem judged_of_memory {ledger : ReplayLedger} (h : s.ledger = some ledger)
    (hpresented : (Verifier.examine s.key submission (s.sites.resource siteKey)
      now.wall).presentation? = presented) :
    Judged s (presented.any (ledger.outlasts · now.clock)) false
      (s.verify siteKey submission now) := by
  rw [verify_of_memory h]
  rcases Verifier.verify_cases s.verifier (ReplayLedger.present now.clock) ledger submission
      (s.sites.resource siteKey) now.wall with
    ⟨verdict, hverdict, hfinish, hnever⟩ | ⟨p, crash, hexamine, hcrash, hbroken, hsame⟩
  · have hfits : presented.any (ledger.outlasts · now.clock) = false := by
      cases presented with
      | none => rfl
      | some p =>
        have hexamine := Examination.presentation?_eq_some_iff.mp hpresented
        have hnot := mt ReplayLedger.present_eq_error_iff.mpr (hnever p hexamine .clockOverflow)
        exact Bool.eq_false_iff.mpr fun houtlasts => hnot ⟨houtlasts, rfl⟩
    rw [hfits]
    refine .verdict ?_ hfinish
    rw [hverdict]
    rfl
  · obtain ⟨houtlasts, rfl⟩ := ReplayLedger.present_eq_error_iff.mp hcrash
    obtain rfl := hpresented.symm.trans (Examination.presentation?_eq_some_iff.mpr hexamine)
    rw [Option.any_some, houtlasts]
    refine .brokenOff ?_ hsame
    rw [hbroken]
    rfl

/-- Counting in the shared store may be too late, but never breaks off. -/
theorem judged_of_shared (h : s.ledger = none)
    (hpresented : (Verifier.examine s.key submission (s.sites.resource siteKey)
      now.wall).presentation? = presented) :
    Judged s false (presented.isSome && s.isLate) (s.verify siteKey submission now) := by
  cases hlate : presented.isSome && s.isLate with
  | false =>
    rw [verify_of_shared h (hpresented ▸ hlate)]
    rcases Verifier.verify_cases s.verifier (Store.present now.clock) s.store submission
        (s.sites.resource siteKey) now.wall with
      ⟨verdict, hverdict, hfinish, -⟩ | ⟨p, crash, -, hcrash, -⟩
    · refine .verdict ?_ hfinish
      rw [hverdict]
      rfl
    · exact absurd hcrash (Store.present_ne_error _ _ _ _)
  | true =>
    rw [verify_of_late (hpresented ▸ hlate)]
    exact .givenUp rfl rfl

theorem judged_verify (hpresented : (Verifier.examine s.key submission (s.sites.resource siteKey)
      now.wall).presentation? = presented) :
    Judged s (presented.any fun p => s.ledger.any (·.outlasts p now.clock))
      (presented.isSome && s.isLate) (s.verify siteKey submission now) := by
  cases hledger : s.ledger with
  | some ledger =>
    have hinTime : s.isLate = false := by
      rw [isLate, hledger]
      rfl
    rw [hinTime, Bool.and_false]
    exact judged_of_memory hledger hpresented
  | none =>
    have hfits : presented.any (fun p => (none : Option ReplayLedger).any
        (·.outlasts p now.clock)) = false := by
      cases presented <;> rfl
    rw [hfits]
    exact judged_of_shared hledger hpresented

/-- A body that is no submission takes a verdict as well. -/
theorem judged_judge (s : Server) (body : Except Http.BodyFault VerifyRequest) (now : Moment) :
    Judged s (s.outlasts body now) (s.overruns body now) (s.judge body now) := by
  unfold judge outlasts overruns presented?
  cases body with
  | error fault => exact .verdict rfl rfl
  | ok request =>
    dsimp only
    cases Submission.parse (Text.octets request.solution) with
    | error fault => exact .verdict rfl rfl
    | ok submission => exact judged_verify rfl

theorem total_judge (s : Server) (body : Except Http.BodyFault VerifyRequest) (now : Moment) :
    (s.judge body now).2.verifier.tally.total + (if s.outlasts body now = true then 1 else 0) +
        (if s.overruns body now = true then 1 else 0) =
      s.verifier.tally.total + 1 := by
  have hjudged := judged_judge s body now
  generalize s.outlasts body now = outlasts, s.overruns body now = late,
    s.judge body now = result at hjudged ⊢
  cases hjudged with
  | verdict _ hfinish =>
    rw [hfinish]
    exact Tally.total_record _ _
  | brokenOff _ hsame =>
    rw [hsame]
    rfl
  | givenUp _ hsame =>
    rw [hsame]
    rfl

theorem outlasts_of_examine {request : VerifyRequest} {submission : Submission}
    {p : Presentation} (now : Moment)
    (hparse : Submission.parse (Text.octets request.solution) = .ok submission)
    (hexamine : Verifier.examine s.key submission (s.sites.resource request.siteKey) now.wall =
      .pending p) :
    s.outlasts (.ok request) now = s.ledger.any (·.outlasts p now.clock) := by
  have hpresented : s.presented? (.ok request) now = some p := by
    unfold presented?
    dsimp only
    rw [hparse]
    exact Examination.presentation?_eq_some_iff.mpr hexamine
  rw [outlasts, hpresented, Option.any_some]

/-! ## One event -/

theorem decisions_handle (s : Server) (r : Http.Request) (chance : Chance) (now : Moment) :
    (s.handle r chance now).2.limiter.decisions =
      s.limiter.decisions + if r.demand?.isSome = true then 1 else 0 := by
  rcases handle_cases s r chance now with ⟨hdemand, haside⟩ | ⟨query, hdemand, -, -, hstate⟩ |
    ⟨body, hdemand, -, -, hstate⟩ | ⟨d, hdemand, -, hstate, -⟩
  · rw [haside.decisions_eq, hdemand]
    rfl
  · rw [hstate, hdemand, Option.isSome_some, if_pos rfl]
    dsimp only
    rw [decisions_afterAdmission]
  · rw [hstate, (judge_keeps _ body now).1, hdemand, Option.isSome_some, if_pos rfl,
      decisions_afterAdmission]
  · rw [hstate, hdemand, Option.isSome_some, if_pos rfl, decisions_afterAdmission]

theorem verifier_afterAdmission (s : Server) (r : Http.Request) (now : Moment) :
    (s.afterAdmission r now).verifier = s.verifier := by
  rw [afterAdmission_eq]

theorem ledger_afterAdmission (s : Server) (r : Http.Request) (now : Moment) :
    (s.afterAdmission r now).ledger = s.ledger := by
  rw [afterAdmission_eq]

theorem presented?_congr (hkey : s'.key = s.key) (hsites : s'.sites = s.sites)
    (body : Except Http.BodyFault VerifyRequest) (now : Moment) :
    s'.presented? body now = s.presented? body now := by
  unfold presented?
  rw [hkey, hsites]

theorem presented?_afterAdmission (s : Server) (r : Http.Request)
    (body : Except Http.BodyFault VerifyRequest) (now : Moment) :
    (s.afterAdmission r now).presented? body now = s.presented? body now := by
  refine presented?_congr (congrArg Verifier.key (verifier_afterAdmission s r now)) ?_ body now
  rw [afterAdmission_eq]

theorem outlasts_afterAdmission (s : Server) (r : Http.Request)
    (body : Except Http.BodyFault VerifyRequest) (now : Moment) :
    (s.afterAdmission r now).outlasts body now = s.outlasts body now := by
  rw [outlasts, presented?_afterAdmission, ledger_afterAdmission, outlasts]

theorem overruns_afterAdmission (s : Server) (r : Http.Request)
    (body : Except Http.BodyFault VerifyRequest) (now : Moment) :
    (s.afterAdmission r now).overruns body now = s.overruns body now := by
  rw [overruns, presented?_afterAdmission, overruns, isLate, afterAdmission_eq, isLate]

theorem total_handle (s : Server) (r : Http.Request) (chance : Chance) (now : Moment) :
    (s.handle r chance now).2.verifier.tally.total +
        (if s.breaksOff (.request r chance, now) = true then 1 else 0) +
        (if s.timesOut (.request r chance, now) = true then 1 else 0) =
      s.verifier.tally.total + if s.takesOn (.request r chance, now) = true then 1 else 0 := by
  unfold breaksOff timesOut takesOn Event.submitted?
  rcases handle_cases s r chance now with ⟨hdemand, haside⟩ | ⟨query, hdemand, -, -, hstate⟩ |
    ⟨body, hdemand, hadmitted, -, hstate⟩ | ⟨d, hdemand, hdenied, hstate, -⟩
  · rw [haside.verifier_eq]
    simp only [hdemand, Option.any_none]
    rfl
  · rw [hstate]
    dsimp only
    rw [verifier_afterAdmission]
    simp only [hdemand, Option.any_none]
    rfl
  · have hjudge := total_judge (s.afterAdmission r now) body now
    rw [outlasts_afterAdmission, overruns_afterAdmission, verifier_afterAdmission] at hjudge
    simp only [hdemand, Option.any_some, hadmitted, Bool.true_and, if_true]
    rw [hstate]
    exact hjudge
  · rw [hstate, verifier_afterAdmission]
    cases d with
    | puzzle query =>
      simp only [hdemand, Option.any_none]
      rfl
    | verdict body =>
      simp only [hdemand, Option.any_some, hdenied, Bool.false_and]
      rfl

theorem isSome_ledger_handle (s : Server) (r : Http.Request) (chance : Chance) (now : Moment) :
    (s.handle r chance now).2.ledger.isSome = s.ledger.isSome := by
  rcases handle_cases s r chance now with ⟨-, haside⟩ | ⟨query, -, -, -, hstate⟩ |
    ⟨body, -, -, -, hstate⟩ | ⟨d, -, -, hstate, -⟩
  · rw [haside.ledger_eq]
  · rw [hstate]
    dsimp only
    rw [ledger_afterAdmission]
  · rw [hstate, (judge_keeps _ body now).2, ledger_afterAdmission]
  · rw [hstate, ledger_afterAdmission]

theorem decisions_step (s : Server) (e : Event × Moment) :
    (s.step e).limiter.decisions =
      s.limiter.decisions + if e.1.demands = true then 1 else 0 := by
  obtain ⟨event, now⟩ := e
  cases event with
  | request r chance => exact decisions_handle s r chance now
  | refresh siteKey sample =>
    simp only [step]
    split
    · rfl
    · rfl
  | sweep => exact Rate.Limiter.decisions_purgeIdle s.limiter now.clock
  | share store => rfl

/-- An event that submits nothing takes no verdict. -/
theorem total_of_none {e : Event × Moment} (h : e.1.submitted? = none)
    (hsame : s'.verifier = s.verifier) :
    s'.verifier.tally.total + (if s.breaksOff e = true then 1 else 0) +
        (if s.timesOut e = true then 1 else 0) =
      s.verifier.tally.total + if s.takesOn e = true then 1 else 0 := by
  rw [hsame, breaksOff, timesOut, takesOn, h, Option.any_none, Option.any_none, Option.any_none]
  rfl

theorem total_step (s : Server) (e : Event × Moment) :
    (s.step e).verifier.tally.total + (if s.breaksOff e = true then 1 else 0) +
        (if s.timesOut e = true then 1 else 0) =
      s.verifier.tally.total + if s.takesOn e = true then 1 else 0 := by
  obtain ⟨event, now⟩ := e
  cases event with
  | request r chance => exact total_handle s r chance now
  | refresh siteKey sample =>
    refine total_of_none rfl ?_
    simp only [step]
    split
    · rfl
    · rfl
  | sweep => exact total_of_none rfl rfl
  | share store => exact total_of_none rfl rfl

theorem isSome_ledger_step (s : Server) (e : Event × Moment) :
    (s.step e).ledger.isSome = s.ledger.isSome := by
  obtain ⟨event, now⟩ := e
  cases event with
  | request r chance => exact isSome_ledger_handle s r chance now
  | refresh siteKey sample =>
    simp only [step]
    split
    · rfl
    · rfl
  | sweep => exact Option.isSome_map
  | share store => rfl

theorem breaksOff_of_shared (h : s.ledger.isSome = false) (e : Event × Moment) :
    s.breaksOff e = false := by
  have hnone : s.ledger = none := Option.isNone_iff_eq_none.mp (Option.isSome_eq_false_iff.mp h)
  have hfits : ∀ body now, s.outlasts body now = false := by
    intro body now
    rw [outlasts, hnone]
    cases s.presented? body now <;> rfl
  unfold breaksOff
  cases e.1.submitted? with
  | none => rfl
  | some submitted => rw [Option.any_some, hfits, Bool.and_false]

theorem timesOut_of_memory (h : s.ledger.isSome = true) (e : Event × Moment) :
    s.timesOut e = false := by
  have hinTime : s.isLate = false := by
    rw [isLate, Option.isNone_eq_false_iff.mpr h, Bool.false_and]
  unfold timesOut
  cases e.1.submitted? with
  | none => rfl
  | some submitted => rw [Option.any_some, overruns, hinTime, Bool.and_false, Bool.and_false]

/-! ## Runs -/

theorem decisions_run (s : Server) (events : List (Event × Moment)) :
    (s.run events).limiter.decisions =
      s.limiter.decisions + events.countP (·.1.demands) := by
  induction events generalizing s with
  | nil => rfl
  | cons e rest ih =>
    have hrest := ih (s.step e)
    have hfirst := decisions_step s e
    rw [List.countP_cons]
    show ((s.step e).run rest).limiter.decisions = _
    omega

theorem total_run (s : Server) (events : List (Event × Moment)) :
    (s.run events).verifier.tally.total + countAlong breaksOff s events +
        countAlong timesOut s events =
      s.verifier.tally.total + countAlong takesOn s events := by
  induction events generalizing s with
  | nil =>
    rw [countAlong, countAlong, countAlong]
    rfl
  | cons e rest ih =>
    have hrest := ih (s.step e)
    have hfirst := total_step s e
    rw [countAlong, countAlong, countAlong]
    show ((s.step e).run rest).verifier.tally.total + _ + _ = _
    omega

/-- Where presentations are counted never changes. -/
theorem countAlong_eq_zero {holds : Server → Event × Moment → Bool} {inMemory : Bool}
    (hnever : ∀ s : Server, s.ledger.isSome = inMemory → ∀ e, holds s e = false)
    (h : s.ledger.isSome = inMemory) (events : List (Event × Moment)) :
    countAlong holds s events = 0 := by
  induction events generalizing s with
  | nil => rfl
  | cons e rest ih =>
    rw [countAlong, hnever s h e, ih ((isSome_ledger_step s e).trans h)]
    rfl

theorem start_counts {fresh : PuzzleKey} {place : String → Nat} {store : Store}
    {started : Instant} (hstart : start settings fresh place store started = .ok (.ok s)) :
    s.limiter.decisions = 0 ∧ s.verifier.tally.total = 0 ∧
      s.ledger.isSome = decide (settings.replayBackend = .memory) := by
  obtain ⟨key, rates, networks, rfl⟩ := exists_start hstart
  refine ⟨Rate.Limiter.decisions_new _ _, rfl, ?_⟩
  dsimp only
  split
  · next hmemory => exact (decide_eq_true hmemory).symm
  · next hshared => exact (decide_eq_false hshared).symm

theorem tally_of_unreadable (hdemand : r.demand? = some (.verdict body))
    (hadmitted : s.admits r now = true)
    (hunreadable : ∀ request submission, body = .ok request →
      Submission.parse (Text.octets request.solution) ≠ .ok submission) :
    (s.handle r chance now).2.verifier.tally = s.verifier.tally.record .malformed := by
  rcases handle_cases s r chance now with ⟨hother, -⟩ | ⟨query, hother, -⟩ |
    ⟨body', hsame, -, -, hstate⟩ | ⟨d, -, hdenied, -⟩
  · rw [hdemand] at hother
    cases hother
  · rw [hdemand] at hother
    cases hother
  · obtain rfl := Demand.verdict.inj (Option.some.inj (hdemand.symm.trans hsame))
    obtain ⟨reason, hjudge⟩ := judge_of_unreadable (s.afterAdmission r now) now hunreadable
    rw [hstate, hjudge]
    dsimp only
    rw [verifier_afterAdmission]
    rfl
  · rw [hadmitted] at hdenied
    cases hdenied

/-- From the start on, every request for a puzzle or a verdict has taken one decision,
and every admitted submission one verdict unless it broke off, which it never does
where presentations are counted in the shared store, or was given up, which it never is
where they are counted in memory. What is no submission counts as malformed, and a request
that is answered with 429 has changed the limiter alone. -/
theorem counts_run {fresh : PuzzleKey} {place : String → Nat} {store : Store}
    {started : Instant} (hstart : start settings fresh place store started = .ok (.ok s))
    (events : List (Event × Moment)) :
    (s.run events).limiter.counts.allowed + (s.run events).limiter.counts.denied =
      events.countP (·.1.demands) ∧
    (s.run events).verifier.tally.total + countAlong breaksOff s events +
        countAlong timesOut s events = countAlong takesOn s events ∧
    (settings.replayBackend ≠ .memory → countAlong breaksOff s events = 0) ∧
    (settings.replayBackend = .memory → countAlong timesOut s events = 0) ∧
    (∀ r body chance now, r.demand? = some (.verdict body) → (s.run events).admits r now = true →
      (∀ request submission, body = .ok request →
        Submission.parse (Text.octets request.solution) ≠ .ok submission) →
      ((s.run events).handle r chance now).2.verifier.tally =
        (s.run events).verifier.tally.record .malformed) ∧
    ∀ r chance now response, ((s.run events).handle r chance now).1 = .ok response →
      response.status = 429 →
        ((s.run events).handle r chance now).2 = { s.run events with
          limiter := ((s.run events).handle r chance now).2.limiter } ∧
        ∀ token, response.body ≠ .text token := by
  obtain ⟨hnodecision, hnoverdict, hbackend⟩ := start_counts hstart
  have hdecisions := decisions_run s events
  have htotal := total_run s events
  rw [hnodecision, Nat.zero_add] at hdecisions
  rw [hnoverdict, Nat.zero_add] at htotal
  refine ⟨hdecisions, htotal, fun hshared => ?_, fun hmemory => ?_, ?_, ?_⟩
  · exact countAlong_eq_zero (fun _ => breaksOff_of_shared)
      (hbackend.trans (decide_eq_false hshared)) events
  · exact countAlong_eq_zero (fun _ => timesOut_of_memory)
      (hbackend.trans (decide_eq_true hmemory)) events
  · intro r body chance now hdemand hadmitted hunreadable
    exact tally_of_unreadable hdemand hadmitted hunreadable
  · intro r chance now response hresponse hstatus
    exact (handle_tooMany hresponse hstatus).2.2

/-- A body that does not say that it is JSON, from one of several addresses. -/
def exForm (address : BitVec 32) : Http.Request :=
  ⟨.post, "/verify", [], .v4 address, "sitekey=a&solution=b"⟩

def exGet (target : String) : Http.Request :=
  ⟨.get, target, [], .v4 0x05060708, ""⟩

/-- One more form than its sender has tokens for; then a site that is not there, no
site at all, and a page that takes no admission. -/
def exVisits : List (Event × Moment) :=
  List.replicate 11 (.request (exForm 0x01020304) Verifier.exChance, ⟨0, .ofSeconds 1000⟩) ++
    [(.request (exGet "/puzzle?sitekey=b") Verifier.exChance, ⟨5, .ofSeconds 1000⟩),
      (.share ⟨[], true, .zero⟩, ⟨6, .ofSeconds 1000⟩),
      (.request (exGet "/puzzle") Verifier.exChance, ⟨7, .ofSeconds 1000⟩),
      (.request (exGet "/metrics") Verifier.exChance, ⟨8, .ofSeconds 1000⟩)]

def exCounted : Server :=
  (exServer exApart Verifier.exVerifier.key).run exVisits

theorem demand?_exForm (address : BitVec 32) :
    (exForm address).demand? = some (.verdict (.error .otherType)) := by
  have hsame : Route.ofRequest? (exForm address) = Route.ofRequest? (exForm 0) :=
    Route.ofRequest?_congr rfl
  have hroute : Route.ofRequest? (exForm address) = some .verify := hsame.trans (by decide)
  unfold Http.Request.demand?
  rw [hroute]
  rfl

/-- Ten of the eleven forms are admitted and counted as malformed, and so is one of
another sender, while the first one has to wait. -/
theorem counts_exVisits :
    start (exSettings exApart) Verifier.exVerifier.key (fun _ => 0) .empty 0 =
      .ok (.ok (exServer exApart Verifier.exVerifier.key)) ∧
    exCounted.limiter.counts.allowed + exCounted.limiter.counts.denied = 12 ∧
    exCounted.verifier.tally.total = 10 ∧
    (exCounted.handle (exForm 0x0a0b0c0d) Verifier.exChance
      ⟨9, .ofSeconds 1000⟩).2.verifier.tally = exCounted.verifier.tally.record .malformed ∧
    ∃ response limiter, exCounted.handle (exForm 0x01020304) Verifier.exChance
        ⟨9, .ofSeconds 1000⟩ = (.ok response, { exCounted with limiter }) ∧
      response.status = 429 := by
  obtain ⟨hdecisions, htotal, -, htimesOut, hmalformed, hdenied⟩ :=
    counts_run (start_exSettings exApart Verifier.exVerifier.key) exVisits
  have hdemands : exVisits.countP (·.1.demands) = 12 := by decide +kernel
  have htakesOn : countAlong takesOn (exServer exApart Verifier.exVerifier.key) exVisits = 10 := by
    decide +kernel
  have hbreaksOff : countAlong breaksOff (exServer exApart Verifier.exVerifier.key) exVisits =
      0 := by
    decide +kernel
  have hadmitted : exCounted.admits (exForm 0x0a0b0c0d) ⟨9, .ofSeconds 1000⟩ = true := by
    decide +kernel
  have hstatus : (exCounted.handle (exForm 0x01020304) Verifier.exChance
      ⟨9, .ofSeconds 1000⟩).1.toOption.map (·.status) = some 429 := by
    decide +kernel
  obtain ⟨response, hresponse, htooMany⟩ := Option.map_eq_some_iff.mp hstatus
  have hanswer := toOption_eq_some_iff.mp hresponse
  obtain ⟨hstate, -⟩ := hdenied _ _ _ response hanswer htooMany
  rw [hbreaksOff, htimesOut rfl, htakesOn] at htotal
  exact ⟨start_exSettings exApart Verifier.exVerifier.key, hdecisions.trans hdemands, htotal,
    hmalformed _ _ _ _ (demand?_exForm _) hadmitted nofun, response, _,
    Prod.ext hanswer hstate, htooMany⟩

/-! ## A submission that is not counted

A puzzle is asked for at the second 1000 and its solution posted a second later. The
puzzle then has more than `2 ^ 63` seconds left, and a counter would have to live as
long as that. -/

/-- The site, as it is at the start. -/
def exLastingSite : Site :=
  .ofSettings Verifier.exEndless (exSettings []).difficulty.baseline
    (exSettings []).difficulty.controller 0

/-- The puzzle that it issues at the second 1000 to a sender. -/
def exLastingPuzzle : Puzzle :=
  ⟨7, .replicate 16 0xab, .lowest, 1, 1000, 0x80000000000003e7,
    Issue.mixSalt (.replicate 16 1) (Text.octets "ip:5.6.7.8")⟩

def exLastingToken : String :=
  Token.encode exLastingPuzzle Verifier.exVerifier.key

def exLastingServer : Server :=
  exServer [Verifier.exEndless] Verifier.exVerifier.key

def exAsking : Event × Moment :=
  (.request (exGet "/puzzle?sitekey=a") Verifier.exChance, ⟨0, .ofSeconds 1000⟩)

def exSolution : VerifyRequest :=
  ⟨"a", Submission.encode exLastingToken [0]⟩

/-- The solution of the puzzle is posted, a second later. -/
def exPosting : Event × Moment :=
  (.request (exSolution.post (.v4 0x05060708)) Verifier.exChance, ⟨1000000000, .ofSeconds 1001⟩)

def exLastingAnswer : Submission :=
  ⟨exLastingPuzzle, Token.encodeBody exLastingPuzzle,
    Verifier.exVerifier.key.sign (Token.encodeBody exLastingPuzzle).toList, [0]⟩

theorem decode_exLastingToken :
    Token.decode exLastingToken = .ok ⟨exLastingPuzzle, exLastingAnswer.body, exLastingAnswer.tag⟩ :=
  Token.decode_encode _ ⟨by decide, by decide, by decide⟩

theorem parse_exLastingAnswer :
    Submission.parse (Text.octets exSolution.solution) = .ok exLastingAnswer :=
  Submission.parse_encode decode_exLastingToken rfl

theorem examine_exLastingAnswer : Verifier.examine Verifier.exVerifier.key exLastingAnswer
    (exLastingServer.sites.resource "a") (.ofSeconds 1001) =
      .pending ⟨exLastingPuzzle.replayKey, 1, .ofSeconds 0x8000000000000003⟩ :=
  Verifier.examine_eq_pending_iff.mpr ⟨beq_self_eq_true _, by decide, rfl,
    isSolvedBy_of_forall rfl fun _ _ => Nat.zero_le _, by decide⟩

theorem demand?_exAsking :
    (exGet "/puzzle?sitekey=a").demand? = some (.puzzle ⟨"a", none⟩) := by
  have hroute : Route.ofRequest? (exGet "/puzzle?sitekey=a") = some .puzzle := by decide
  have hquery : PuzzleQuery.ofQuery? (exGet "/puzzle?sitekey=a").query = some ⟨"a", none⟩ := by
    decide +kernel
  unfold Http.Request.demand?
  rw [hroute]
  show (PuzzleQuery.ofQuery? (exGet "/puzzle?sitekey=a").query).map Demand.puzzle = _
  rw [hquery]
  rfl

theorem demand?_exPosting :
    (exSolution.post (.v4 0x05060708)).demand? = some (.verdict (.ok exSolution)) := by
  have hsite : Json.Read.Plain exSolution.siteKey.toList := by decide
  have hshort : exSolution.siteKey.utf8ByteSize ≤ 2000000 := Nat.le_of_ble_eq_true rfl
  exact VerifyRequest.demand?_post hsite (Submission.plain_encode decode_exLastingToken [0])
    (Submission.size_posted_le decode_exLastingToken rfl hshort) _

def exHanded : Server :=
  exLastingServer.step exAsking

theorem exHanded_eq : exHanded =
    { exLastingServer.afterAdmission (exGet "/puzzle?sitekey=a") ⟨0, .ofSeconds 1000⟩ with
      store := exHanded.store } := by
  have hadmitted : exLastingServer.admits (exGet "/puzzle?sitekey=a") ⟨0, .ofSeconds 1000⟩ =
      true := by
    decide +kernel
  rcases handle_cases exLastingServer (exGet "/puzzle?sitekey=a") Verifier.exChance
    ⟨0, .ofSeconds 1000⟩ with ⟨hother, -⟩ | ⟨query, -, -, -, hstate⟩ | ⟨body, hother, -⟩ |
    ⟨d, -, hdenied, -⟩
  · cases demand?_exAsking.symm.trans hother
  · exact hstate
  · cases demand?_exAsking.symm.trans hother
  · rw [hadmitted] at hdenied
    cases hdenied

theorem admits_exPosting :
    exHanded.admits (exSolution.post (.v4 0x05060708)) ⟨1000000000, .ofSeconds 1001⟩ = true := by
  rw [exHanded_eq]
  decide +kernel

theorem outlasts_exLastingPuzzle : (ReplayLedger.new ledgerCapacity).outlasts
    ⟨exLastingPuzzle.replayKey, 1, .ofSeconds 0x8000000000000003⟩ 1000000000 = true := by
  decide +kernel

/-- The counter of the submission would outlast the clock. -/
theorem outlasts_exPosting :
    exHanded.outlasts (.ok exSolution) ⟨1000000000, .ofSeconds 1001⟩ = true := by
  have hkey : exHanded.key = Verifier.exVerifier.key := by
    rw [exHanded_eq, afterAdmission_eq]
    rfl
  have hsites : exHanded.sites = exLastingServer.sites := by
    rw [exHanded_eq, afterAdmission_eq]
  have hledger : exHanded.ledger = some (.new ledgerCapacity) := by
    rw [exHanded_eq, afterAdmission_eq]
    rfl
  have hexamine : Verifier.examine exHanded.key exLastingAnswer
      (exHanded.sites.resource exSolution.siteKey) (.ofSeconds 1001) =
        .pending ⟨exLastingPuzzle.replayKey, 1, .ofSeconds 0x8000000000000003⟩ := by
    rw [hkey, hsites]
    exact examine_exLastingAnswer
  rw [outlasts_of_examine ⟨1000000000, .ofSeconds 1001⟩ parse_exLastingAnswer hexamine, hledger]
  exact outlasts_exLastingPuzzle

theorem countAlong_pair {holds : Server → Event × Moment → Bool} {s : Server}
    {e e' : Event × Moment} (h : holds s e = false) (h' : holds (s.step e) e' = true) :
    countAlong holds s [e, e'] = 1 := by
  simp only [countAlong, h, h']
  rfl

theorem submitted?_exPosting :
    exPosting.1.submitted? = some (exSolution.post (.v4 0x05060708), .ok exSolution) := by
  simp only [exPosting, Event.submitted?, demand?_exPosting]

theorem submitted?_exAsking : exAsking.1.submitted? = none := by
  simp only [exAsking, Event.submitted?, demand?_exAsking]

theorem handle_exAsking :
    (exLastingServer.handle (exGet "/puzzle?sitekey=a") Verifier.exChance
      ⟨0, .ofSeconds 1000⟩).1 =
        .ok (tokenResponse exLastingPuzzle exLastingToken).forEveryOrigin := by
  have hroute : Route.ofRequest? (exGet "/puzzle?sitekey=a") = some .puzzle := by decide
  have hquery : PuzzleQuery.ofQuery? (exGet "/puzzle?sitekey=a").query = some ⟨"a", none⟩ := by
    decide +kernel
  have hadmitted : (exLastingServer.admitCaller
      (exLastingServer.callerOf (exGet "/puzzle?sitekey=a")) 0).1 = .ok () := by
    decide +kernel
  have hsender : (exLastingServer.callerOf (exGet "/puzzle?sitekey=a")).limiterKey =
      "ip:5.6.7.8" := by
    decide +kernel
  have hsite : exLastingServer.sites.get? "a" = some exLastingSite := rfl
  have hkey : tokenResponse exLastingPuzzle (Token.encode exLastingPuzzle exLastingServer.key) =
      tokenResponse exLastingPuzzle exLastingToken := rfl
  have hbuild : Issue.build (exLastingSite.params none) Verifier.exChance
      (Text.octets "ip:5.6.7.8") (.ofSeconds 1000) = .ok exLastingPuzzle := rfl
  have hhanded : (exLastingServer.handOut ⟨"a", none⟩
        (exLastingServer.callerOf (exGet "/puzzle?sitekey=a")) Verifier.exChance
        ⟨0, .ofSeconds 1000⟩).1 = .ok (tokenResponse exLastingPuzzle exLastingToken) ∧
      (tokenResponse exLastingPuzzle exLastingToken).status = 200 := by
    refine handOut_eq_ok_iff.mpr ⟨hadmitted, exLastingSite, exLastingPuzzle, hsite, ?_, hkey⟩
    rw [hsender]
    exact hbuild
  exact ((handle_puzzle_eq_ok_iff rfl hroute).mpr ⟨_, _, hquery, hhanded, rfl⟩).1

/-- A site may let its puzzles be valid for so long that the counter of a solution would
outlast the clock. The request is admitted, and breaks off before it is counted. -/
theorem exLasting_uncounted :
    (exSettings [Verifier.exEndless]).validate = .ok () ∧
    start (exSettings [Verifier.exEndless]) Verifier.exVerifier.key (fun _ => 0) .empty 0 =
      .ok (.ok exLastingServer) ∧
    (exLastingServer.handle (exGet "/puzzle?sitekey=a") Verifier.exChance
      ⟨0, .ofSeconds 1000⟩).1 =
        .ok (tokenResponse exLastingPuzzle exLastingToken).forEveryOrigin ∧
    countAlong takesOn exLastingServer [exAsking, exPosting] = 1 ∧
    (exLastingServer.run [exAsking, exPosting]).verifier.tally.total = 0 := by
  have hasking : exLastingServer.takesOn exAsking = false ∧
      exLastingServer.breaksOff exAsking = false := by
    rw [takesOn, breaksOff, submitted?_exAsking]
    exact ⟨rfl, rfl⟩
  have hposting : exHanded.takesOn exPosting = true ∧ exHanded.breaksOff exPosting = true := by
    rw [takesOn, breaksOff, submitted?_exPosting, Option.any_some, Option.any_some,
      Bool.and_eq_true]
    exact ⟨admits_exPosting, admits_exPosting, outlasts_exPosting⟩
  have htaken : countAlong takesOn exLastingServer [exAsking, exPosting] = 1 :=
    countAlong_pair hasking.1 hposting.1
  have hbroken : countAlong breaksOff exLastingServer [exAsking, exPosting] = 1 :=
    countAlong_pair hasking.2 hposting.2
  have htotal := total_run exLastingServer [exAsking, exPosting]
  rw [htaken, hbroken] at htotal
  have hzero : exLastingServer.verifier.tally.total = 0 := rfl
  exact ⟨rfl, start_exSettings _ _, handle_exAsking, htaken, by omega⟩

end Tollgate.Server
