import Tollgate.Proofs.Puzzle.Grammar
import Tollgate.Proofs.Puzzle.Solved
import Tollgate.Solver.Program

/-!
# Searching in parallel

The solver looks at many nonces of all indices at once, and takes whatever some
look finds first. A look may also find that the search is to stop. That ends the
search of an index like a solution does, but brings no nonce, and it must not
pass for one. It is left open which look comes first and when the search is told
to stop: what is printed is a submission all the same.

Results:
1. `mapM_eq_some_iff`, `mapM_eq_none_iff`: a list of answers, all of which are
   needed.
2. `assemble_eq_some_iff`, `assemble_eq_none_iff`: a result has one nonce for each
   index, in its place.
3. `mayFind_join`: where a search of one index ends.
4. `searched_solveUpTo`: going through the nonces one by one is such a search, also
   with a limit of time.
5. `isSome_search_iff`: what it finds.
6. `Job.tells_output`: what is printed holds the submission.
7. `Job.leaves`, `Job.mayLeave_run`: what such a search leaves behind, and that the
   program runs one.
8. `solved_or_stopped`: what the program prints for a readable token, and why it may
   print nothing.
-/

namespace Tollgate.Solver

/-! ## Definitions -/

/-- What a search of one index may lead to, when it may have been told to stop. -/
def MayFind (w : Work) (stopped : Bool) (index : UInt8) : Option UInt64 → Prop
  | some nonce => nonce ≤ lastTried ∧ w.isSolution index nonce
  | none => stopped ∨ ∀ nonce ≤ lastTried, w.isSolution index nonce = false

/-- The line is the submission of the nonces, or a report that starts with it. -/
def Job.Tells (job : Job) (nonces : List UInt64) (line : String) : Prop :=
  if job.options.json then
    ∃ rest, line = "\x7b\"payload\":\"" ++ job.payload nonces ++ "\"," ++ rest
  else line = job.payload nonces

/-! ## Lists of answers -/

section Answers

variable {α β : Type} {f : α → Option β} {xs : List α} {ys : List β}

theorem mapM_eq_some_iff : xs.mapM f = some ys ↔ xs.map f = ys.map some := by
  induction xs generalizing ys with
  | nil => cases ys <;> simp
  | cons x rest ih =>
    rw [List.mapM_cons]
    cases ys with
    | nil =>
      cases f x with
      | none => simp
      | some y => cases rest.mapM f <;> simp
    | cons y ys => simp [Option.bind_eq_some_iff, ih]

theorem mapM_eq_none_iff : xs.mapM f = none ↔ ∃ x ∈ xs, f x = none := by
  induction xs with
  | nil => simp
  | cons x rest ih =>
    simp only [List.mem_cons, exists_eq_or_imp, ← ih, List.mapM_cons]
    cases f x with
    | none => simp
    | some y => cases rest.mapM f <;> simp

end Answers

/-! ## Results -/

variable {w : Work} {solutions index : UInt8} {nonceOf : UInt8 → Option UInt64}
  {nonces : List UInt64} {stopped : Bool}

theorem assemble_eq_some_iff : assemble solutions nonceOf = some nonces ↔
    nonces.length = solutions.toNat ∧
      ∀ i (hi : i < nonces.length), nonceOf i.toUInt8 = some nonces[i] := by
  rw [assemble, mapM_eq_some_iff, List.ext_getElem_iff]
  simp only [List.length_map, List.length_range, List.getElem_map, List.getElem_range]
  constructor
  · rintro ⟨hlen, hall⟩
    exact ⟨hlen.symm, fun i hi => hall i (hlen ▸ hi) hi⟩
  · rintro ⟨hlen, hall⟩
    exact ⟨hlen.symm, fun i _ hi => hall i hi⟩

theorem toUInt8_lt {i : Nat} (h : i < solutions.toNat) : i.toUInt8 < solutions := by
  have hbound := solutions.toNat_lt
  rw [UInt8.lt_iff_toNat_lt, Nat.toUInt8, UInt8.toNat_ofNat', Nat.mod_eq_of_lt (by omega)]
  exact h

theorem assemble_eq_none_iff :
    assemble solutions nonceOf = none ↔ ∃ index < solutions, nonceOf index = none := by
  rw [assemble, mapM_eq_none_iff]
  constructor
  · rintro ⟨i, hi, hnone⟩
    exact ⟨i.toUInt8, toUInt8_lt (List.mem_range.mp hi), hnone⟩
  · rintro ⟨index, hindex, hnone⟩
    refine ⟨index.toNat, List.mem_range.mpr (UInt8.lt_iff_toNat_lt.mp hindex), ?_⟩
    rw [Nat.toUInt8, UInt8.ofNat_toNat]
    exact hnone

/-! ## One index -/

/-- To be told to stop is no solution, and without being told so a search only gives
up when there is none. -/
theorem mayFind_join {raised : UInt64 → Bool} {ending : Option (Option UInt64)}
    (h : EndsWith (fun nonce => look w index (raised nonce) nonce) ending)
    (hraised : ∀ nonce, raised nonce = true → stopped = true) :
    MayFind w stopped index ending.join := by
  cases h with
  | @found nonce what hnonce hlook =>
    unfold look at hlook
    split at hlook
    · next hstop =>
      obtain rfl := Option.some.inj hlook
      exact .inl (hraised nonce hstop)
    · split at hlook
      · next hsolved =>
        obtain rfl := Option.some.inj hlook
        exact ⟨hnonce, hsolved⟩
      · cases hlook
  | nothing hnothing =>
    refine .inr fun nonce hnonce => ?_
    have hlook := hnothing nonce hnonce
    unfold look at hlook
    split at hlook
    · cases hlook
    · split at hlook
      · cases hlook
      · next hunsolved => exact Bool.of_not_eq_true hunsolved

/-- Going through the nonces of each index one by one is a search in parallel. If that
has only the time to try the nonces up to `last`, the looks at all others see the stop
flag. -/
theorem searched_solveUpTo (w : Work) (solutions : UInt8) {last : UInt64}
    (hlast : last ≤ lastTried) :
    Searched w solutions (fun _ nonce => last < nonce && nonce ≤ lastTried)
      fun index => w.solveUpTo index last 0 := by
  intro index _
  cases hfound : w.solveUpTo index last 0 with
  | some nonce =>
    obtain ⟨-, hwithin, hsolved⟩ := solveUpTo_some hfound
    have hle : nonce ≤ last := hwithin.elim id fun hzero => hzero ▸ UInt64.zero_le
    refine ⟨some (some nonce), .found (UInt64.le_trans hle hlast) ?_, hfound⟩
    simp [look, UInt64.not_lt.mpr hle, hsolved]
  | none =>
    have hunsolved := solveUpTo_none hfound
    by_cases htime : last < lastTried
    · refine ⟨some none, .found UInt64.le_rfl ?_, hfound⟩
      simp [look, htime]
    · refine ⟨none, .nothing fun nonce hnonce => ?_, hfound⟩
      have hle : nonce ≤ last := UInt64.le_trans hnonce (UInt64.not_lt.mp htime)
      simp [look, UInt64.not_lt.mpr hle, hunsolved nonce UInt64.zero_le hle]

theorem solveUpTo_eq_none_iff {last : UInt64} :
    w.solveUpTo index last 0 = none ↔ ∀ nonce ≤ last, w.isSolution index nonce = false := by
  constructor
  · exact fun h nonce hle => solveUpTo_none h nonce UInt64.zero_le hle
  · intro h
    cases hfound : w.solveUpTo index last 0 with
    | none => rfl
    | some nonce =>
      obtain ⟨-, hwithin, hsolved⟩ := solveUpTo_some hfound
      have hle : nonce ≤ last := hwithin.elim id fun hzero => hzero ▸ UInt64.zero_le
      rw [h nonce hle] at hsolved
      cases hsolved

theorem isSome_search_iff {last : UInt64} :
    (search w solutions last).isSome = true ↔
      ∀ index < solutions, ∃ nonce ≤ last, w.isSolution index nonce = true := by
  rw [← Option.ne_none_iff_isSome, Ne, search, assemble_eq_none_iff]
  simp [solveUpTo_eq_none_iff]

/-! ## What is printed -/

namespace Job

variable {options : Options} {input text : String} {p : Puzzle} {body : Octets Token.bodyLength}
  {tag : Octets Token.tagLength} {job : Job} {c : Conditions}

theorem decode_dash (decoded : Token.Decoded) : Token.decode (Text.trim "-") ≠ .ok decoded := by
  have hdash : (Token.decode (Text.trim "-")).toOption.isNone = true := by decide +kernel
  intro h
  rw [h] at hdash
  cases hdash

/-- A readable token makes a job, whether it is the argument itself or the line that a
dash stands for. -/
theorem ofOptions_eq_ok (hread : Token.decode (Text.trim text) = .ok ⟨p, body, tag⟩)
    (hgiven : options.token = text ∨
      options.token = "-" ∧ String.ofList (input.toList.takeWhile (· ≠ '\n')) = text) :
    ofOptions options input = .ok ⟨options, Text.trim text, p⟩ := by
  have htoken : tokenOf options.token input = Text.trim text := by
    unfold tokenOf
    rcases hgiven with hargument | ⟨hdash, hline⟩
    · rw [hargument, if_neg]
      rintro rfl
      exact decode_dash _ hread
    · rw [if_pos hdash, hline]
  rw [ofOptions, htoken, hread]
  rfl

/-- A submission stands in a report as it is, since nothing of it has to be escaped. -/
theorem tells_output (hread : Token.decode job.token = .ok ⟨p, body, tag⟩) (nonces : List UInt64)
    (attempts : UInt64) (elapsed : Duration) :
    job.Tells nonces (job.output nonces attempts elapsed) := by
  have hplain : Json.Read.Plain (job.payload nonces).toList := Submission.plain_encode hread nonces
  unfold Tells output
  split
  · exact ⟨_, Json.Read.compact_object_cons (by decide) hplain _ _⟩
  · rfl

theorem lastInTime_le (job : Job) (last : UInt64) : job.lastInTime last ≤ lastTried := by
  unfold lastInTime
  split
  · exact UInt64.le_rfl
  · next h => exact UInt64.not_lt.mp fun hlt => h (.inr hlt)

theorem timeout_ne_zero_of_lt {last : UInt64} (h : job.lastInTime last < lastTried) :
    job.options.timeout ≠ 0 := by
  intro hzero
  rw [lastInTime, if_pos (.inl hzero)] at h
  exact UInt64.lt_irrefl _ h

/-- Going through the nonces one by one is a search that may be told to stop where its
time is over. -/
theorem mayLeave_run (hsolve : job.options.estimate = false) (c : Conditions) :
    job.MayLeave (job.lastInTime c.last < lastTried)
      (fun index => (Work.ofPuzzle job.puzzle).solveUpTo index (job.lastInTime c.last) 0)
      (job.run c) := by
  constructor
  · refine ⟨_, searched_solveUpTo _ _ (job.lastInTime_le c.last), fun index nonce hflag => ?_⟩
    rw [Bool.and_eq_true, decide_eq_true_iff, decide_eq_true_iff] at hflag
    exact decide_eq_true (UInt64.lt_of_lt_of_le hflag.1 hflag.2)
  · rw [run, if_neg (Bool.eq_false_iff.mp hsolve)]
    exact ⟨_, _, _, _, rfl⟩

theorem isSome_output_run_iff (hsolve : job.options.estimate = false) :
    (job.run c).output.isSome = true ↔
      ∀ index < job.puzzle.solutions, ∃ nonce ≤ job.lastInTime c.last,
        (Work.ofPuzzle job.puzzle).isSolution index nonce = true := by
  rw [← isSome_search_iff, run, if_neg (Bool.eq_false_iff.mp hsolve), ending, search]
  cases Solver.search (Work.ofPuzzle job.puzzle) job.puzzle.solutions (job.lastInTime c.last) with
  | some nonces => rfl
  | none =>
    dsimp only [Ending.of]
    split
    · rfl
    · rfl

end Job

/-- Whatever the searches end with and whenever they are told to stop, a result has one
nonce for each index in order, solves the puzzle, and is printed. Nothing is printed only
if the search was told to stop, or some index has no solution among the nonces that are
tried. -/
theorem Job.leaves {job : Job} {stopped : Bool} {result : Result}
    (h : job.MayLeave stopped nonceOf result) {p : Puzzle} {body : Octets Token.bodyLength}
    {tag : Octets Token.tagLength} (hread : Token.decode job.token = .ok ⟨p, body, tag⟩) :
    (∀ nonces, assemble job.puzzle.solutions nonceOf = some nonces →
      nonces.length = job.puzzle.solutions.toNat ∧
      (∀ i (hi : i < nonces.length), nonceOf i.toUInt8 = some nonces[i]) ∧
      job.puzzle.isSolvedBy nonces = true ∧
      result.code = 0 ∧ ∃ line, result.output = some line ∧ job.Tells nonces line) ∧
    (assemble job.puzzle.solutions nonceOf = none →
      result.code ≠ 0 ∧ result.output = none ∧
      (stopped = true ∨ ∃ index < job.puzzle.solutions, ∀ nonce ≤ lastTried,
        (Work.ofPuzzle job.puzzle).isSolution index nonce = false)) := by
  obtain ⟨⟨flag, hsearched, hflag⟩, now, threads, attempts, elapsed, rfl⟩ := h
  have hmay : ∀ index < job.puzzle.solutions,
      MayFind (.ofPuzzle job.puzzle) stopped index (nonceOf index) := by
    intro index hindex
    obtain ⟨ending, hends, hnonce⟩ := hsearched index hindex
    exact hnonce ▸ mayFind_join hends (hflag index)
  constructor
  · intro nonces hnonces
    obtain ⟨hlen, hplaces⟩ := assemble_eq_some_iff.mp hnonces
    rw [hnonces]
    refine ⟨hlen, hplaces, ?_, rfl, _, rfl, tells_output hread nonces attempts elapsed⟩
    refine Puzzle.isSolvedBy_iff.mpr ⟨hlen, fun i hi => ?_⟩
    have hfound := hmay i.toUInt8 (toUInt8_lt (hlen ▸ hi))
    rw [hplaces i hi] at hfound
    exact meetsTarget_iff.mp hfound.2
  · intro hnone
    obtain ⟨index, hindex, hnothing⟩ := assemble_eq_none_iff.mp hnone
    have hfound := hmay index hindex
    rw [hnothing] at hfound
    rw [hnone]
    refine ⟨?_, ?_, hfound.imp_right fun hunsolved => ⟨index, hindex, hunsolved⟩⟩
    · cases stopped <;> exact nofun
    · cases stopped <;> rfl

/-- For every token that is read, whatever the searches end with and whenever they are
told to stop: a result has one nonce for each index in order, solves the puzzle, and is
printed as a submission that is read as just this puzzle and these nonces. Nothing is
printed only if the search was told to stop, or some index has no solution among the
nonces that are tried. What the program leaves behind comes from such a search, and it
prints a result whenever it has the time to reach one. -/
theorem solved_or_stopped {arguments : List String} {options : Options} {input text : String}
    {p : Puzzle} {body : Octets Token.bodyLength} {tag : Octets Token.tagLength}
    (harguments : Command.ofArguments arguments = .solve options)
    (hread : Token.decode (Text.trim text) = .ok ⟨p, body, tag⟩)
    (hgiven : options.token = text ∨
      options.token = "-" ∧ String.ofList (input.toList.takeWhile (· ≠ '\n')) = text) :
    ∃ job, start (.ofArguments arguments) input = .ok job ∧ job.puzzle = p ∧
      (∀ stopped nonceOf result, job.MayLeave stopped nonceOf result →
        (∀ nonces, assemble p.solutions nonceOf = some nonces →
          nonces.length = p.solutions.toNat ∧
          (∀ i (hi : i < nonces.length), nonceOf i.toUInt8 = some nonces[i]) ∧
          p.isSolvedBy nonces = true ∧
          result.code = 0 ∧ (∃ line, result.output = some line ∧ job.Tells nonces line) ∧
          Submission.parse (Text.octets (job.payload nonces)) = .ok ⟨p, body, tag, nonces⟩) ∧
        (assemble p.solutions nonceOf = none →
          result.code ≠ 0 ∧ result.output = none ∧
          (stopped = true ∨ ∃ index < p.solutions, ∀ nonce ≤ lastTried,
            (Work.ofPuzzle p).isSolution index nonce = false))) ∧
      (options.estimate = false → ∀ c,
        (∃ stopped nonceOf, job.MayLeave stopped nonceOf (run arguments input c) ∧
          (stopped = true → options.timeout ≠ 0)) ∧
        ((run arguments input c).output.isSome = true ↔
          ∀ index < p.solutions, ∃ nonce ≤ job.lastInTime c.last,
            (Work.ofPuzzle p).isSolution index nonce = true)) := by
  have hstart : start (.ofArguments arguments) input = .ok ⟨options, Text.trim text, p⟩ := by
    rw [harguments, start, Job.ofOptions_eq_ok hread hgiven]
    rfl
  refine ⟨_, hstart, rfl, fun stopped nonceOf result hleave => ?_, fun hsolve c => ?_⟩
  · obtain ⟨hsome, hnone⟩ := Job.leaves hleave hread
    refine ⟨fun nonces hnonces => ?_, hnone⟩
    obtain ⟨hlen, hplaces, hsolves, hcode, hline⟩ := hsome nonces hnonces
    exact ⟨hlen, hplaces, hsolves, hcode, hline, Submission.parse_encode hread hlen⟩
  · have hrun : run arguments input c = Job.run ⟨options, Text.trim text, p⟩ c := by
      rw [run, hstart]
    rw [hrun]
    refine ⟨⟨_, _, Job.mayLeave_run hsolve c, fun hstopped => ?_⟩, Job.isSome_output_run_iff hsolve⟩
    exact Job.timeout_ne_zero_of_lt (of_decide_eq_true hstopped)

/-- The token of a puzzle that asks for two nonces and no zero bits is on a line of
standard input, a report is wanted, and there is a limit of time. -/
def exArguments : List String :=
  ["--token", "-", "--json", "--timeout", "5"]

def exInput : String :=
  Submission.exToken ++ "\n"

def exJob : Job :=
  ⟨{ token := "-", timeout := 5, json := true }, Submission.exToken, Submission.exPuzzle⟩

/-- The nonces 3 and 4 are found. -/
def exNonce (index : UInt8) : UInt64 :=
  if index = 0 then 3 else 4

/-- The search is told to stop, but only looks at later nonces see it. -/
def exFlag (_ : UInt8) (nonce : UInt64) : Bool :=
  10 ≤ nonce

def exResult : Result :=
  exJob.finish (.ofSeconds 0) 4 (.of (some [3, 4]) true) 12 .zero

theorem isSolution_exPuzzle (index : UInt8) (nonce : UInt64) :
    (Work.ofPuzzle Submission.exPuzzle).isSolution index nonce = true :=
  meetsTarget_iff.mpr (Nat.zero_le _)

theorem searched_exNonce : Searched (.ofPuzzle Submission.exPuzzle) Submission.exPuzzle.solutions
    exFlag (some ∘ exNonce) := by
  intro index _
  have hle : exNonce index ≤ lastTried := by
    unfold exNonce
    split <;> decide
  have hflag : exFlag index (exNonce index) = false := by
    unfold exNonce
    split <;> rfl
  have hlook : look (.ofPuzzle Submission.exPuzzle) index (exFlag index (exNonce index))
      (exNonce index) = some (some (exNonce index)) := by
    simp [look, hflag, isSolution_exPuzzle]
  exact ⟨_, .found hle hlook, rfl⟩

theorem mayLeave_exResult : exJob.MayLeave true (some ∘ exNonce) exResult where
  searched := ⟨exFlag, searched_exNonce, fun _ _ _ => rfl⟩
  finished := ⟨_, _, _, _, rfl⟩

/-- Two nonces are found and printed while the search is being stopped. Where they are tried
one by one, the first one is enough for each index. -/
theorem solved_exArguments :
    Command.ofArguments exArguments = .solve exJob.options ∧
    start (.ofArguments exArguments) exInput = .ok exJob ∧
    exJob.MayLeave true (some ∘ exNonce) exResult ∧
    (∃ line, exResult.output = some line ∧ exJob.Tells [3, 4] line) ∧
    (∃ body tag, Submission.parse (Text.octets (exJob.payload [3, 4])) =
      .ok ⟨Submission.exPuzzle, body, tag, [3, 4]⟩) ∧
    (run exArguments exInput ⟨.ofSeconds 0, 4, 1, 0, .zero⟩).output.isSome = true := by
  have harguments : Command.ofArguments exArguments = .solve exJob.options := by decide +kernel
  have hsound : Submission.exPuzzle.Sound := ⟨by decide, by decide, by decide⟩
  have htrim : Text.trim Submission.exToken = Submission.exToken :=
    Text.Base64.trim_encode_urlSafe .forbidden _
  have hread := (congrArg Token.decode htrim).trans
    (Token.decode_encode (.ofSecret (List.replicate 32 7)) hsound)
  have hline : String.ofList (exInput.toList.takeWhile (· ≠ '\n')) = Submission.exToken := by
    have hplain : ∀ c ∈ Submission.exToken.toList, decide (c ≠ '\n') = true := by
      intro c hin
      refine decide_eq_true fun heq => ?_
      have hprinted := (Submission.plain_base64 _ c hin).2.2
      rw [heq] at hprinted
      exact absurd hprinted (by decide)
    rw [exInput, String.toList_append, List.takeWhile_append_of_pos hplain]
    simp
  have hjob : start (.ofArguments exArguments) exInput = .ok exJob := by
    rw [harguments, start, Job.ofOptions_eq_ok hread (.inr ⟨rfl, hline⟩), htrim]
    rfl
  have hassemble : assemble Submission.exPuzzle.solutions (some ∘ exNonce) = some [3, 4] := by
    decide
  obtain ⟨job, hstart, -, hleaves, hruns⟩ :=
    solved_or_stopped harguments hread (.inr ⟨rfl, hline⟩)
  obtain rfl := Except.ok.inj (hstart.symm.trans hjob)
  obtain ⟨-, -, -, -, hprinted, hparse⟩ := (hleaves _ _ _ mayLeave_exResult).1 _ hassemble
  exact ⟨harguments, hjob, mayLeave_exResult, hprinted, ⟨_, _, hparse⟩,
    (hruns rfl _).2.mpr fun index _ => ⟨0, UInt64.zero_le, isSolution_exPuzzle index 0⟩⟩

end Tollgate.Solver
