import Tollgate.Proofs.Puzzle.Grammar
import Tollgate.Proofs.Server.Runs
import Tollgate.Proofs.Verify.Completeness
import Tollgate.Proofs.Verify.Verdicts

/-!
# Which sites a solved puzzle is good for

A puzzle is bound to the owner of the site that it was issued for, and a
submission is verified against the owner of the site that it names. The checks of
settings tell sites apart by their keys alone. So a puzzle is worth nothing at a
site of another owner, and at a site of the same owner it is worth as much as at
its own.

Results:
1. `offersOnly_append`: whatever is put before a token, no other puzzle is read.
2. `Follows.resource_eq`: what a submission that names a site is verified against.
3. `examine_of_owner_ne`: what becomes of a puzzle of another owner.
4. `judge_of_decided`: what is decided without counting is what is found out.
5. `judge_elsewhere`: what a puzzle of one site is worth at another.
6. `exShared_succeeds`: accepted settings with two sites of one owner, and a puzzle
   of the one that succeeds at the other.
-/

namespace Tollgate

/-! ## Submissions of one token -/

namespace Submission

open GrammarLemmas

/-- No puzzle but this one is read of the text. -/
def OffersOnly (solution : String) (p : Puzzle) : Prop :=
  ∀ submission, parse (Text.octets solution) = .ok submission → submission.puzzle = p

/-- Base64 that has blanks around it spells no other bytes. -/
theorem bytes_eq_of_blanks {bytes bytes' : List UInt8} {gap back : String}
    (hgap : Text.Blank gap) (hback : Text.Blank back)
    (h : (Text.Base64.encode .urlSafe .forbidden bytes).toList =
      gap.toList ++ (Text.Base64.encode .urlSafe .forbidden bytes').toList ++ back.toList) :
    bytes = bytes' := by
  have hnoblank : ∀ blanks : List Char, (∀ c ∈ blanks, Text.isBlank c = true) →
      (∀ c ∈ blanks, c ∈ (Text.Base64.encode .urlSafe .forbidden bytes).toList) → blanks = [] := by
    intro blanks hblank hin
    refine List.eq_nil_iff_forall_not_mem.mpr fun c hc => ?_
    have hplain := (Text.Base64.mem_toList_encode_urlSafe (hin c hc)).1
    rw [hblank c hc] at hplain
    cases hplain
  have hnogap := hnoblank _ hgap fun c hc => by simp [h, hc]
  have hnoback := hnoblank _ hback fun c hc => by simp [h, hc]
  rw [hnogap, hnoback, List.nil_append, List.append_nil] at h
  have hdecode := (Text.Base64.decodeText_eq_ok_iff Text.Base64.proper_urlSafe).mpr
    (String.toList_inj.mp h)
  have hdecode' := (Text.Base64.decodeText_eq_ok_iff Text.Base64.proper_urlSafe).mpr
    (rfl : Text.Base64.encode .urlSafe .forbidden bytes = _)
  exact Except.ok.inj (hdecode'.symm.trans hdecode)

/-- Whatever is put before the point: after it stands the token. -/
theorem offersOnly_append (p : Puzzle) (key : PuzzleKey) (proof : String) :
    OffersOnly (proof ++ String.singleton separator ++ Token.encode p key) p := by
  rintro ⟨p', body, tag, nonces⟩ hparse
  obtain ⟨front, gap, back, ⟨-, hgap, hback⟩, hbytes⟩ := exists_spaced_of_parse hparse
  obtain ⟨-, s, token, -, -, htoken, -⟩ := parse_eq_ok_iff.mp hparse
  obtain ⟨hsound, rfl, -⟩ := Token.decode_eq_ok_iff.mp htoken
  have hpoint : ∀ bytes : List UInt8,
      separator ∉ (Text.Base64.encode .urlSafe .forbidden bytes).toList :=
    fun _ hin => (Text.Base64.mem_toList_encode_urlSafe hin).2 rfl
  have hblank : ∀ s : String, Text.Blank s → separator ∉ s.toList :=
    fun s hs hin => absurd (hs _ hin) (by decide)
  have htext := congrArg String.toList (Text.octets_inj hbytes)
  have hlast : (Token.encode p key).toList = gap.toList ++ (Text.Base64.encode .urlSafe .forbidden
      ((Token.encodeBody p').toList ++ tag.toList)).toList ++ back.toList := by
    refine @Text.eq_of_last_mark separator proof.toList _
      (front.toList ++ (proofText nonces).toList) _ (hpoint _) ?_ ?_
    · simp only [List.mem_append, not_or]
      exact ⟨⟨hblank gap hgap, hpoint _⟩, hblank back hback⟩
    · simpa [spaced] using htext
  have hbytes := bytes_eq_of_blanks hgap hback hlast
  have hbody : Token.encodeBody p = Token.encodeBody p' :=
    Octets.ext (List.append_inj_left hbytes (by rw [Octets.length_toList, Octets.length_toList]))
  exact Token.eq_of_encodeBody_eq hbody.symm hsound.difficulty

end Submission

/-! ## Owners -/

/-- What submissions for the site are to be verified against. -/
def SiteSettings.resource (c : SiteSettings) : Resource where
  owner := .ok c.owner
  policy := c.replay

namespace SiteRegistry

variable {r : SiteRegistry} {configured : List SiteSettings} {c : SiteSettings}

theorem Follows.resource_eq (h : r.Follows configured) (hc : c ∈ configured) :
    r.resource c.siteKey = c.resource := by
  obtain ⟨site, hsite, hfollows⟩ := h.exists_site c hc
  rw [resource, hsite, SiteSettings.resource, ← hfollows.owner, ← hfollows.replay]

end SiteRegistry

namespace Verifier

variable {key : PuzzleKey} {submission : Submission} {resource : Resource} {now : Timestamp}
  {owner : Owner} {v : Verifier} {verdict : Verdict}

/-- A puzzle of another owner fails the check of owners, if none before. -/
theorem examine_of_owner_ne (howner : resource.owner = .ok owner)
    (hne : owner ≠ submission.puzzle.owner) :
    ∃ verdict, examine key submission resource now = .decided verdict ∧
      verdict.outcome ≠ .success ∧
      (asksOwner key submission now = true →
        verdict = ⟨.ownerMismatch, "puzzle was issued for a different resource"⟩) := by
  unfold examine asksOwner
  cases key.verify submission.body.toList submission.tag.toList with
  | false => exact ⟨_, rfl, nofun, nofun⟩
  | true =>
    cases submission.puzzle.isExpired now clockSkew with
    | true => exact ⟨_, rfl, nofun, nofun⟩
    | false =>
      refine ⟨⟨.ownerMismatch, "puzzle was issued for a different resource"⟩, ?_, nofun,
        fun _ => rfl⟩
      simp [howner, hne]

theorem finding_of_decided {σ : Type} {budget trip : Duration} (tracker : Tracker σ) (store : σ)
    (hdelay : resource.delay = .zero)
    (h : examine v.key submission resource now = .decided verdict) :
    (v.verifyWithin budget tracker store submission resource now trip).1 = .ok (.ok verdict) := by
  have hnone : (examine v.key submission resource now).presentation?.isSome = false := by
    rw [h]
    rfl
  rw [verifyWithin_of_inTime tracker store hdelay fun hpending => by simp [hnone] at hpending]
  simp only [verify, h]
  rfl

theorem finding_of_pending {σ : Type} {budget : Duration} {tracker : Tracker σ} {store : σ}
    {presentation : Presentation} {answer : Except Failure Bool} (hdelay : resource.delay = .zero)
    (h : examine v.key submission resource now = .pending presentation)
    (hcount : (tracker presentation store).1 = .ok answer) :
    (v.verifyWithin budget tracker store submission resource now).1 =
      .ok (.ok (verdictOf presentation answer)) := by
  rw [verifyWithin_of_inTime tracker store hdelay fun _ => Nat.zero_le _]
  dsimp only
  rw [fst_verify_of_pending hcount h]
  rfl

end Verifier

namespace Server

variable {s : Server} {settings : Settings} {key : PuzzleKey} {a b : SiteSettings} {site : Site}
  {solution : String} {submission : Submission} {now : Moment} {verdict : Verdict}
  {p : Puzzle} {chance : Chance} {token : String}

/-! ## Findings -/

/-- The finding is what the verifier finds, wherever presentations are counted. -/
theorem fst_verify_eq {siteKey : String} {finding : Finding}
    (hledger : ∀ ledger, s.ledger = some ledger →
      (s.verifier.verifyWithin s.settings.verifyTimeout (ReplayLedger.present now.clock) ledger
        submission (s.sites.resource siteKey) now.wall).1 = finding)
    (hstore : s.ledger = none →
      (s.verifier.verifyWithin s.settings.verifyTimeout (Store.present now.clock) s.store
        submission (s.sites.resource siteKey) now.wall s.store.delay).1 = finding) :
    (s.verify siteKey submission now).1 = finding := by
  -- By reduction alone, the verification would be run to open the pair.
  have hfst : ∀ {α β : Type} (x : α) (y : β), (x, y).1 = x := fun _ _ => rfl
  unfold verify
  split
  · next ledger h => exact (hfst _ _).trans (hledger ledger h)
  · next h => exact (hfst _ _).trans (hstore h)

theorem judge_of_decided (h : s.Serves settings key) (hb : b ∈ settings.sites)
    (hparse : Submission.parse (Text.octets solution) = .ok submission)
    (hexamine : Verifier.examine key submission b.resource now.wall = .decided verdict) :
    (s.judge (.ok ⟨b.siteKey, solution⟩) now).1 = .ok (.ok verdict) := by
  have hresource := h.sites.resource_eq hb
  rw [← h.key_eq, ← hresource] at hexamine
  unfold judge
  simp only [hparse]
  exact fst_verify_eq
    (fun _ _ => Verifier.finding_of_decided _ _ (congrArg Resource.delay hresource) hexamine)
    fun _ => Verifier.finding_of_decided _ _ (congrArg Resource.delay hresource) hexamine

/-- What passes all checks but the last is left to the counters, here in memory. -/
theorem judge_of_pending {presentation : Presentation} {answer : Except Failure Bool}
    {ledger : ReplayLedger} (h : s.Serves settings key) (hb : b ∈ settings.sites)
    (hparse : Submission.parse (Text.octets solution) = .ok submission)
    (hexamine : Verifier.examine key submission b.resource now.wall = .pending presentation)
    (hledger : s.ledger = some ledger)
    (hcount : (ReplayLedger.present now.clock presentation ledger).1 = .ok answer) :
    (s.judge (.ok ⟨b.siteKey, solution⟩) now).1 =
      .ok (.ok (Verifier.verdictOf presentation answer)) := by
  have hresource := h.sites.resource_eq hb
  rw [← h.key_eq, ← hresource] at hexamine
  unfold judge
  simp only [hparse]
  refine fst_verify_eq (fun ledger' hledger' => ?_) fun hnone => ?_
  · obtain rfl := Option.some.inj (hledger'.symm.trans hledger)
    exact Verifier.finding_of_pending (congrArg Resource.delay hresource) hexamine hcount
  · rw [hledger] at hnone
    cases hnone

/-! ## Two sites -/

/-- Whatever has happened when the puzzle is issued, and when it is submitted:
between two owners it never succeeds, however it is solved; and where two sites
have one owner, being issued for the one of them does not matter at the other. -/
theorem judge_elsewhere {fresh : PuzzleKey} {place : String → Nat} {store : Store}
    {started : Instant} {floor : Option Level} {extra : List UInt8} {issued : Timestamp}
    (hvalid : settings.validate = .ok ())
    (hstart : start settings fresh place store started = .ok (.ok s))
    (ha : a ∈ settings.sites) (hb : b ∈ settings.sites)
    (before after : List (Event × Moment))
    (hsite : (s.run before).sites.get? a.siteKey = some site)
    (hissue : Issue.issue (s.run before).key (site.params floor) chance extra issued =
      .ok (p, token)) :
    (∀ proof, Submission.OffersOnly (proof ++ String.singleton Submission.separator ++ token) p) ∧
    ∀ solution, Submission.OffersOnly solution p → ∀ now,
      (a.owner ≠ b.owner → ∃ verdict,
        ((s.run after).judge (.ok ⟨b.siteKey, solution⟩) now).1 = .ok (.ok verdict) ∧
          verdict.outcome ≠ .success ∧
          ∀ submission, Submission.parse (Text.octets solution) = .ok submission →
            Verifier.asksOwner s.key submission now.wall = true →
            verdict = ⟨.ownerMismatch, "puzzle was issued for a different resource"⟩) ∧
      (a.owner = b.owner → ∀ submission,
        Submission.parse (Text.octets solution) = .ok submission →
          (Verifier.examine s.key submission ((s.run after).sites.resource b.siteKey) now.wall =
              .pending ⟨p.replayKey, b.replay.allowedPresentations,
                Verifier.counterTtl p now.wall⟩ ↔
            Verifier.asksOwner s.key submission now.wall = true ∧
              p.isSolvedBy submission.nonces = true)) := by
  have hserves := serves_start hvalid hstart
  have hafter := hserves.run after
  have hresource := hafter.sites.resource_eq hb
  obtain ⟨hbuild, htoken⟩ := Issue.issue_eq_ok hissue
  have howner : p.owner = a.owner := by
    obtain ⟨site', hsite', hfollows⟩ := (hserves.run before).sites.exists_site a ha
    obtain rfl := Option.some.inj (hsite'.symm.trans hsite)
    exact (Issue.build_eq_ok hbuild).1.trans hfollows.owner
  refine ⟨fun proof => htoken ▸ Submission.offersOnly_append p _ proof,
    fun solution hoffers now => ⟨fun hne => ?_, fun hsame submission hparse => ?_⟩⟩
  · cases hparse : Submission.parse (Text.octets solution) with
    | error fault =>
      refine ⟨⟨.malformed, fault.message⟩, ?_, nofun, nofun⟩
      unfold judge
      simp only [hparse]
      rfl
    | ok submission =>
      have hne : b.owner ≠ submission.puzzle.owner := by
        rw [hoffers submission hparse, howner]
        exact hne.symm
      obtain ⟨verdict, hexamine, houtcome, hmismatch⟩ :=
        @Verifier.examine_of_owner_ne s.key submission b.resource now.wall b.owner rfl hne
      refine ⟨verdict, judge_of_decided hafter hb hparse hexamine, houtcome, ?_⟩
      intro submission' hsame
      obtain rfl := Except.ok.inj hsame
      exact hmismatch
  · obtain rfl := hoffers submission hparse
    have hresolved : Except.ok b.owner = (.ok submission.puzzle.owner : Except Failure Owner) :=
      congrArg _ (hsame.symm.trans howner.symm)
    rw [Verifier.examine_eq_pending_iff, hresource, Verifier.asksOwner, Bool.and_eq_true,
      Bool.not_eq_true']
    constructor
    · rintro ⟨hauthentic, hfresh, -, hsolved, -⟩
      exact ⟨⟨hauthentic, hfresh⟩, hsolved⟩
    · rintro ⟨⟨hauthentic, hfresh⟩, hsolved⟩
      exact ⟨hauthentic, hfresh, hresolved, hsolved, rfl⟩

/-- A site that asks for no work. -/
def exSite (siteKey : String) (owner : UInt8) : SiteSettings :=
  { siteKey, owner := .replicate 16 owner, low := 0, medium := 0, high := 0, solutions := 1 }

/-- Two sites of two owners. -/
def exApart : List SiteSettings :=
  [exSite "a" 0xab, exSite "b" 0xcd]

/-- Two sites of one owner. -/
def exShared : List SiteSettings :=
  [exSite "a" 0xab, exSite "b" 0xab]

/-- The first site, as it is at the start. -/
def exIssuing : Site :=
  .ofSettings (exSite "a" 0xab) (exSettings []).difficulty.baseline
    (exSettings []).difficulty.controller 0

/-- The puzzle that it issues at the second 1000. -/
def exHeld : Puzzle :=
  ⟨7, .replicate 16 0xab, .lowest, 1, 1000, 1300, Issue.mixSalt (.replicate 16 1) []⟩

def exHeldToken : String :=
  Token.encode exHeld Verifier.exVerifier.key

theorem issue_exIssuing : Issue.issue Verifier.exVerifier.key (exIssuing.params none)
    Verifier.exChance [] (.ofSeconds 1000) = .ok (exHeld, exHeldToken) :=
  rfl

/-- The puzzle with a nonce that solves it, as every nonce does. -/
def exAnswer : Submission :=
  ⟨exHeld, Token.encodeBody exHeld,
    Verifier.exVerifier.key.sign (Token.encodeBody exHeld).toList, [0]⟩

theorem decode_exHeldToken :
    Token.decode exHeldToken = .ok ⟨exHeld, exAnswer.body, exAnswer.tag⟩ :=
  Token.decode_encode _ ⟨by decide, by decide, by decide⟩

theorem parse_exAnswer :
    Submission.parse (Text.octets (Submission.encode exHeldToken [0])) = .ok exAnswer :=
  Submission.parse_encode decode_exHeldToken rfl

/-- The store goes down before the puzzle is submitted at the other site. -/
theorem judge_exApart : (exSite "a" 0xab).owner ≠ (exSite "b" 0xcd).owner ∧
    (((exServer exApart Verifier.exVerifier.key).run [(.share ⟨[], true, .zero⟩, ⟨5, .ofSeconds 7⟩)]).judge
        (.ok ⟨"b", Submission.encode exHeldToken [0]⟩) ⟨9, .ofSeconds 1001⟩).1 =
      .ok (.ok ⟨.ownerMismatch, "puzzle was issued for a different resource"⟩) := by
  have hvalid : (exSettings exApart).validate = .ok () := rfl
  have hsite : ((exServer exApart Verifier.exVerifier.key).run []).sites.get? "a" =
      some exIssuing := rfl
  have howner : (exSite "a" 0xab).owner ≠ (exSite "b" 0xcd).owner := by decide
  have ha : exSite "a" 0xab ∈ exApart := List.mem_cons_self
  have hb : exSite "b" 0xcd ∈ exApart := List.mem_cons_of_mem _ List.mem_cons_self
  have hasked : Verifier.asksOwner Verifier.exVerifier.key exAnswer (.ofSeconds 1001) = true := by
    rw [Verifier.asksOwner, Bool.and_eq_true]
    exact ⟨beq_self_eq_true _, by decide⟩
  obtain ⟨hoffers, hjudge⟩ := judge_elsewhere hvalid (start_exSettings exApart _) ha hb []
    [(.share ⟨[], true, .zero⟩, ⟨5, .ofSeconds 7⟩)] hsite issue_exIssuing
  have hsolution : Submission.OffersOnly (Submission.encode exHeldToken [0]) exHeld := by
    rw [Submission.encode_eq decode_exHeldToken]
    exact hoffers _
  obtain ⟨verdict, hverdict, -, hmismatch⟩ :=
    (hjudge _ hsolution ⟨9, .ofSeconds 1001⟩).1 howner
  exact ⟨howner, hmismatch _ parse_exAnswer hasked ▸ hverdict⟩

/-- The checks of settings let two sites have one owner; then a puzzle of the one
succeeds at the other. -/
theorem exShared_succeeds :
    (exSettings exShared).validate = .ok () ∧
    start (exSettings exShared) Verifier.exVerifier.key (fun _ => 0) .empty 0 =
      .ok (.ok (exServer exShared Verifier.exVerifier.key)) ∧
    (exServer exShared Verifier.exVerifier.key).sites.get? "a" = some exIssuing ∧
    Issue.issue Verifier.exVerifier.key (exIssuing.params none) Verifier.exChance []
      (.ofSeconds 1000) = .ok (exHeld, exHeldToken) ∧
    ((exServer exShared Verifier.exVerifier.key).judge
        (.ok ⟨"b", Submission.encode exHeldToken [0]⟩) ⟨9, .ofSeconds 1001⟩).1 =
      .ok (.ok ⟨.success, "ok"⟩) := by
  have hvalid : (exSettings exShared).validate = .ok () := rfl
  have hserves := serves_start hvalid (start_exSettings exShared Verifier.exVerifier.key)
  have hb : exSite "b" 0xab ∈ exShared := List.mem_cons_of_mem _ List.mem_cons_self
  have hexamine : Verifier.examine Verifier.exVerifier.key exAnswer (exSite "b" 0xab).resource
      (.ofSeconds 1001) = .pending ⟨exHeld.replayKey, 1, .ofSeconds 304⟩ :=
    Verifier.examine_eq_pending_iff.mpr ⟨beq_self_eq_true _, by decide, rfl,
      isSolvedBy_of_forall rfl fun _ _ => Nat.zero_le _, by decide⟩
  have hledger : (exServer exShared Verifier.exVerifier.key).ledger =
      some (.new ledgerCapacity) := rfl
  have hcount : (ReplayLedger.present 9 ⟨exHeld.replayKey, 1, .ofSeconds 304⟩
      (.new ledgerCapacity)).1 = .ok (.ok true) := by
    simp only [ReplayLedger.present]
    rfl
  have hjudge := @judge_of_pending _ _ _ _ _ _ ⟨9, .ofSeconds 1001⟩ _ _ _ hserves hb
    parse_exAnswer hexamine hledger hcount
  exact ⟨hvalid, start_exSettings _ _, rfl, issue_exIssuing, hjudge⟩

end Server

end Tollgate
