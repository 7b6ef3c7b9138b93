import Tollgate.Difficulty.Series
import Tollgate.Http.Form
import Tollgate.Server.Basic

/-!
Handing out puzzles, and verifying what clients submit.

Admission comes first: a caller that is denied leaves no trace but in the limiter.
-/

namespace Tollgate

/-- What a puzzle is asked for. -/
structure PuzzleQuery where
  siteKey : String
  /-- The least level wanted. -/
  floor : Option Tier
deriving DecidableEq, Repr

/-- Reads a query. The site has to be given exactly once, a level at most once and by its name; other
keys do not matter. -/
def PuzzleQuery.ofQuery? (query : List Char) : Option PuzzleQuery :=
  let pairs := Http.formPairs query
  match Http.formValues "sitekey" pairs, Http.formValues "difficulty" pairs with
  | [siteKey], [] => some ⟨siteKey, none⟩
  | [siteKey], [tier] => (Tier.ofName? tier).map fun tier => ⟨siteKey, some tier⟩
  | _, _ => none

/-- What is submitted, and for which site. -/
structure VerifyRequest where
  siteKey : String
  solution : String
deriving DecidableEq, Repr

namespace VerifyRequest

def fields : List (Field VerifyRequest) := [
  .of "sitekey" .required .text fun r siteKey => { r with siteKey },
  .of "solution" .required .text fun r solution => { r with solution }]

def codec : Codec VerifyRequest :=
  .record fields ⟨"", ""⟩

end VerifyRequest

/-- What a client is told about its submission. -/
def Verdict.toJson (v : Verdict) : Json :=
  .object ([("success", .bool v.outcome.isSuccess)] ++
    (v.outcome.code?.map fun code => ("error_code", Json.text code)).toList ++
    [("detail", .text v.detail)])

namespace Server

/-- The header that tells the difficulty of a puzzle. -/
def difficultyHeader : String := "x-puzzle-difficulty"

/-- The response that carries a token. -/
def tokenResponse (p : Puzzle) (token : String) : Http.Response where
  status := 200
  headers := [
    ("content-type", "text/plain"),
    ("cache-control", "no-store"),
    (difficultyHeader, toString p.difficulty.bits.toNat)]
  body := .text token

/-- Issues a puzzle of a site. That the request is counted as load on the site may fail; the puzzle is
issued all the same. -/
def issueFor (s : Server) (site : Site) (floor : Option Tier) (caller : Caller) (chance : Chance)
    (now : Moment) : Answer × Server :=
  let (_, store) := LoadSeries.record s.store site.siteKey s.window now
  let s := { s with store }
  let params := site.params (floor.map site.profile.level)
  match Issue.issue s.key params chance (Text.octets caller.limiterKey) now.wall with
  | .ok (p, token) => (.ok (tokenResponse p token), s)
  | .error fault => ((ApiFault.failed fault.failure).response, s)

/-- Answers a request for a puzzle. -/
def handOut (s : Server) (query : PuzzleQuery) (caller : Caller) (chance : Chance) (now : Moment) :
    Answer × Server :=
  match s.admitCaller caller now.clock with
  | (.error fault, s) => (fault.response, s)
  | (.ok _, s) =>
    match s.sites.get? query.siteKey with
    | none => ((ApiFault.unknownSite query.siteKey).response, s)
    | some site => s.issueFor site query.floor caller chance now

/-- What is found out about a submission: a verdict, or that it took too long to reach one. -/
abbrev Finding := Except Crash (Except Failure Verdict)

/-- Verifies a submission for a site; its presentation is counted in memory or in the shared store. -/
def verify (s : Server) (siteKey : String) (submission : Submission) (now : Moment) :
    Finding × Server :=
  let resource := s.sites.resource siteKey
  let budget := s.settings.verifyTimeout
  match s.ledger with
  | some ledger =>
    let result :=
      s.verifier.verifyWithin budget (ReplayLedger.present now.clock) ledger submission resource
        now.wall
    (result.1, { s with verifier := result.2.1, ledger := some result.2.2 })
  | none =>
    let result :=
      s.verifier.verifyWithin budget (Store.present now.clock) s.store submission resource now.wall
        s.store.delay
    (result.1, { s with verifier := result.2.1, store := result.2.2 })

/-- The verdict on something that is no submission. -/
def rejectMalformed (s : Server) (reason : String) : Finding × Server :=
  let (verdict, verifier) := s.verifier.rejectMalformed reason
  (.ok (.ok verdict), { s with verifier })

/-- Judges the body of a request. -/
def judge (s : Server) (body : Except Http.BodyFault VerifyRequest) (now : Moment) :
    Finding × Server :=
  match body with
  | .error fault => s.rejectMalformed fault.message
  | .ok request =>
    match Submission.parse (Text.octets request.solution) with
    | .error fault => s.rejectMalformed fault.message
    | .ok submission => s.verify request.siteKey submission now

/-- Answers a request to verify a submission. -/
def checkSubmission (s : Server) (body : Except Http.BodyFault VerifyRequest) (caller : Caller)
    (now : Moment) : Answer × Server :=
  match s.admitCaller caller now.clock with
  | (.error fault, s) => (fault.response, s)
  | (.ok _, s) =>
    match s.judge body now with
    | (.ok (.ok verdict), s) => (.ok (.json 200 verdict.toJson), s)
    | (.ok (.error failure), s) => ((ApiFault.failed failure).response, s)
    | (.error crash, s) => (.error crash, s)

end Server

end Tollgate
