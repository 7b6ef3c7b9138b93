import Tollgate.Proofs.Json.Literal
import Tollgate.Proofs.Puzzle.Submitted
import Tollgate.Proofs.Server.Admission

/-!
# Submissions as clients post them

A client posts the key of a site and its solution as two text literals in a JSON
object.

Results:
1. `Json.Read.keyed_append`: an entry for a text is read into its field.
2. `VerifyRequest.readJson_posted`: what is posted is read.
3. `VerifyRequest.demand?_post`: a request that posts a submission asks for a verdict.
-/

namespace Tollgate

/-! ## Entries for texts -/

namespace Json.Read

variable {T : Type} {name value : List Char} {rest : List (Option Char)} {fuel : Nat}
  {fields : List (Field T)} {record : T} {seen : List String} {put : T → String → T}

/-- What is left of an object after the quote that opens the key of an entry. -/
def keyed (fields : List (Field T)) (record : T) (seen : List String) (fuel : Nat) : Reader T := do
  let name ← literalBody
  match fields.find? (·.name == name) with
  | some field =>
    if seen.contains name then throw .unfit
    expectAfterSpaces ':'
    let record ← field.json record
    entries fields record (name :: seen) fuel
  | none =>
    expectAfterSpaces ':'
    skipValue
    entries fields record (name :: seen) fuel

theorem entries_first (fields : List (Field T)) (record : T) (fuel : Nat)
    (rest : List (Option Char)) :
    entries fields record [] (fuel + 1) (some '"' :: rest) = keyed fields record [] fuel rest :=
  rfl

theorem entries_next (fields : List (Field T)) (record : T) (first : String) (seen : List String)
    (fuel : Nat) (rest : List (Option Char)) :
    entries fields record (first :: seen) (fuel + 1) (some ',' :: some '"' :: rest) =
      keyed fields record (first :: seen) fuel rest :=
  rfl

/-- An entry for a text that has not been seen. -/
theorem keyed_append (hname : Plain name) (hvalue : Plain value)
    (hfield : fields.find? (·.name == String.ofList name) =
      some (.of (String.ofList name) .required .text put))
    (hnew : seen.contains (String.ofList name) = false) :
    keyed fields record seen fuel (name.map some ++
        some '"' :: some ':' :: some '"' :: (value.map some ++ some '"' :: rest)) =
      entries fields (put record (String.ofList value)) (String.ofList name :: seen) fuel
        rest := by
  unfold keyed
  rw [bind_of_ok (literalBody_append hname _)]
  dsimp only
  rw [hfield]
  dsimp only
  rw [hnew, if_neg Bool.false_ne_true]
  have hcolon : expectAfterSpaces ':'
      (some ':' :: some '"' :: (value.map some ++ some '"' :: rest)) =
        .ok ((), some '"' :: (value.map some ++ some '"' :: rest)) :=
    rfl
  have hput : (Field.of (String.ofList name) .required .text put).json record
      (some '"' :: (value.map some ++ some '"' :: rest)) =
        .ok (put record (String.ofList value), rest) :=
    bind_of_ok (text_append hvalue rest)
  exact (bind_of_ok hcolon).trans (bind_of_ok hput)

end Json.Read

/-! ## Requests -/

/-- Only its target tells which resource a request is for. -/
theorem Route.ofRequest?_congr {r r' : Http.Request} (h : r.target = r'.target) :
    ofRequest? r = ofRequest? r' := by
  unfold ofRequest? Http.Request.segments? Http.Request.parts
  rw [h]

namespace VerifyRequest

open Json.Read

/-- The body that a client posts. -/
def posted (request : VerifyRequest) : String :=
  "\x7b\"sitekey\":\"" ++ request.siteKey ++ "\",\"solution\":\"" ++ request.solution ++ "\"\x7d"

/-- The request that posts a submission. -/
def post (request : VerifyRequest) (peer : Address) : Http.Request where
  method := .post
  target := "/verify"
  headers := [("content-type", "application/json")]
  peer := peer
  body := request.posted

theorem readJson_posted {request : VerifyRequest} (hsite : Plain request.siteKey.toList)
    (hsolution : Plain request.solution.toList) : codec.readJson request.posted = .ok request := by
  have hposted : request.posted.toList.map some = some '\x7b' :: some '"' ::
      ("sitekey".toList.map some ++ some '"' :: some ':' :: some '"' ::
        (request.siteKey.toList.map some ++ some '"' :: some ',' :: some '"' ::
          ("solution".toList.map some ++ some '"' :: some ':' :: some '"' ::
            (request.solution.toList.map some ++ some '"' :: [some '\x7d'])))) := by
    unfold posted
    simp only [String.toList_append, List.map_append, List.append_assoc]
    rfl
  have hfirst : Plain "sitekey".toList := by decide
  have hnext : Plain "solution".toList := by decide
  have hsiteField : fields.find? (·.name == String.ofList "sitekey".toList) =
      some (.of (String.ofList "sitekey".toList) .required .text
        fun r siteKey => { r with siteKey }) := by
    rw [String.ofList_toList]
    rfl
  have hsolutionField : fields.find? (·.name == String.ofList "solution".toList) =
      some (.of (String.ofList "solution".toList) .required .text
        fun r solution => { r with solution }) := by
    rw [String.ofList_toList]
    rfl
  refine readJson_of_ok ?_
  rw [hposted]
  refine (entries_first _ _ _ _).trans ((keyed_append hfirst hsite hsiteField rfl).trans ?_)
  refine (entries_next _ _ _ _ _ _).trans
    ((keyed_append hnext hsolution hsolutionField ?_).trans ?_)
  · decide
  · rw [String.ofList_toList, String.ofList_toList]
    rfl

theorem read_post {request : VerifyRequest} (hsite : Plain request.siteKey.toList)
    (hsolution : Plain request.solution.toList)
    (hshort : request.posted.utf8ByteSize ≤ Http.longestBody) (peer : Address) :
    (request.post peer).read codec = .ok request := by
  have hdeclared : (((request.post peer).headers.text? "content-type").bind
      Http.MediaType.parse?).any Http.MediaType.isJson = true := by
    show ((Http.Headers.text? [("content-type", "application/json")] "content-type").bind
      Http.MediaType.parse?).any Http.MediaType.isJson = true
    decide +kernel
  have hbody : codec.readOctets (request.post peer).body = .ok request :=
    (readOctets_octets codec request.posted).trans (readJson_posted hsite hsolution)
  have hlong : ¬Http.longestBody < (request.post peer).body.length :=
    Nat.not_lt.mpr hshort
  unfold Http.Request.read
  dsimp only
  rw [hdeclared, Bool.not_true, if_neg Bool.false_ne_true, if_neg hlong, hbody]

theorem demand?_post {request : VerifyRequest} (hsite : Plain request.siteKey.toList)
    (hsolution : Plain request.solution.toList)
    (hshort : request.posted.utf8ByteSize ≤ Http.longestBody) (peer : Address) :
    (request.post peer).demand? = some (.verdict (.ok request)) := by
  have hsame : Route.ofRequest? (request.post peer) =
      Route.ofRequest? ⟨.post, "/verify", [], .v4 0, ""⟩ :=
    Route.ofRequest?_congr rfl
  have hroute : Route.ofRequest? (request.post peer) = some .verify :=
    hsame.trans (by decide)
  have hmethod : (request.post peer).method = .post := rfl
  unfold Http.Request.demand?
  rw [hroute, hmethod]
  dsimp only
  rw [read_post hsite hsolution hshort]

end VerifyRequest

namespace Submission

variable {token : String} {p : Puzzle} {body : Octets Token.bodyLength}
  {tag : Octets Token.tagLength} {nonces : List UInt64}

/-- What is posted for a short site key is no longer than bodies may be. -/
theorem size_posted_le {siteKey : String} (h : Token.decode token = .ok ⟨p, body, tag⟩)
    (hlen : nonces.length = p.solutions.toNat) (hsite : siteKey.utf8ByteSize ≤ 2000000) :
    (VerifyRequest.posted ⟨siteKey, encode token nonces⟩).utf8ByteSize ≤ Http.longestBody := by
  have hsolution : (encode token nonces).utf8ByteSize ≤ 2843 :=
    length_octets_encode_le h hlen
  have hopening : "\x7b\"sitekey\":\"".utf8ByteSize = 12 := by decide
  have hmiddle : "\",\"solution\":\"".utf8ByteSize = 14 := by decide
  have hclosing : "\"\x7d".utf8ByteSize = 2 := by decide
  unfold VerifyRequest.posted Http.longestBody
  rw [String.utf8ByteSize_append, String.utf8ByteSize_append, String.utf8ByteSize_append,
    String.utf8ByteSize_append, hopening, hmiddle, hclosing]
  dsimp only
  omega

end Submission

end Tollgate
