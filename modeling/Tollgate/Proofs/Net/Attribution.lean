import Tollgate.Proofs.Net.Canonical
import Tollgate.Proofs.Net.Hops

/-!
# Callers do not choose their address

A request is attributed by what is read from three of its headers: a configured API key,
the client that a proxy tells, and the hops that proxies have listed. Without a trusted
proxy only the key counts. What stands in front of the nearest hop that is no trusted
proxy does not count either: that is where a client can write what it likes.

A key of the limiter tells the caller. So callers that are not the same do not share a
bucket, and one caller does not get several by spelling its address in several ways.

Results:
1. `identify_eq_caller`: the caller depends on the headers as they are read.
2. `word?_without_self`, `word?_without_of_ne`: headers without the lines with a name.
3. `nearest?_of_split`, `exists_split_of_other`: the hop that counts.
4. `limiterKey_inj`: a key of the limiter tells the caller.
5. `identify_unforgeable`: what a client can and cannot choose.
-/

namespace Tollgate

/-! ## Definitions -/

namespace Http.Headers

/-- The headers but for the lines with a name. -/
def without (headers : Headers) (name : String) : Headers :=
  headers.filter fun line => !sameName line.1 name

end Http.Headers

namespace Caller

/-- The API key of a request, if it is a configured one. -/
def knownKey? (headers : Http.Headers) (apiKeys : List String) : Option String :=
  (headers.word? keyHeader).filter (apiKeys.contains ·)

/-- The caller with a known API key, or with an address if there is none. -/
def ofKey? (key : Option String) (client : Address) : Caller :=
  key.elim (.address client) .apiKey

/-- What is read from the headers of a request. -/
structure Reading where
  key : Option String
  client : Option Address
  hops : Option (List (Option Address))
deriving DecidableEq

def read (headers : Http.Headers) (apiKeys : List String) : Reading where
  key := knownKey? headers apiKeys
  client := (headers.word? clientHeader).bind Address.parse?
  hops := (headers.text? hopsHeader).map fun line => hops [line]

namespace Reading

/-- The address that a request from `peer` is attributed to. -/
def address (reading : Reading) (peer : Address) (proxies : List Network) : Address :=
  if isTrusted proxies peer then
    reading.client.getD ((reading.hops.bind (nearest? proxies)).getD peer)
  else peer

def caller (reading : Reading) (peer : Address) (proxies : List Network) : Caller :=
  ofKey? reading.key (reading.address peer proxies)

end Reading

end Caller

/-! ## Headers -/

namespace Http.Headers

variable {headers : Headers} {name other : String}

theorem first?_without_self (headers : Headers) (name : String) :
    (headers.without name).first? name = none := by
  rw [first?, Option.map_eq_none_iff, List.find?_eq_none]
  intro line hin
  simpa using (List.mem_filter.mp hin).2

theorem word?_without_self (headers : Headers) (name : String) :
    (headers.without name).word? name = none := by
  rw [word?, text?, first?_without_self]
  rfl

theorem text?_without_of_ne (h : sameName name other = false) :
    (headers.without name).text? other = headers.text? other := by
  rw [text?, text?, without, first?_filter_of_ne headers h]

theorem word?_without_of_ne (h : sameName name other = false) :
    (headers.without name).word? other = headers.word? other := by
  rw [word?, word?, text?_without_of_ne h]

end Http.Headers

namespace Caller

open Http.Headers

variable {headers : Http.Headers} {apiKeys : List String} {proxies : List Network}

/-! ## What is read -/

theorem clientOf?_eq_bind (headers : Http.Headers) (proxies : List Network) :
    clientOf? proxies ((headers.values hopsHeader).take 1) =
      (read headers apiKeys).hops.bind (nearest? proxies) := by
  rw [read, text?, first?_eq_head?]
  cases headers.values hopsHeader with
  | nil => rfl
  | cons line rest =>
    have hlines : (line :: rest).take 1 = [line] := rfl
    rw [hlines, clientOf?, List.all_cons, List.all_nil, Bool.and_true, List.head?_cons,
      Option.filter_some, ← isText]
    cases isText line <;> rfl

theorem clientAddress_eq (headers : Http.Headers) (peer : Address) (apiKeys : List String)
    (proxies : List Network) :
    clientAddress headers peer proxies = (read headers apiKeys).address peer proxies := by
  rw [clientAddress, Reading.address, word?_bind_forwardedFor?, clientOf?_eq_bind]
  show _ = if isTrusted proxies peer then
    ((headers.word? clientHeader).bind Address.parse?).getD _ else peer
  cases (headers.word? clientHeader).bind Address.parse? <;> rfl

/-- A request is attributed by what is read from its headers, however that is spelled. -/
theorem identify_eq_caller (headers : Http.Headers) (peer : Address) (apiKeys : List String)
    (proxies : List Network) :
    identify headers peer apiKeys proxies = (read headers apiKeys).caller peer proxies := by
  rw [identify, clientAddress_eq headers peer apiKeys, Reading.caller]
  show _ = ofKey? (knownKey? headers apiKeys) _
  rw [← knownKey?]
  cases knownKey? headers apiKeys <;> rfl

/-- Nothing else is read if the API key is left out. -/
theorem read_without (h : knownKey? headers apiKeys = none) :
    read (headers.without keyHeader) apiKeys = read headers apiKeys := by
  have hclient : sameName keyHeader clientHeader = false := by decide +kernel
  have hhops : sameName keyHeader hopsHeader = false := by decide +kernel
  rw [read, read, h, knownKey?, word?_without_self, word?_without_of_ne hclient,
    text?_without_of_ne hhops]
  rfl

/-! ## The hop that counts -/

theorem nearest?_of_split {far near : List (Option Address)} {hop : Option Address}
    (hhop : isProxy proxies hop = false) (hnear : near.all (isProxy proxies) = true) :
    nearest? proxies (far ++ hop :: near) = hop := by
  have hother : ¬(hop :: near).all (isProxy proxies) = true := by
    rw [List.all_cons, hhop]
    exact Bool.false_ne_true
  have hsingle : nearest? proxies [hop] = hop := by
    rw [nearest?, List.reverse_singleton, List.find?_cons_of_pos (by rw [hhop]; rfl)]
    rfl
  rw [nearest?_append, if_neg hother, ← List.singleton_append, nearest?_append, if_pos hnear,
    hsingle]

theorem nearest?_of_proxies {found : List (Option Address)}
    (h : found.all (isProxy proxies) = true) : nearest? proxies found = none := by
  have hnone : (found.reverse.find? fun hop => !isProxy proxies hop) = none := by
    rw [List.find?_eq_none]
    intro hop hin
    simpa using List.all_eq_true.mp h hop (List.mem_reverse.mp hin)
  rw [nearest?, hnone]
  rfl

theorem exists_split_of_other {found : List (Option Address)}
    (h : found.all (isProxy proxies) = false) :
    ∃ far hop near, found = far ++ hop :: near ∧ isProxy proxies hop = false ∧
      near.all (isProxy proxies) = true := by
  induction found with
  | nil => cases h
  | cons hop near ih =>
    cases hnear : near.all (isProxy proxies) with
    | false =>
      obtain ⟨far, other, nearer, rfl, hother⟩ := ih hnear
      exact ⟨hop :: far, other, nearer, rfl, hother⟩
    | true =>
      rw [List.all_cons, hnear, Bool.and_true] at h
      exact ⟨[], hop, near, rfl, h, hnear⟩

theorem hops_comma (front back : String) :
    hops [front ++ "," ++ back] = hops [front] ++ hops [back] := by
  have hjoined := hops_intercalate (List.cons_ne_nil front [back])
  rw [String.intercalate_cons_cons, String.intercalate_singleton] at hjoined
  exact hjoined.trans (hops_cons front [back])

/-! ## Keys of the limiter -/

/-- The caller is told by its key, be it an API key or an address. -/
theorem limiterKey_inj {c c' : Caller} : c.limiterKey = c'.limiterKey ↔ c = c' := by
  refine ⟨fun h => ?_, congrArg limiterKey⟩
  have hcancel {front back back' : String} (heq : front ++ back = front ++ back') :
      back = back' := by
    have hchars := congrArg String.toList heq
    rw [String.toList_append, String.toList_append] at hchars
    exact String.toList_inj.mp (List.append_cancel_left hchars)
  cases c with
  | apiKey key =>
    cases c' with
    | apiKey key' => exact congrArg apiKey (hcancel h)
    | address client' => exact absurd h (limiterKey_apiKey_ne_address key client')
  | address client =>
    cases c' with
    | apiKey key' => exact absurd h.symm (limiterKey_apiKey_ne_address key' client)
    | address client' => exact congrArg address (Address.text_inj.mp (hcancel h))

/-! ## Callers -/

variable {peer : Address}

theorem identify_of_stranger (h : isTrusted proxies peer = false) (headers : Http.Headers)
    (apiKeys : List String) :
    identify headers peer apiKeys proxies = ofKey? (knownKey? headers apiKeys) peer := by
  rw [identify_eq_caller, Reading.caller, Reading.address, h]
  rfl

/-- Behind a trusted proxy that does not tell the client, the hops of the first line do. -/
theorem identify_of_hops {line : String} (h : isTrusted proxies peer = true)
    (hclient : (headers.word? clientHeader).bind Address.parse? = none)
    (hline : headers.first? hopsHeader = some line) (htext : isText line = true)
    (apiKeys : List String) :
    identify headers peer apiKeys proxies =
      ofKey? (knownKey? headers apiKeys) ((nearest? proxies (hops [line])).getD peer) := by
  have hread : headers.text? hopsHeader = some line := by
    rw [text?, hline]
    exact Option.filter_some_pos htext
  rw [identify_eq_caller, Reading.caller, Reading.address, if_pos h, read, hclient, hread]
  rfl

/-- A client cannot choose whom its request is attributed to, except by an API key that it
knows. Unless it comes from a trusted proxy, no other header counts. A key that is not
configured counts like none. A trusted proxy that does not tell the client writes the hops
`back` behind `front`, which may be the client's; if `back` has another hop than trusted
proxies, then the last such hop is the client whatever `front` is, and the peer is if that
hop is no address, or if all hops are trusted proxies. The spelling of addresses does not
count, and different callers have different keys of the limiter. -/
theorem identify_unforgeable (peer : Address) (apiKeys : List String) (proxies : List Network) :
    (isTrusted proxies peer = false → ∀ headers,
      identify headers peer apiKeys proxies = ofKey? (knownKey? headers apiKeys) peer) ∧
    (∀ headers, knownKey? headers apiKeys = none →
      identify headers peer apiKeys proxies =
        identify (headers.without keyHeader) peer apiKeys proxies) ∧
    (isTrusted proxies peer = true →
      (∀ back, (hops [back]).all (isProxy proxies) = false →
        ∃ far hop near, hops [back] = far ++ hop :: near ∧ isProxy proxies hop = false ∧
          near.all (isProxy proxies) = true ∧ ∀ headers front,
            (headers.word? clientHeader).bind Address.parse? = none →
            headers.first? hopsHeader = some (front ++ "," ++ back) →
            isText (front ++ "," ++ back) = true →
              identify headers peer apiKeys proxies =
                ofKey? (knownKey? headers apiKeys) (hop.getD peer)) ∧
      ∀ headers line, (headers.word? clientHeader).bind Address.parse? = none →
        headers.first? hopsHeader = some line → isText line = true →
        (hops [line]).all (isProxy proxies) = true →
          identify headers peer apiKeys proxies = ofKey? (knownKey? headers apiKeys) peer) ∧
    (∀ headers headers', read headers apiKeys = read headers' apiKeys →
      identify headers peer apiKeys proxies = identify headers' peer apiKeys proxies) ∧
    ∀ c c' : Caller, c.limiterKey = c'.limiterKey ↔ c = c' := by
  refine ⟨fun hpeer headers => identify_of_stranger hpeer headers apiKeys, ?_,
    fun hpeer => ⟨?_, ?_⟩, ?_, fun _ _ => limiterKey_inj⟩
  · intro headers hkey
    rw [identify_eq_caller, identify_eq_caller, read_without hkey]
  · intro back hother
    obtain ⟨far, hop, near, hsplit, hhop, hnear⟩ := exists_split_of_other hother
    refine ⟨far, hop, near, hsplit, hhop, hnear, fun headers front hclient hline htext => ?_⟩
    rw [identify_of_hops hpeer hclient hline htext, hops_comma, hsplit, ← List.append_assoc,
      nearest?_of_split hhop hnear]
  · intro headers line hclient hline htext hproxies
    rw [identify_of_hops hpeer hclient hline htext, nearest?_of_proxies hproxies]
    rfl
  · intro headers headers' hread
    rw [identify_eq_caller, identify_eq_caller, hread]

/-- A client sends an API key that is not configured and hops that it has made up, behind
which two proxies write theirs. -/
def exSpoofed (front : String) : Http.Headers :=
  [(keyHeader, "forged"), (hopsHeader, front ++ "," ++ " 5.6.7.8 , 10.0.0.1")]

def exStranger : Address :=
  .v4 0xcb007105

/-- What the client has made up does not count, and neither do the proxies' hops if the
request comes from elsewhere. -/
theorem identify_exSpoofed :
    identify (exSpoofed "6.6.6.6") exPeer ["partner-1"] exProxies = .address (.v4 0x05060708) ∧
    identify (exSpoofed "10.0.0.2,x") exPeer ["partner-1"] exProxies = .address (.v4 0x05060708) ∧
    identify (exSpoofed "6.6.6.6") exStranger ["partner-1"] exProxies = .address exStranger := by
  obtain ⟨-, -, htrusted, -, -⟩ := identify_unforgeable exPeer ["partner-1"] exProxies
  obtain ⟨hstranger, -, -, -, -⟩ := identify_unforgeable exStranger ["partner-1"] exProxies
  obtain ⟨hbehind, -⟩ := htrusted (by decide +kernel)
  obtain ⟨far, hop, near, hsplit, hhop, hnear, hfront⟩ :=
    hbehind " 5.6.7.8 , 10.0.0.1" (by decide +kernel)
  have hnearest : nearest? exProxies (hops [" 5.6.7.8 , 10.0.0.1"]) = some (.v4 0x05060708) := by
    decide +kernel
  rw [hsplit, nearest?_of_split hhop hnear] at hnearest
  rw [hnearest] at hfront
  have hnumbers : knownKey? (exSpoofed "6.6.6.6") ["partner-1"] = none := by decide +kernel
  have hwords : knownKey? (exSpoofed "10.0.0.2,x") ["partner-1"] = none := by decide +kernel
  refine ⟨?_, ?_, ?_⟩
  · rw [hfront _ "6.6.6.6" (by decide +kernel) (by decide +kernel) (by decide +kernel), hnumbers]
    rfl
  · rw [hfront _ "10.0.0.2,x" (by decide +kernel) (by decide +kernel) (by decide +kernel), hwords]
    rfl
  · rw [hstranger (by decide +kernel), hnumbers]
    rfl

/-- A configured API key counts also behind a trusted proxy. -/
theorem exPartner_not_address :
    ¬ ∀ (headers : Http.Headers) (peer : Address) (apiKeys : List String) (proxies : List Network)
      (front back : String) (far near : List (Option Address)) (hop : Option Address),
      isTrusted proxies peer = true → (headers.word? clientHeader).bind Address.parse? = none →
        headers.first? hopsHeader = some (front ++ "," ++ back) →
        isText (front ++ "," ++ back) = true → hops [back] = far ++ hop :: near →
        isProxy proxies hop = false → near.all (isProxy proxies) = true →
          identify headers peer apiKeys proxies = .address (hop.getD peer) := by
  intro hclaim
  have haddress := hclaim [(keyHeader, "partner-1"), (hopsHeader, "6.6.6.6,5.6.7.8")] exPeer
    ["partner-1"] exProxies "6.6.6.6" "5.6.7.8" [] [] (some (.v4 0x05060708)) (by decide +kernel)
    (by decide +kernel) (by decide +kernel) (by decide +kernel) (by decide +kernel)
    (by decide +kernel) (by decide +kernel)
  exact absurd haddress (by decide +kernel)

end Caller

end Tollgate
