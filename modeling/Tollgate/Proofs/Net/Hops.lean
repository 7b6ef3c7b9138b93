import Tollgate.Net.Caller
import Tollgate.Proofs.Text.Split

/-!
# Hops in several lines

A proxy lists the hop that it got a request from behind those that the request has
listed already, in the same line or in a line of its own; the lines of one request
together list the hops from the farthest to the nearest. The client is the nearest hop
that is no trusted proxy. Only the first line is looked at, which is the farthest one.
So the client is the nearest such hop of that line, and what a client has sent in a line
of its own counts as long as the proxies add lines: `exForged_counts`.

Results:
1. `first?_joinLines`, `first?_joinLines_of_ne`: what is found in headers whose lines
   with one name have been joined.
2. `clientHop?_eq`, `forwardedFor?_eq`: the client in a list of hops, and in a line.
3. `clientOf?_intercalate`: joining lines does not change what they tell.
4. `clientOf?_of_proxies`, `clientOf?_of_other`: when a line in front of others counts.
5. `identify_lines`: who a request is attributed to, and who it would be if its lines
   were joined.
-/

namespace Tollgate

/-! ## Definitions -/

namespace Http.Headers

/-- The values of all lines with a name. -/
def values (headers : Headers) (name : String) : List String :=
  (headers.filter fun line => sameName line.1 name).map (·.2)

/-- The headers with all lines of a name joined into one. -/
def joinLines (headers : Headers) (name : String) : Headers :=
  match headers.values name with
  | [] => headers
  | value :: more =>
    (name, ",".intercalate (value :: more)) :: headers.filter fun line => !sameName line.1 name

/-- The value is a text. -/
def isText (value : String) : Bool :=
  value.toList.all isVisible

end Http.Headers

namespace Caller

/-- The address that is written for a hop, if it is one. -/
def hopAddress? (hop : List Char) : Option Address :=
  Address.parse? (Text.trim (String.ofList hop))

/-- The hops that some lines list, the nearest one last. -/
def hops (lines : List String) : List (Option Address) :=
  lines.flatMap fun line => (Text.split ',' line.toList).map hopAddress?

/-- The hop is a trusted proxy. -/
def isProxy (proxies : List Network) (hop : Option Address) : Bool :=
  hop.any (isTrusted proxies)

/-- The nearest hop that is no trusted proxy, if it is an address. -/
def nearest? (proxies : List Network) (hops : List (Option Address)) : Option Address :=
  (hops.reverse.find? fun hop => !isProxy proxies hop).join

/-- The client that some lines tell, if all of them are texts. -/
def clientOf? (proxies : List Network) (lines : List String) : Option Address :=
  if lines.all Http.Headers.isText then nearest? proxies (hops lines) else none

/-- The lines list trusted proxies only. -/
def listProxies (proxies : List Network) (lines : List String) : Bool :=
  lines.all Http.Headers.isText && (hops lines).all (isProxy proxies)

/-- The caller of the request is looked for in the hops: it has no known API key, and
comes from a trusted proxy that does not tell the client's address otherwise. -/
def goesByHops (headers : Http.Headers) (peer : Address) (apiKeys : List String)
    (proxies : List Network) : Bool :=
  ((headers.word? keyHeader).filter (apiKeys.contains ·)).isNone && isTrusted proxies peer &&
    ((headers.word? clientHeader).bind Address.parse?).isNone

end Caller

/-! ## Joined lines -/

namespace Http.Headers

variable {headers : Headers} {name other : String}

theorem first?_eq_head? (headers : Headers) (name : String) :
    headers.first? name = (headers.values name).head? := by
  rw [first?, values, List.head?_map, List.head?_filter]

theorem joinLines_of_nil (h : headers.values name = []) : headers.joinLines name = headers := by
  rw [joinLines, h]

theorem joinLines_of_ne_nil (h : headers.values name ≠ []) :
    headers.joinLines name = (name, ",".intercalate (headers.values name)) ::
      headers.filter fun line => !sameName line.1 name := by
  unfold joinLines
  split
  · next hnil => exact absurd hnil h
  · next hcons => rw [hcons]

theorem first?_joinLines (h : headers.values name ≠ []) :
    (headers.joinLines name).first? name = some (",".intercalate (headers.values name)) := by
  have hself : sameName name name = true := beq_self_eq_true _
  simp only [joinLines_of_ne_nil h, first?, List.find?_cons, hself, Option.map_some]

theorem sameName_eq_false {x : String} (h : sameName name other = false)
    (hother : sameName x other = true) : sameName x name = false := by
  refine Bool.eq_false_iff.mpr fun hname => ?_
  rw [sameName, beq_iff_eq] at hname hother
  rw [sameName, ← hname, hother, beq_self_eq_true] at h
  cases h

theorem first?_filter_of_ne (headers : Headers) (h : sameName name other = false) :
    first? (headers.filter fun line => !sameName line.1 name) other =
      headers.first? other := by
  have hfind : (fun line : String × String =>
      decide ((!sameName line.1 name) = true ∧ sameName line.1 other = true)) =
        fun line => sameName line.1 other := by
    funext line
    cases hother : sameName line.1 other with
    | false => simp
    | true => simp [sameName_eq_false h hother]
  rw [first?, first?, List.find?_filter, hfind]

/-- Lines with another name are found as before. -/
theorem first?_joinLines_of_ne (h : sameName name other = false) :
    (headers.joinLines name).first? other = headers.first? other := by
  by_cases hvalues : headers.values name = []
  · rw [joinLines_of_nil hvalues]
  · rw [← first?_filter_of_ne headers h, joinLines_of_ne_nil hvalues, first?, first?,
      List.find?_cons_of_neg (by simp [h])]

theorem word?_joinLines_of_ne (h : sameName name other = false) :
    (headers.joinLines name).word? other = headers.word? other := by
  rw [word?, word?, text?, text?, first?_joinLines_of_ne h]

/-- Joined values are a text if each of them is. -/
theorem isText_intercalate {values : List String} (h : values ≠ []) :
    isText (",".intercalate values) = values.all isText := by
  induction values with
  | nil => exact absurd rfl h
  | cons value rest ih =>
    cases rest with
    | nil => simp
    | cons next more =>
      have hcomma : ",".toList.all isVisible = true := by decide
      rw [String.intercalate_cons_cons, isText, String.toList_append, String.toList_append,
        List.all_append, List.all_append, hcomma, Bool.and_true, ← isText, ← isText,
        ih (List.cons_ne_nil next more), ← List.all_cons]

end Http.Headers

/-! ## Hops -/

namespace Caller

open Http.Headers

variable {proxies : List Network} {line : String} {lines : List String}

theorem isBlank_comma : Text.isBlank ',' = false := by
  decide

theorem hops_cons (line : String) (lines : List String) :
    hops (line :: lines) = hops [line] ++ hops lines := by
  rw [hops, hops, hops, List.flatMap_cons, List.flatMap_singleton]

/-- Joined lines list the hops of all of them. -/
theorem hops_intercalate (h : lines ≠ []) : hops [",".intercalate lines] = hops lines := by
  have hcomma : ",".toList = [','] := by decide
  have hlines : lines.map String.toList ≠ [] := fun hnil => h (List.map_eq_nil_iff.mp hnil)
  rw [hops, hops, List.flatMap_singleton, String.toList_intercalate, hcomma,
    Text.split_intercalate hlines, List.flatMap_map, List.map_flatMap]

/-- Blanks at the ends of a line do not change the hops in it. -/
theorem hops_trim (line : String) : hops [Text.trim line] = hops [line] := by
  have hparts : ∀ parts : List (List Char), parts.map hopAddress? =
      (parts.map Text.trimChars).map fun part => Address.parse? (String.ofList part) := by
    intro parts
    rw [List.map_map]
    refine List.map_congr_left fun part _ => ?_
    rw [hopAddress?, Text.trim, String.toList_ofList]
    rfl
  rw [hops, hops, List.flatMap_singleton, List.flatMap_singleton, hparts, hparts,
    Text.map_trimChars_split_trim isBlank_comma]

/-- A line without anything in it lists a hop that is no address. -/
theorem hops_empty : hops [""] = [none] := by
  decide

theorem clientHop?_eq (proxies : List Network) (parts : List (List Char)) :
    clientHop? proxies parts =
      ((parts.map hopAddress?).find? fun hop => !isProxy proxies hop).join := by
  induction parts with
  | nil => rfl
  | cons part rest ih =>
    unfold clientHop?
    rw [List.map_cons, ← hopAddress?]
    cases hpart : hopAddress? part with
    | none => rfl
    | some client =>
      dsimp only
      rw [ih]
      cases htrusted : isTrusted proxies client with
      | true => rw [if_pos rfl, List.find?_cons_of_neg (by simp [isProxy, htrusted])]
      | false =>
        rw [if_neg Bool.false_ne_true, List.find?_cons_of_pos (by simp [isProxy, htrusted])]
        rfl

theorem forwardedFor?_eq (proxies : List Network) (line : String) :
    forwardedFor? proxies line = nearest? proxies (hops [line]) := by
  rw [forwardedFor?, clientHop?_eq, nearest?, hops, List.flatMap_singleton, List.map_reverse]

/-- The client is looked for in the first line only, with the blanks at its ends cut
off. -/
theorem word?_bind_forwardedFor? (headers : Http.Headers) (proxies : List Network) :
    (headers.word? hopsHeader).bind (forwardedFor? proxies) =
      clientOf? proxies ((headers.values hopsHeader).take 1) := by
  rw [word?, text?, first?_eq_head?]
  cases headers.values hopsHeader with
  | nil => rfl
  | cons line rest =>
    -- A line of blanks is no word; it lists a hop that is no address, and tells nothing.
    have hlines : (line :: rest).take 1 = [line] := rfl
    rw [List.head?_cons, hlines, clientOf?, List.all_cons, List.all_nil, Bool.and_true,
      ← hops_trim, Option.filter_some, ← isText]
    cases isText line with
    | false => rfl
    | true =>
      rw [if_pos rfl, if_pos rfl, Option.map_some, Option.filter_some]
      cases hempty : (Text.trim line).isEmpty with
      | true =>
        rw [String.isEmpty_iff.mp hempty, hops_empty]
        rfl
      | false =>
        rw [Bool.not_false, if_pos rfl, Option.bind_some, forwardedFor?_eq]

/-! ## Lines in front of others -/

/-- Joining lines does not change what they tell. -/
theorem clientOf?_intercalate (proxies : List Network) (h : lines ≠ []) :
    clientOf? proxies [",".intercalate lines] = clientOf? proxies lines := by
  rw [clientOf?, clientOf?, List.all_cons, List.all_nil, Bool.and_true, isText_intercalate h,
    hops_intercalate h]

/-- Farther hops count only behind trusted proxies. -/
theorem nearest?_append (proxies : List Network) (far near : List (Option Address)) :
    nearest? proxies (far ++ near) =
      if near.all (isProxy proxies) then nearest? proxies far else nearest? proxies near := by
  rw [nearest?, List.reverse_append, List.find?_append]
  cases hnear : near.reverse.find? fun hop => !isProxy proxies hop with
  | none =>
    have hall : near.all (isProxy proxies) = true := by
      rw [List.all_eq_true]
      intro hop hin
      simpa using List.find?_eq_none.mp hnear hop (List.mem_reverse.mpr hin)
    rw [if_pos hall, Option.none_or, nearest?]
  | some hop =>
    have hother : ¬near.all (isProxy proxies) = true := by
      intro hall
      have hin := List.mem_of_find?_eq_some hnear
      have hsome := List.find?_some hnear
      rw [List.all_eq_true.mp hall hop (List.mem_reverse.mp hin)] at hsome
      cases hsome
    rw [if_neg hother, Option.some_or, nearest?, hnear]

/-- Lines that list trusted proxies only do not matter behind another one. -/
theorem clientOf?_of_proxies (h : listProxies proxies lines = true) (line : String) :
    clientOf? proxies (line :: lines) = clientOf? proxies [line] := by
  rw [listProxies, Bool.and_eq_true] at h
  rw [clientOf?, clientOf?, List.all_cons, h.1, hops_cons, nearest?_append, if_pos h.2,
    List.all_cons, List.all_nil]

/-- A line does not matter in front of lines that list another hop. -/
theorem clientOf?_of_other (htext : (line :: lines).all isText = true)
    (h : listProxies proxies lines = false) :
    clientOf? proxies (line :: lines) = clientOf? proxies lines := by
  have hlines : lines.all isText = true := by
    rw [List.all_cons, Bool.and_eq_true] at htext
    exact htext.2
  rw [listProxies, hlines, Bool.true_and] at h
  rw [clientOf?, clientOf?, if_pos htext, if_pos hlines, hops_cons, nearest?_append, h,
    if_neg Bool.false_ne_true]

/-! ## Callers -/

variable {headers : Http.Headers} {peer : Address} {apiKeys : List String}

theorem identify_of_goesByHops (h : goesByHops headers peer apiKeys proxies = true) :
    identify headers peer apiKeys proxies =
      .address ((clientOf? proxies ((headers.values hopsHeader).take 1)).getD peer) := by
  simp only [goesByHops, Bool.and_eq_true, Option.isNone_iff_eq_none] at h
  obtain ⟨⟨hkey, hpeer⟩, hclient⟩ := h
  rw [identify, hkey, clientAddress, if_pos hpeer, hclient, word?_bind_forwardedFor?]

theorem values_joinLines (h : headers.values hopsHeader ≠ []) :
    ((headers.joinLines hopsHeader).values hopsHeader).take 1 =
      [",".intercalate (headers.values hopsHeader)] := by
  rw [List.take_one, ← first?_eq_head?, first?_joinLines h]
  rfl

theorem clientOf?_joinLines (headers : Http.Headers) (proxies : List Network) :
    clientOf? proxies (((headers.joinLines hopsHeader).values hopsHeader).take 1) =
      clientOf? proxies (headers.values hopsHeader) := by
  by_cases h : headers.values hopsHeader = []
  · rw [joinLines_of_nil h, h]
    rfl
  · rw [values_joinLines h, clientOf?_intercalate proxies h]

theorem sameName_keyHeader : sameName hopsHeader keyHeader = false := by
  decide +kernel

theorem sameName_clientHeader : sameName hopsHeader clientHeader = false := by
  decide +kernel

theorem goesByHops_joinLines (headers : Http.Headers) (peer : Address) (apiKeys : List String)
    (proxies : List Network) :
    goesByHops (headers.joinLines hopsHeader) peer apiKeys proxies =
      goesByHops headers peer apiKeys proxies := by
  rw [goesByHops, goesByHops, word?_joinLines_of_ne sameName_keyHeader,
    word?_joinLines_of_ne sameName_clientHeader]

/-- Whoever is not looked for in the hops is found without them. -/
theorem identify_joinLines_of_not (h : goesByHops headers peer apiKeys proxies = false) :
    identify (headers.joinLines hopsHeader) peer apiKeys proxies =
      identify headers peer apiKeys proxies := by
  rw [identify, identify, clientAddress, clientAddress,
    word?_joinLines_of_ne sameName_keyHeader, word?_joinLines_of_ne sameName_clientHeader]
  cases hkey : (headers.word? keyHeader).filter (apiKeys.contains ·) with
  | some key => rfl
  | none =>
    cases hpeer : isTrusted proxies peer with
    | false => rfl
    | true =>
      cases hclient : (headers.word? clientHeader).bind Address.parse? with
      | some client => rfl
      | none =>
        rw [goesByHops, hkey, hpeer, hclient] at h
        cases h

/-- A request is attributed as if its lines were joined exactly if it does not go by its
hops, or if the first line tells the same client as all of them together. It does where
the others list trusted proxies only. Where they list another hop, the joined lines tell
what these others tell, and the first line alone decides all the same. -/
theorem identify_lines (headers : Http.Headers) (peer : Address) (apiKeys : List String)
    (proxies : List Network) :
    let lines := headers.values hopsHeader
    let joined := headers.joinLines hopsHeader
    (identify headers peer apiKeys proxies = identify joined peer apiKeys proxies ↔
      goesByHops headers peer apiKeys proxies = false ∨
        (clientOf? proxies (lines.take 1)).getD peer = (clientOf? proxies lines).getD peer) ∧
    (goesByHops headers peer apiKeys proxies = true →
      identify headers peer apiKeys proxies =
        .address ((clientOf? proxies (lines.take 1)).getD peer) ∧
      identify joined peer apiKeys proxies = .address ((clientOf? proxies lines).getD peer)) ∧
    (listProxies proxies (lines.drop 1) = true →
      identify headers peer apiKeys proxies = identify joined peer apiKeys proxies) ∧
    (lines.all isText = true → listProxies proxies (lines.drop 1) = false →
      clientOf? proxies lines = clientOf? proxies (lines.drop 1)) := by
  intro lines joined
  have htold : goesByHops headers peer apiKeys proxies = true →
      identify headers peer apiKeys proxies =
        .address ((clientOf? proxies (lines.take 1)).getD peer) ∧
      identify joined peer apiKeys proxies =
        .address ((clientOf? proxies lines).getD peer) := by
    intro hgoes
    have hjoined := goesByHops_joinLines headers peer apiKeys proxies
    rw [hgoes] at hjoined
    rw [identify_of_goesByHops hgoes, identify_of_goesByHops hjoined, clientOf?_joinLines]
    exact ⟨rfl, rfl⟩
  have hsame : identify headers peer apiKeys proxies = identify joined peer apiKeys proxies ↔
      goesByHops headers peer apiKeys proxies = false ∨
        (clientOf? proxies (lines.take 1)).getD peer = (clientOf? proxies lines).getD peer := by
    cases hgoes : goesByHops headers peer apiKeys proxies with
    | false => exact iff_of_true (identify_joinLines_of_not hgoes).symm (.inl rfl)
    | true =>
      obtain ⟨hfirst, hjoined⟩ := htold hgoes
      rw [hfirst, hjoined, Caller.address.injEq]
      exact (or_iff_right nofun).symm
  refine ⟨hsame, htold, fun hproxies => hsame.mpr (.inr ?_), fun htext hother => ?_⟩
  · cases hlines : lines with
    | nil => rfl
    | cons line more =>
      rw [hlines] at hproxies
      exact congrArg (·.getD peer) (clientOf?_of_proxies hproxies line).symm
  · cases hlines : lines with
    | nil =>
      rw [hlines] at hother
      cases hother
    | cons line more =>
      rw [hlines] at htext hother
      exact clientOf?_of_other htext hother

/-- The trusted proxies of the requests below, which come from one of them. -/
def exProxies : List Network :=
  [⟨.v4 0x0a000000, 24, by decide⟩]

def exPeer : Address :=
  .v4 0x0a000009

/-- A line of the outer proxy, and one of the inner proxy. -/
def exRelayed : Http.Headers :=
  [(hopsHeader, "6.6.6.6, 5.6.7.8 "), (hopsHeader, " 10.0.0.1")]

/-- A line that the client has made up, and one of the proxy. -/
def exForged : Http.Headers :=
  [(hopsHeader, "6.6.6.6"), (hopsHeader, "5.6.7.8")]

/-- The client behind both proxies is found either way. -/
theorem identify_exRelayed :
    goesByHops exRelayed exPeer [] exProxies = true ∧
    identify exRelayed exPeer [] exProxies = .address (.v4 0x05060708) ∧
    identify (exRelayed.joinLines hopsHeader) exPeer [] exProxies =
      .address (.v4 0x05060708) ∧
    clientOf? exProxies (exForged.values hopsHeader) = some (.v4 0x05060708) := by
  have hgoes : goesByHops exRelayed exPeer [] exProxies = true := by decide +kernel
  have hclient : clientOf? exProxies ((exRelayed.values hopsHeader).take 1) =
      some (.v4 0x05060708) := by
    decide +kernel
  have hproxies : listProxies exProxies ((exRelayed.values hopsHeader).drop 1) = true := by
    decide +kernel
  obtain ⟨-, htold, hsame, -⟩ := identify_lines exRelayed exPeer [] exProxies
  obtain ⟨-, -, -, hother⟩ := identify_lines exForged exPeer [] exProxies
  obtain ⟨hfirst, -⟩ := htold hgoes
  rw [hclient] at hfirst
  have hlater : clientOf? exProxies ((exForged.values hopsHeader).drop 1) =
      some (.v4 0x05060708) := by
    decide +kernel
  exact ⟨hgoes, hfirst, (hsame hproxies).symm.trans hfirst,
    (hother (by decide +kernel) (by decide +kernel)).trans hlater⟩

/-- The client is whoever it claims to be in a line of its own. -/
theorem exForged_counts :
    goesByHops exForged exPeer [] exProxies = true ∧
    identify exForged exPeer [] exProxies = .address (.v4 0x06060606) ∧
    identify (exForged.joinLines hopsHeader) exPeer [] exProxies = .address (.v4 0x05060708) := by
  decide +kernel

end Caller

end Tollgate
