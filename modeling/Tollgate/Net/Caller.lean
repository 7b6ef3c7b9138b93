import Tollgate.Http.Message
import Tollgate.Net.Network

/-!
Who a request is attributed to.

A known API key wins. Otherwise it is an address: the one that the request came from, unless that is a
trusted proxy, whose word on the client's address is taken. Of the hops that proxies have listed, the
last one that is no trusted proxy is the client; everything before it may be made up.

Main statement: a caller with an API key and one without never share a key of the limiter.
-/

namespace Tollgate

/-- The identity that a request is limited under. -/
inductive Caller
  | apiKey (key : String)
  | address (client : Address)
deriving DecidableEq, Repr

namespace Caller

/-- The header that holds an API key. -/
def keyHeader : String := "x-api-key"

/-- The header in which a proxy tells the client's address. -/
def clientHeader : String := "x-real-ip"

/-- The header in which proxies list the hops of a request. -/
def hopsHeader : String := "x-forwarded-for"

/-- The caller's key in the limiter. -/
def limiterKey : Caller → String
  | .apiKey key => "key:" ++ key
  | .address client => "ip:" ++ client.text

def isTrusted (proxies : List Network) (hop : Address) : Bool :=
  proxies.any (·.contains hop)

/-- The first of these hops that is no trusted proxy, if all before it are addresses of trusted ones and
it is an address itself. -/
def clientHop? (proxies : List Network) : List (List Char) → Option Address
  | [] => none
  | hop :: further =>
    match Address.parse? (Text.trim (String.ofList hop)) with
    | none => none
    | some client =>
      if isTrusted proxies client then clientHop? proxies further else some client

/-- The client's address in a list of hops; the last hop is the nearest one. -/
def forwardedFor? (proxies : List Network) (hops : String) : Option Address :=
  clientHop? proxies (Text.split ',' hops.toList).reverse

/-- The address that a request from `peer` is attributed to. -/
def clientAddress (headers : Http.Headers) (peer : Address) (proxies : List Network) : Address :=
  if isTrusted proxies peer then
    match (headers.word? clientHeader).bind Address.parse? with
    | some client => client
    | none => ((headers.word? hopsHeader).bind (forwardedFor? proxies)).getD peer
  else peer

/-- The caller of a request with these headers from `peer`. -/
def identify (headers : Http.Headers) (peer : Address) (apiKeys : List String)
    (proxies : List Network) : Caller :=
  match (headers.word? keyHeader).filter (apiKeys.contains ·) with
  | some key => .apiKey key
  | none => .address (clientAddress headers peer proxies)

theorem limiterKey_apiKey_ne_address (key : String) (client : Address) :
    (apiKey key).limiterKey ≠ (address client).limiterKey := by
  intro equal
  have first := congrArg (fun s : String => s.toList.head?) equal
  have keyChars : "key:".toList = ['k', 'e', 'y', ':'] := by decide
  have addressChars : "ip:".toList = ['i', 'p', ':'] := by decide
  simp [limiterKey, String.toList_append, keyChars, addressChars] at first

end Caller

end Tollgate
