import Tollgate.Server.Administration
import Tollgate.Server.Challenge
import Tollgate.Server.Status

/-!
Which requests the service knows, and how they are answered.

Pages of other origins may ask for puzzles and submit solutions; these resources, and paths that lead
nowhere, therefore answer every origin, and answer `OPTIONS` by themselves.
-/

namespace Tollgate

/-- The resources of the service. -/
inductive Route
  | health
  | ready
  | metrics
  | puzzle
  | verify
  | rateLimits
  | promote
  | difficulty
  /-- Holds a segment of the path as it was written, which may be empty. -/
  | refresh (segment : String)
deriving DecidableEq, Repr

namespace Route

def ofSegments? : List String → Option Route
  | ["health"] => some .health
  | ["ready"] => some .ready
  | ["metrics"] => some .metrics
  | ["puzzle"] => some .puzzle
  | ["verify"] => some .verify
  | ["admin", "rate-limits"] => some .rateLimits
  | ["admin", "promote"] => some .promote
  | ["admin", "difficulty"] => some .difficulty
  | ["admin", "difficulty", segment, "refresh"] => some (.refresh segment)
  | _ => none

def ofRequest? (r : Http.Request) : Option Route := do
  ofSegments? ((← r.segments?).map String.ofList)

/-- Whether the resource can be looked at. -/
def isReadable : Route → Bool
  | .health | .ready | .metrics | .puzzle | .rateLimits | .difficulty => true
  | .verify | .promote | .refresh _ => false

/-- Whether the resource takes requests with a body. -/
def isWritable : Route → Bool
  | .verify | .rateLimits | .promote | .refresh _ => true
  | .health | .ready | .metrics | .puzzle | .difficulty => false

/-- Whether pages of other origins may use the resource. -/
def isShared : Route → Bool
  | .puzzle | .verify => true
  | _ => false

/-- The methods that the resource knows. -/
def allow (route : Route) : String :=
  ",".intercalate ((if route.isReadable then ["GET", "HEAD"] else []) ++
    (if route.isWritable then ["POST"] else []))

end Route

/-- Lets pages of every origin see a response. -/
def Http.Response.forEveryOrigin (r : Http.Response) : Http.Response :=
  r.withHeader "access-control-allow-origin" "*"

namespace Server

/-- Answers a request with a body, or refuses the body. -/
def withBody {α : Type} (codec : Codec α) (r : Http.Request) (s : Server)
    (answer : α → Answer × Server) : Answer × Server :=
  match r.read codec with
  | .ok body => answer body
  | .error fault => (.ok (.ofBodyFault fault), s)

/-- Answers a request to look at a resource. -/
def get (s : Server) (r : Http.Request) (chance : Chance) (now : Moment) : Route → Answer × Server
  | .health => (health, s)
  | .ready => (s.ready, s)
  | .metrics => (s.metrics now.clock, s)
  | .puzzle =>
    match PuzzleQuery.ofQuery? r.query with
    | some query => s.handOut query (s.callerOf r) chance now
    | none => (.ok (.plain 400 "the query does not name a site"), s)
  | .rateLimits => (s.showPolicy, s)
  | .difficulty => (s.showDifficulty now.clock, s)
  | .verify | .promote | .refresh _ => (.ok ⟨405, [], .empty⟩, s)

/-- Answers a request with a body. -/
def post (s : Server) (r : Http.Request) (now : Moment) : Route → Answer × Server
  | .verify => s.checkSubmission (r.read VerifyRequest.codec) (s.callerOf r) now
  | .rateLimits => s.withBody PolicyBody.codec r fun body => s.changePolicy body
  | .promote => s.withBody PromoteRequest.codec r fun body => s.promote body now.clock
  | .refresh segment =>
    match Http.segmentText? segment.toList with
    | some siteKey => s.refresh siteKey now
    | none => (.ok (.plain 400 "the path is not UTF-8"), s)
  | .health | .ready | .metrics | .puzzle | .difficulty => (.ok ⟨405, [], .empty⟩, s)

/-- Answers a request for a resource. What the resource does not know is answered with the methods that
it does. -/
def dispatch (s : Server) (r : Http.Request) (chance : Chance) (now : Moment) (route : Route) :
    Answer × Server :=
  let refusal := (Http.Response.mk 405 [] .empty).withHeader "allow" route.allow
  match r.method with
  | .get => if route.isReadable then s.get r chance now route else (.ok refusal, s)
  | .head =>
    if route.isReadable then
      let (answer, s) := s.get r chance now route
      (answer.map (·.withoutBody), s)
    else (.ok refusal, s)
  | .post => if route.isWritable then s.post r now route else (.ok refusal, s)
  | .options =>
    (.ok (if route.isShared then { refusal with status := 200 } else refusal), s)
  | .other => (.ok refusal, s)

/-- Answers a request. -/
def handle (s : Server) (r : Http.Request) (chance : Chance) (now : Moment) : Answer × Server :=
  match Route.ofRequest? r with
  | none =>
    let status := if r.method = .options then 200 else 404
    (.ok (Http.Response.mk status [] .empty).forEveryOrigin, s)
  | some route =>
    let (answer, s) := s.dispatch r chance now route
    (if route.isShared then answer.map (·.forEveryOrigin) else answer, s)

end Server

end Tollgate
