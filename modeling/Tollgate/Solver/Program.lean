import Tollgate.Json.Value
import Tollgate.Solver.Options
import Tollgate.Solver.Quantity
import Tollgate.Solver.Search

/-!
The solver as a program: from its command line to what it writes and the code it ends with.

What can only be measured, such as how fast the machine is, is handed in.
-/

namespace Tollgate.Solver

/-- What a run of the program leaves behind. -/
structure Result where
  code : Nat
  /-- The lines on standard error. -/
  messages : List String
  /-- The line on standard output. -/
  output : Option String
deriving DecidableEq, Repr

/-- The token that an argument stands for. -/
def tokenOf (argument input : String) : String :=
  if argument = "-" then Text.trim (String.ofList (input.toList.takeWhile (· ≠ '\n')))
  else Text.trim argument

/-- A puzzle to be solved, and how. -/
structure Job where
  options : Options
  token : String
  puzzle : Puzzle

namespace Job

/-- The job that some options describe. -/
def ofOptions (options : Options) (input : String) : Except Token.Fault Job :=
  let token := tokenOf options.token input
  (Token.decode token).map fun decoded => ⟨options, token, decoded.puzzle⟩

/-- The result where there is no job. -/
def refusal (fault : Token.Fault) : Result :=
  ⟨1, ["Error: invalid puzzle token: " ++ fault.message], none⟩

/-- What is told about a puzzle before work begins. -/
def headLines (job : Job) (now : Timestamp) : List String :=
  let p := job.puzzle
  let expiry :=
    if p.isExpired now 0 then "⚠️  Puzzle already expired; the verifier will reject it"
    else "Expires in: " ++ secondsText (p.remainingSeconds now).toUInt64
  let timeout :=
    if job.options.timeout = 0 then [] else ["Timeout: " ++ toString job.options.timeout ++ "s"]
  ["🧩 Bulwark Solver",
    "=================",
    "Puzzle: " ++ Text.Hex.ofWord p.id,
    "Owner: " ++ p.owner.display,
    "Difficulty: " ++ toString p.difficulty.bits.toNat ++ " bits x " ++
      toString p.solutions.toNat ++ " solutions",
    "Expected attempts: ~" ++ countText (expectedAttempts p),
    expiry] ++ timeout

/-- The result of an estimate, for a number of hashes per second. -/
def estimate (job : Job) (now : Timestamp) (rate : UInt64) : Result :=
  let seconds := expectedAttempts job.puzzle / max rate 1
  ⟨0, job.headLines now ++ [
    "Estimated rate: ~" ++ countText rate ++ "/sec",
    "Estimated time: " ++ secondsText seconds], none⟩

/-- Tries the nonces of all indices up to `last`. -/
def search (job : Job) (last : UInt64) : Option (List UInt64) :=
  Solver.search (Work.ofPuzzle job.puzzle) job.puzzle.solutions last

/-- The submission of some nonces. -/
def payload (job : Job) (nonces : List UInt64) : String :=
  Submission.encode job.token nonces

/-- What is written to standard output. -/
def output (job : Job) (nonces : List UInt64) (attempts : UInt64) (elapsed : Duration) : String :=
  if job.options.json then
    Json.compact (.object [
      ("payload", .text (job.payload nonces)),
      ("difficulty", .integer job.puzzle.difficulty.bits.toNat),
      ("solutions", .integer job.puzzle.solutions.toNat),
      ("attempts", .integer attempts.toNat),
      ("elapsed_ms", .integer elapsed.millis)])
  else job.payload nonces

/-- How a search ends. -/
inductive Ending
  | solved (nonces : List UInt64)
  | outOfTime
  /-- Some index has no solution. -/
  | exhausted
deriving DecidableEq, Repr

/-- How a search ends that has found these nonces, if one for each index, and was told to stop or not. -/
def Ending.of (found : Option (List UInt64)) (stopped : Bool) : Ending :=
  match found with
  | some nonces => .solved nonces
  | none => if stopped then .outOfTime else .exhausted

/-- The result of a search that took some attempts and some time on some threads. -/
def finish (job : Job) (now : Timestamp) (threads : Nat) (ending : Ending) (attempts : UInt64)
    (elapsed : Duration) : Result :=
  let before := job.headLines now ++ ["Threads: " ++ toString threads, ""]
  match ending with
  | .solved nonces =>
    let rate := attempts / max elapsed.seconds.toUInt64 1
    ⟨0, before ++ [
      "✅ Solved!",
      "📊 Statistics:",
      "   Attempts: " ++ countText attempts,
      "   Time: " ++ elapsedText elapsed,
      "   Rate: " ++ countText rate ++ "/s"], some (job.output nonces attempts elapsed)⟩
  | .outOfTime =>
    ⟨2, before ++ [
      "",
      "⏱️  Search stopped after " ++ elapsedText elapsed ++ ":",
      "   Attempts: " ++ countText attempts,
      "",
      "💡 Increase --timeout or use --estimate first"], none⟩
  | .exhausted => ⟨1, before ++ ["❌ Search interrupted or failed"], none⟩

/-- What may be left behind where the searches end with these nonces and may have been told to stop.
Whatever is measured may be anything. -/
structure MayLeave (job : Job) (stopped : Bool) (nonceOf : UInt8 → Option UInt64) (result : Result) :
    Prop where
  searched : ∃ flag, Searched (.ofPuzzle job.puzzle) job.puzzle.solutions flag nonceOf ∧
    ∀ index nonce, flag index nonce = true → stopped = true
  finished : ∃ now threads attempts elapsed, result = job.finish now threads
    (.of (assemble job.puzzle.solutions nonceOf) stopped) attempts elapsed

/-- What a run is given besides its command line. -/
structure Conditions where
  now : Timestamp
  /-- How many threads there are. -/
  cores : Nat
  /-- How many hashes are computed in a second. -/
  rate : UInt64
  /-- The last nonce that a search has the time to try, if its time is limited. -/
  last : UInt64
  elapsed : Duration

/-- How many threads the job takes of those there are. -/
def threads (job : Job) (cores : Nat) : Nat :=
  if job.options.threads = 0 then cores else job.options.threads

/-- The last nonce that is tried, if a limited time is enough for the nonces up to `last`. -/
def lastInTime (job : Job) (last : UInt64) : UInt64 :=
  if job.options.timeout = 0 ∨ lastTried < last then lastTried else last

/-- How a search ends that goes through the nonces one by one, and stops where its time is over. -/
def ending (job : Job) (last : UInt64) : Ending :=
  .of (job.search (job.lastInTime last)) (job.lastInTime last < lastTried)

/-- The result of a job under some conditions. -/
def run (job : Job) (c : Conditions) : Result :=
  if job.options.estimate then job.estimate c.now c.rate
  else
    let ending := job.ending c.last
    let tried := match ending with
      | .solved nonces => (attempts nonces).toUInt64
      | .outOfTime | .exhausted => 0
    job.finish c.now (job.threads c.cores) ending tried c.elapsed

end Job

/-- How the program is used. -/
def usage : String :=
  "Usage: solver --token <TOKEN> [--threads <N>] [--timeout <SECONDS>] [--estimate] [--json]"

/-- The version of the program. -/
def version : String := "0.1.0"

/-- What a command line leads to: a job, or a result at once. -/
def start (command : Command) (input : String) : Except Result Job :=
  match command with
  | .misuse => .error ⟨2, [usage], none⟩
  | .help => .error ⟨0, [], some usage⟩
  | .version => .error ⟨0, [], some version⟩
  | .solve options => (Job.ofOptions options input).mapError Job.refusal

/-- The result of a command line under some conditions. -/
def run (arguments : List String) (input : String) (c : Job.Conditions) : Result :=
  match start (.ofArguments arguments) input with
  | .error result => result
  | .ok job => job.run c

end Tollgate.Solver
