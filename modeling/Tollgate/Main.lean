import Std.Time
import Tollgate.Solver.Program

/-!
The solver on the command line: reads clocks and standard input, searches on several threads, and writes
what the run leaves behind.
-/

namespace Tollgate.Solver

/-- How many threads there are taken to be. -/
def defaultCores : Nat := 4

/-- How many nonces a thread tries between two looks at the clock. -/
def stride : UInt64 := 4096

def wallClock : IO Timestamp := do
  let now ← Std.Time.Timestamp.now
  return ⟨now.toNanosecondsSinceUnixEpoch.val⟩

def report (r : Result) : IO UInt32 := do
  r.messages.forM IO.eprintln
  r.output.forM IO.println
  return r.code.toUInt32

/-- Tries the nonces of an index from `start` on, until one is found or the deadline has come. -/
partial def searchIndex (w : Work) (index : UInt8) (deadline : Option Nat) (tried : IO.Ref UInt64)
    (start : UInt64) : IO (Option UInt64) := do
  let last := if lastTried - start < stride then lastTried else start + (stride - 1)
  let found := w.solveUpTo index last start
  tried.modify (· + (found.getD last - start + 1))
  let now ← IO.monoNanosNow
  if found.isSome || last == lastTried || deadline.any (· ≤ now) then return found
  searchIndex w index deadline tried (last + 1)

/-- Searches every index that is left over after `share` others, `threads` apart. -/
def searchShare (w : Work) (solutions threads share : Nat) (deadline : Option Nat)
    (tried : IO.Ref UInt64) : IO (List (Nat × Option UInt64)) :=
  ((List.range solutions).filter (· % threads = share)).mapM fun index => do
    return (index, ← searchIndex w index.toUInt8 deadline tried 0)

/-- Searches all indices of a job. -/
def searchAll (job : Job) (threads : Nat) (deadline : Option Nat) (tried : IO.Ref UInt64) :
    IO (Option (List UInt64)) := do
  let w := Work.ofPuzzle job.puzzle
  let tasks ← (List.range threads).mapM fun share =>
    IO.asTask (searchShare w job.puzzle.solutions.toNat threads share deadline tried) .dedicated
  let found ← tasks.mapM fun task => IO.ofExcept task.get
  return assemble job.puzzle.solutions fun index => (found.flatten.lookup index.toNat).join

/-- Measures how many hashes all threads compute in a second. -/
def measureRate (job : Job) : IO UInt64 := do
  let w := Work.ofPuzzle job.puzzle
  let rounds := 50000
  let zeros ← IO.mkRef 0
  let start ← IO.monoNanosNow
  (List.range rounds).forM fun nonce =>
    zeros.modify (· + leadingZeroBits (w.hash 0 nonce.toUInt64))
  let elapsed := (← IO.monoNanosNow) - start
  return (rounds * 1000000000 / max elapsed 1 * defaultCores).toUInt64

def solve (job : Job) : IO UInt32 := do
  let now ← wallClock
  let head := (job.headLines now).length
  (job.headLines now).forM IO.eprintln
  let withoutHead := fun (r : Result) => report { r with messages := r.messages.drop head }
  if job.options.estimate then
    withoutHead (job.estimate now (← measureRate job))
  else
    let threads := max 1 (job.threads defaultCores)
    let tried ← IO.mkRef 0
    let start ← IO.monoNanosNow
    let deadline :=
      if job.options.timeout = 0 then none else some (start + job.options.timeout * 1000000000)
    let found ← searchAll job threads deadline tried
    let finish ← IO.monoNanosNow
    let ending := Job.Ending.of found (deadline.any (· ≤ finish))
    withoutHead (job.finish now threads ending (← tried.get) (.ofNanos (finish - start)))

end Tollgate.Solver

open Tollgate Solver in
def main (arguments : List String) : IO UInt32 := do
  let command := Command.ofArguments arguments
  let input ← if command.readsInput then (← IO.getStdin).getLine else pure ""
  match start command input with
  | .error result => report result
  | .ok job => solve job
