import Tollgate.Store
import Tollgate.Verify.Replay

/-!
Counting presentations in the shared store.

The counter of a puzzle lives as long as the puzzle may still be accepted: every presentation sets that
time anew, and it only shrinks as the puzzle ages.
-/

namespace Tollgate

/-- What the keys of all counts of presentations begin with. -/
def ReplayKey.label : String := "replay:"

/-- The key that the presentations of a puzzle count under. -/
def ReplayKey.storeKey (key : ReplayKey) : String :=
  label ++ key.display

/-- Counts a presentation at an instant; a count below zero is beyond every limit. -/
def Store.present (now : Instant) : Tracker Store := fun p store =>
  let seconds := min (max 1 p.ttl.seconds) 0x7fffffffffffffff
  match store.countUp now p.key.storeKey seconds with
  | (.ok count, store) => (.ok (.ok (0 ≤ count ∧ count ≤ p.limit.toNat)), store)
  | (.error fault, store) => (.ok (.error ⟨.replayStore, fault.message⟩), store)

end Tollgate
