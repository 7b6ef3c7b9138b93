import Tollgate.Difficulty.Load
import Tollgate.Store
import Tollgate.Time.Moment

/-!
Counts of requests per site and minute, kept in the shared store.

Every request counts under the key of its site and minute; a sample reads the complete minutes before
the current one. A counter lives two minutes longer than the span that samples look back on.
-/

namespace Tollgate.LoadSeries

/-- What the keys of all counts of requests begin with. -/
def label : String := "load:"

/-- The key that the requests of one minute count under. -/
def key (siteKey : String) (minute : Int) : String :=
  label ++ siteKey ++ ":" ++ toString minute

/-- The minute since 1970 that a point of time lies in. -/
def minute (now : Timestamp) : Int :=
  now.seconds / 60

/-- The keys of the last `window` complete minutes, the oldest first. -/
def windowKeys (siteKey : String) (now : Timestamp) (window : Nat) : List String :=
  (List.range window).map fun (i : Nat) => key siteKey (minute now - ((window - i : Nat) : Int))

/-- The seconds that a counter lives after it was last counted up. -/
def lifetime (window : Nat) : Nat :=
  (window + 2) * 60

/-- Counts a request. -/
def record (store : Store) (siteKey : String) (window : Nat) (now : Moment) :
    Except Store.Fault Int × Store :=
  store.countUp now.clock (key siteKey (minute now.wall)) (lifetime window)

/-- The counts of the last complete minutes, of at least one. -/
def sample (store : Store) (siteKey : String) (window : Nat) (now : Moment) :
    Except Failure LoadSample :=
  match store.counts now.clock (windowKeys siteKey now.wall (max window 1)) with
  | .ok counts => .ok (.perMinute (counts.map (·.toUInt64)))
  | .error fault => .error ⟨.loadSource, siteKey ++ ": " ++ fault.message⟩

end Tollgate.LoadSeries
