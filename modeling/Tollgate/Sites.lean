import Tollgate.Puzzle.Issue
import Tollgate.Settings.Basic
import Tollgate.Verify.Verifier

/-!
Protected sites, each with a difficulty of its own.

Main statement: a site that is looked up has the key that was looked up.
-/

namespace Tollgate

/-- A site as it is configured, and its live difficulty. -/
structure Site where
  siteKey : String
  owner : Owner
  profile : Profile
  replay : ReplayPolicy
  controller : Controller

namespace Site

/-- The site of some settings; its difficulty follows the load on it. -/
def ofSettings (s : SiteSettings) (baseline : Float) (settings : ControllerSettings)
    (now : Instant) : Site where
  siteKey := s.siteKey
  owner := s.owner
  profile := s.profile
  replay := s.replay
  controller := .new s.siteKey (LogGrowth.of s.profile baseline).strategy settings now

/-- What puzzles to issue: at the level in force, and not below `floor` if there is one. -/
def params (s : Site) (floor : Option Level) : PuzzleParams where
  owner := s.owner
  difficulty := floor.elim s.controller.level fun floor => s.controller.level.sup floor
  solutions := s.profile.solutions
  validity := s.profile.validity

/-- Takes in a sample of the load, or the failure to get one. -/
def refresh (s : Site) (sample : Except Failure LoadSample) (now : Instant) :
    Except Failure Snapshot × Site :=
  let (answer, controller) := s.controller.refresh sample now
  (answer, { s with controller })

end Site

/-- All sites, no two of them under one key. -/
structure SiteRegistry where
  sites : List Site

namespace SiteRegistry

def size (r : SiteRegistry) : Nat :=
  r.sites.length

def get? (r : SiteRegistry) (siteKey : String) : Option Site :=
  r.sites.find? (·.siteKey = siteKey)

/-- Puts a site under its key, in place of the one there was. -/
def put (r : SiteRegistry) (site : Site) : SiteRegistry :=
  if (r.get? site.siteKey).isSome then
    ⟨r.sites.map fun old => if old.siteKey = site.siteKey then site else old⟩
  else ⟨r.sites ++ [site]⟩

/-- The registry of some sites; of several under one key the last one counts. -/
def ofList (sites : List Site) : SiteRegistry :=
  sites.foldl put ⟨[]⟩

/-- The sites in the order of their keys. -/
def sorted (r : SiteRegistry) : List Site :=
  r.sites.mergeSort fun x y => x.siteKey ≤ y.siteKey

/-- What a submission that names a site is verified against. -/
def resource (r : SiteRegistry) (siteKey : String) : Resource :=
  match r.get? siteKey with
  | some site => { owner := .ok site.owner, policy := site.replay }
  | none =>
    let failure : Failure := ⟨.ownerResolution, "unknown site key '" ++ siteKey ++ "'"⟩
    { owner := .error failure, policy := .singleUse }

theorem siteKey_of_get? {r : SiteRegistry} {siteKey : String} {site : Site}
    (found : r.get? siteKey = some site) : site.siteKey = siteKey := by
  simpa using List.find?_some found

end SiteRegistry

end Tollgate
