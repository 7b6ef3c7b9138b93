import Tollgate.Settings.Basic
import Tollgate.Toml.Path
import Tollgate.Toml.Reader

/-!
Settings that contradict themselves are refused before anything starts.

Of several faults the first one counts, in this order: the rate limits, the proxies, the baseline, the
window, and then site by site first its name and then its levels.
-/

namespace Tollgate.Settings

/-- Why settings are refused. -/
inductive Fault
  | rates (cause : Rate.IntervalFault)
  | proxy (cause : ProxyFault)
  | baseline
  | window
  | repeatedSite (siteKey : String)
  | profile (siteKey : String) (cause : Profile.Fault)
deriving Repr

def Fault.message : Fault → String
  | .rates cause => "Invalid [rate_limit]: " ++ cause.message
  | .proxy cause => cause.message
  | .baseline => "difficulty.baseline_rps must be positive"
  | .window => "difficulty.window_minutes must be at least 1"
  | .repeatedSite siteKey => "duplicate site_key '" ++ siteKey ++ "'"
  | .profile siteKey cause =>
    "Invalid difficulty for site '" ++ siteKey ++ "': " ++ cause.failure.message

/-- Checks names and profiles of sites; `seen` are the names of the sites before. -/
def validateSites (seen : List String) : List SiteSettings → Except Fault Unit
  | [] => .ok ()
  | site :: rest =>
    if site.siteKey ∈ seen then .error (.repeatedSite site.siteKey)
    else
      match site.profile.validate with
      | .error cause => .error (.profile site.siteKey cause)
      | .ok _ => validateSites (site.siteKey :: seen) rest

/-- Tells whether the settings are consistent, or the first fault. -/
def validate (s : Settings) : Except Fault Unit := do
  if let .error cause := s.rates.policy then throw (.rates cause)
  if let .error cause := s.networks then throw (.proxy cause)
  if s.difficulty.baseline.isNaN || s.difficulty.baseline <= 0.0 then throw .baseline
  if s.difficulty.windowMinutes = 0 then throw .window
  validateSites [] s.sites

/-- Settings given on the command line, which win over those of a file. -/
structure Overrides where
  storeUrl : Option String := none
  listenAddress : Option String := none
  secret : Option String := none
deriving DecidableEq, Repr

def override (s : Settings) (o : Overrides) : Settings :=
  { s with
    storeUrl := o.storeUrl.getD s.storeUrl
    listenAddress := o.listenAddress.getD s.listenAddress
    secret := o.secret.or s.secret }

/-- Why settings cannot be used. -/
inductive LoadFault
  | unreadable
  | misfit
  | inconsistent (cause : Fault)
deriving Repr

def LoadFault.message : LoadFault → String
  | .unreadable => "Failed to load config file"
  | .misfit => "Failed to parse config"
  | .inconsistent cause => cause.message

/-- The settings in the text of a file. Its quoted keys may be paths. -/
def ofToml (text : String) : Except Crash (Except LoadFault Settings) := do
  match Toml.read? text with
  | none => return .error .unreadable
  | some table =>
    match codec.toml (← table.spread) with
    | some s => return .ok s
    | none => return .error .misfit

/-- The settings in force: those of a file, if there is one, under those of the command line. -/
def load (file : Option String) (o : Overrides) : Except Crash (Except LoadFault Settings) := do
  let base ← match file with
    | none => pure (.ok {})
    | some text => ofToml text
  return do
    let s := (← base).override o
    match s.validate with
    | .ok _ => return s
    | .error cause => throw (.inconsistent cause)

end Tollgate.Settings
