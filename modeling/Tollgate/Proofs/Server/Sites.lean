import Mathlib.Data.List.Nodup
import Tollgate.Proofs.Difficulty.Span
import Tollgate.Settings.Consistency
import Tollgate.Sites

/-!
# Sites as they are configured

Settings that pass their checks name each site once, and give each a consistent
profile. The registry that is built from them has exactly the sites named, and
refreshes change nothing of a site but its level.

Results:
1. `validateSites_eq_ok_iff`: what the checks of all sites say.
2. `get?_put`, `get?_ofList`: looking a site up after one was put, and in a
   registry of sites under different keys.
3. `follows_ofSettings`, `Follows.put_refresh`: a registry follows the settings
   from the start, and after each refresh.
-/

namespace Tollgate

/-! ## Checks -/

namespace Settings

theorem validateSites_eq_ok_iff {seen : List String} {sites : List SiteSettings} :
    validateSites seen sites = .ok () ↔
      (sites.map SiteSettings.siteKey).Nodup ∧
        ∀ c ∈ sites, c.siteKey ∉ seen ∧ c.profile.Consistent := by
  induction sites generalizing seen with
  | nil => simp [validateSites]
  | cons c rest ih =>
    have hstep : validateSites seen (c :: rest) = .ok () ↔
        c.siteKey ∉ seen ∧ c.profile.Consistent ∧
          validateSites (c.siteKey :: seen) rest = .ok () := by
      rw [validateSites, ite_error_eq_ok_iff, ← Profile.validate_eq_ok_iff]
      cases c.profile.validate <;> simp
    rw [hstep, ih]
    -- The key of the first site is one that the others must not have.
    constructor
    · rintro ⟨hseen, hprofile, hnodup, hrest⟩
      have hothers : ∀ c' ∈ rest, c'.siteKey ∉ seen ∧ c'.profile.Consistent := fun c' hc' =>
        ⟨fun h => (hrest c' hc').1 (.tail _ h), (hrest c' hc').2⟩
      refine ⟨List.nodup_cons.mpr ⟨fun hin => ?_, hnodup⟩,
        List.forall_mem_cons.mpr ⟨⟨hseen, hprofile⟩, hothers⟩⟩
      obtain ⟨c', hc', hkey⟩ := List.mem_map.mp hin
      exact (hrest c' hc').1 (hkey ▸ List.mem_cons_self)
    · rintro ⟨hnodup, hall⟩
      obtain ⟨hfirst, hnodup⟩ := List.nodup_cons.mp hnodup
      obtain ⟨⟨hseen, hprofile⟩, hrest⟩ := List.forall_mem_cons.mp hall
      refine ⟨hseen, hprofile, hnodup, fun c' hc' => ⟨fun h => ?_, (hrest c' hc').2⟩⟩
      cases List.mem_cons.mp h with
      | inl hkey => exact hfirst (List.mem_map.mpr ⟨c', hc', hkey⟩)
      | inr hin => exact (hrest c' hc').1 hin

theorem validateSites_of_validate {s : Settings} (h : s.validate = .ok ()) :
    validateSites [] s.sites = .ok () := by
  simp only [validate, throw_bind] at h
  split at h
  · cases h
  · split at h
    · cases h
    · exact (ite_error_eq_ok_iff.mp (ite_error_eq_ok_iff.mp h).2).2

/-- Accepted settings name each site once, with a consistent profile. -/
theorem sites_of_validate {s : Settings} (h : s.validate = .ok ()) :
    (s.sites.map SiteSettings.siteKey).Nodup ∧ ∀ c ∈ s.sites, c.profile.Consistent := by
  obtain ⟨hnodup, hall⟩ := validateSites_eq_ok_iff.mp (validateSites_of_validate h)
  exact ⟨hnodup, fun c hc => (hall c hc).2⟩

end Settings

/-! ## Looking sites up -/

namespace SiteRegistry

variable {r : SiteRegistry} {site : Site} {siteKey : String} {sites : List Site}

theorem get?_put (r : SiteRegistry) (site : Site) (siteKey : String) :
    (r.put site).get? siteKey = if site.siteKey = siteKey then some site else r.get? siteKey := by
  unfold put
  split
  · next hin =>
    -- What is replaced is replaced by a site of the same key.
    have hkeys : ∀ old : Site,
        (if old.siteKey = site.siteKey then site else old).siteKey = old.siteKey := by
      intro old
      split
      · next h => exact h.symm
      · rfl
    simp only [get?, List.find?_map, Function.comp_def, hkeys]
    split
    · next h =>
      subst h
      obtain ⟨old, hold⟩ := Option.isSome_iff_exists.mp hin
      rw [get?] at hold
      rw [hold, Option.map_some, if_pos (siteKey_of_get? hold)]
    · next h =>
      cases hold : r.sites.find? (·.siteKey = siteKey) with
      | none => rfl
      | some old =>
        have hkey : old.siteKey = siteKey := siteKey_of_get? (r := r) hold
        rw [Option.map_some, if_neg (fun heq => h (heq.symm.trans hkey))]
  · next hout =>
    simp only [get?, List.find?_append, List.find?_singleton, decide_eq_true_eq]
    split
    · next h =>
      subst h
      rw [get?, Option.not_isSome_iff_eq_none] at hout
      rw [hout, Option.none_or]
    · rw [Option.or_none]

theorem get?_foldl_put (h : (sites.map Site.siteKey).Nodup) (r : SiteRegistry)
    (siteKey : String) :
    (sites.foldl put r).get? siteKey =
      (sites.find? (·.siteKey = siteKey)).or (r.get? siteKey) := by
  induction sites generalizing r with
  | nil => rfl
  | cons site rest ih =>
    obtain ⟨hfirst, hnodup⟩ := List.nodup_cons.mp h
    rw [List.foldl_cons, ih hnodup, get?_put, List.find?_cons]
    by_cases hkey : site.siteKey = siteKey
    · have hnone : rest.find? (·.siteKey = siteKey) = none := by
        rw [List.find?_eq_none]
        intro other hin hsame
        exact hfirst (List.mem_map.mpr ⟨other, hin, (of_decide_eq_true hsame).trans hkey.symm⟩)
      simp [hkey, hnone]
    · simp [hkey]

/-- Of several sites under one key the last one counts; here there are none such. -/
theorem get?_ofList (h : (sites.map Site.siteKey).Nodup) (siteKey : String) :
    (ofList sites).get? siteKey = sites.find? (·.siteKey = siteKey) := by
  rw [ofList, get?_foldl_put h]
  exact Option.or_none

end SiteRegistry

/-! ## Following the settings -/

/-- The site is one of the settings, at some level of its profile's span. -/
structure Site.Follows (site : Site) (c : SiteSettings) : Prop where
  siteKey : site.siteKey = c.siteKey
  owner : site.owner = c.owner
  profile : site.profile = c.profile
  replay : site.replay = c.replay
  stays : site.controller.Stays c.profile

theorem Site.follows_ofSettings {c : SiteSettings} (h : c.profile.Consistent) (baseline : Float)
    (settings : ControllerSettings) (now : Instant) :
    (ofSettings c baseline settings now).Follows c :=
  ⟨rfl, rfl, rfl, rfl, Controller.stays_new h _ _ _ _⟩

theorem Site.Follows.refresh {site : Site} {c : SiteSettings} (h : site.Follows c)
    (sample : Except Failure LoadSample) (now : Instant) :
    (site.refresh sample now).2.Follows c :=
  ⟨h.siteKey, h.owner, h.profile, h.replay, Controller.stays_refresh h.stays sample now⟩

namespace SiteRegistry

/-- The sites of a registry are those of some settings. -/
structure Follows (r : SiteRegistry) (configured : List SiteSettings) : Prop where
  exists_site : ∀ c ∈ configured, ∃ site, r.get? c.siteKey = some site ∧ site.Follows c
  exists_settings : ∀ {siteKey site}, r.get? siteKey = some site →
    ∃ c ∈ configured, c.siteKey = siteKey

variable {r : SiteRegistry} {configured : List SiteSettings} {siteKey : String} {site : Site}

theorem Follows.of_get? (h : r.Follows configured) (hsite : r.get? siteKey = some site) :
    ∃ c ∈ configured, c.siteKey = siteKey ∧ site.Follows c := by
  obtain ⟨c, hc, rfl⟩ := h.exists_settings hsite
  obtain ⟨site', hsite', hfollows⟩ := h.exists_site c hc
  obtain rfl := Option.some.inj (hsite'.symm.trans hsite)
  exact ⟨c, hc, rfl, hfollows⟩

theorem find?_siteKey {c : SiteSettings} (hnodup : (configured.map SiteSettings.siteKey).Nodup)
    (hc : c ∈ configured) : configured.find? (·.siteKey = c.siteKey) = some c := by
  cases hfind : configured.find? (·.siteKey = c.siteKey) with
  | none =>
    exact absurd (decide_eq_true rfl) (List.find?_eq_none.mp hfind c hc)
  | some c' =>
    have hsame : c'.siteKey = c.siteKey := by simpa using List.find?_some hfind
    exact congrArg some
      (List.inj_on_of_nodup_map hnodup (List.mem_of_find?_eq_some hfind) hc hsame)

theorem follows_ofSettings (hnodup : (configured.map SiteSettings.siteKey).Nodup)
    (hprofiles : ∀ c ∈ configured, c.profile.Consistent) (baseline : Float)
    (settings : ControllerSettings) (now : Instant) :
    (ofList (configured.map fun c => .ofSettings c baseline settings now)).Follows configured := by
  have hkeys : (configured.map fun c => Site.ofSettings c baseline settings now).map
      Site.siteKey = configured.map SiteSettings.siteKey := by
    rw [List.map_map]
    rfl
  constructor
  · intro c hc
    refine ⟨.ofSettings c baseline settings now, ?_,
      Site.follows_ofSettings (hprofiles c hc) _ _ _⟩
    rw [get?_ofList (hkeys ▸ hnodup), List.find?_map]
    exact congrArg _ (find?_siteKey hnodup hc)
  · intro siteKey site hsite
    have hkey := siteKey_of_get? hsite
    rw [get?_ofList (hkeys ▸ hnodup)] at hsite
    obtain ⟨c, hc, rfl⟩ := List.mem_map.mp (List.mem_of_find?_eq_some hsite)
    exact ⟨c, hc, hkey⟩

/-- A refresh of the load changes a site's level, and no other site. -/
theorem Follows.put_refresh (h : r.Follows configured) (hsite : r.get? siteKey = some site)
    (sample : Except Failure LoadSample) (now : Instant) :
    (r.put (site.refresh sample now).2).Follows configured := by
  have hkey : (site.refresh sample now).2.siteKey = siteKey :=
    show site.siteKey = siteKey from siteKey_of_get? hsite
  constructor
  · intro c hc
    rw [get?_put, hkey]
    obtain ⟨site', hsite', hfollows⟩ := h.exists_site c hc
    split
    · next heq =>
      subst heq
      obtain rfl := Option.some.inj (hsite'.symm.trans hsite)
      exact ⟨_, rfl, hfollows.refresh sample now⟩
    · exact ⟨site', hsite', hfollows⟩
  · intro other site' hsite'
    rw [get?_put, hkey] at hsite'
    split at hsite'
    · next heq => exact heq ▸ h.exists_settings hsite
    · exact h.exists_settings hsite'

end SiteRegistry

end Tollgate
