import Tollgate.Recency

/-!
# What operations do to a recency map

Looking a key up depends on the entries only, not on their order; the order
decides what is dropped. This module says, for each operation, which entries
remain and what is found afterwards.

Results:
1. `mem_entries_put`, `mem_entries_dropOldest`, `mem_entries_filter`: the
   entries after an operation are old ones, or the one just put.
2. `nodup_keys_put`, `nodup_keys_dropOldest`, `nodup_keys_filter`: no operation
   gives a key two entries.
3. `find?_dropOldest`, `find?_filter`: dropping takes entries away and changes
   none.
4. `find?_touch`, `mem_keys_touch`, `nodup_keys_touch`: a touch changes the
   order only.
5. `keys_put`, `keys_dropOldest`: the keys in the order of their last touch.
6. `find?_dropOldest_of_ne`, `find?_dropOldest_self`: exactly the key touched
   longest ago is dropped.
7. `put_mapValues`, `dropOldest_mapValues`, `filter_mapValues`, `find?_mapValues`: the
   order is the same whatever the values are.
-/

namespace Tollgate.Recency

variable {K V : Type} {r : Recency K V} {entry : K × V} {k : K} {v : V}

/-! ## Dropping -/

theorem mem_entries_dropOldest (h : entry ∈ r.dropOldest.entries) : entry ∈ r.entries :=
  List.dropLast_subset _ h

theorem nodup_keys_dropOldest (h : r.keys.Nodup) : r.dropOldest.keys.Nodup :=
  h.sublist ((List.dropLast_sublist _).map _)

theorem size_eq_length_keys (r : Recency K V) : r.size = r.keys.length :=
  (List.length_map _).symm

theorem keys_dropOldest (r : Recency K V) : r.dropOldest.keys = r.keys.dropLast :=
  List.map_dropLast

theorem entries_of_oldest? (h : r.oldest? = some (k, v)) :
    r.entries = r.dropOldest.entries ++ [(k, v)] := by
  obtain ⟨init, hinit⟩ := List.getLast?_eq_some_iff.mp h
  rw [dropOldest, hinit, List.dropLast_concat]

theorem keys_of_oldest? (h : r.oldest? = some (k, v)) : r.keys = r.dropOldest.keys ++ [k] := by
  rw [keys, entries_of_oldest? h, List.map_append]
  rfl

theorem mem_entries_filter {kind : K → V → Bool} :
    entry ∈ (r.filter kind).entries ↔ entry ∈ r.entries ∧ kind entry.1 entry.2 = true := by
  simp [filter]

theorem nodup_keys_filter (kind : K → V → Bool) (h : r.keys.Nodup) : (r.filter kind).keys.Nodup :=
  h.sublist (List.filter_sublist.map _)

/-! ## Other values -/

section Values

variable {W : Type} (f : V → W)

/-- The same keys in the same order, with other values. -/
def mapValues (r : Recency K V) : Recency K W :=
  ⟨r.entries.map fun entry => (entry.1, f entry.2)⟩

theorem keys_mapValues (r : Recency K V) : (r.mapValues f).keys = r.keys := by
  simp [mapValues, keys, Function.comp_def]

theorem isEmpty_mapValues (r : Recency K V) : (r.mapValues f).isEmpty = r.isEmpty :=
  List.isEmpty_map

theorem dropOldest_mapValues (r : Recency K V) :
    (r.mapValues f).dropOldest = r.dropOldest.mapValues f :=
  congrArg mk List.map_dropLast.symm

theorem filter_mapValues (kind : K → W → Bool) (r : Recency K V) :
    (r.mapValues f).filter kind = (r.filter fun k v => kind k (f v)).mapValues f := by
  simp [mapValues, filter, List.filter_map, Function.comp_def]

end Values

variable [DecidableEq K]

/-! ## Looking up -/

/-- With one entry for each key, a key is found exactly where its entry is. -/
theorem find?_eq_some_iff (h : r.keys.Nodup) : r.find? k = some v ↔ (k, v) ∈ r.entries := by
  obtain ⟨entries⟩ := r
  induction entries with
  | nil => simp [find?]
  | cons first rest ih =>
    obtain ⟨k', v'⟩ := first
    simp only [keys, List.map_cons, List.nodup_cons] at h
    have hrest := ih h.2
    by_cases hk : k' = k
    · subst hk
      have hout : (k', v) ∉ rest := fun hin => h.1 (List.mem_map_of_mem (f := Prod.fst) hin)
      simp [find?, hout, eq_comm]
    · simpa [find?, hk, Ne.symm hk] using hrest

/-- Only the oldest entry can go, so another key is found as before. -/
theorem find?_dropOldest (r : Recency K V) (k : K) :
    r.dropOldest.find? k = r.find? k ∨ r.dropOldest.find? k = none := by
  rcases List.eq_nil_or_concat r.entries with hnil | ⟨init, last, hlast⟩
  · exact .inl (by simp [dropOldest, find?, hnil])
  · simp only [dropOldest, find?, hlast, List.concat_eq_append, List.dropLast_concat,
      List.find?_append]
    cases init.find? fun entry => decide (entry.1 = k) with
    | none => exact .inr rfl
    | some found => exact .inl rfl

theorem find?_filter (kind : K → V → Bool) (h : r.keys.Nodup) :
    (r.filter kind).find? k = (r.find? k).filter (kind k) := by
  ext v
  rw [find?_eq_some_iff (nodup_keys_filter kind h), mem_entries_filter, Option.filter_eq_some_iff,
    find?_eq_some_iff h]

theorem find?_mapValues {W : Type} (f : V → W) (r : Recency K V) (k : K) :
    (r.mapValues f).find? k = (r.find? k).map f := by
  simp [mapValues, find?, List.find?_map, Function.comp_def]

/-! ## Putting -/

theorem put_mapValues {W : Type} (f : V → W) (r : Recency K V) (k : K) (v : V) :
    (r.mapValues f).put k (f v) = (r.put k v).mapValues f := by
  simp [mapValues, put, erase, List.filter_map, Function.comp_def]

theorem mem_entries_put :
    entry ∈ (r.put k v).entries ↔ entry = (k, v) ∨ (entry ∈ r.entries ∧ entry.1 ≠ k) := by
  simp [put, erase]

theorem nodup_keys_put (k : K) (v : V) (h : r.keys.Nodup) : (r.put k v).keys.Nodup := by
  have herase : (r.erase k).keys.Nodup := h.sublist (List.filter_sublist.map _)
  have hout : k ∉ (r.erase k).keys := by
    intro hin
    obtain ⟨entry, hentry, hk⟩ := List.mem_map.mp hin
    simp only [erase, List.mem_filter, decide_eq_true_eq] at hentry
    exact hentry.2 hk
  exact List.nodup_cons.mpr ⟨hout, herase⟩

/-! ## Touching -/

theorem mem_keys_of_find? (h : r.find? k = some v) : k ∈ r.keys := by
  obtain ⟨entry, hentry, -⟩ := Option.map_eq_some_iff.mp h
  have hk : entry.1 = k := by simpa using List.find?_some hentry
  exact List.mem_map.mpr ⟨entry, List.mem_of_find?_eq_some hentry, hk⟩

theorem contains_iff_mem_keys : r.contains k = true ↔ k ∈ r.keys := by
  simp [contains, keys]

theorem find?_touch (r : Recency K V) (k k' : K) : (r.touch k).find? k' = r.find? k' := by
  unfold touch
  split
  · next v hfind =>
    by_cases hk : k' = k
    · rw [hk, find?_put_self, hfind]
    · exact find?_put_of_ne r v hk
  · rfl

theorem mem_keys_put {k' : K} (h : k' ∈ (r.put k v).keys) : k' = k ∨ k' ∈ r.keys := by
  obtain ⟨entry, hentry, rfl⟩ := List.mem_map.mp h
  rcases mem_entries_put.mp hentry with rfl | ⟨hold, -⟩
  · exact .inl rfl
  · exact .inr (List.mem_map_of_mem hold)

theorem mem_keys_touch {k' : K} (h : k' ∈ (r.touch k).keys) : k' ∈ r.keys := by
  unfold touch at h
  split at h
  · next v hfind =>
    rcases mem_keys_put h with rfl | hold
    · exact mem_keys_of_find? hfind
    · exact hold
  · exact h

theorem nodup_keys_touch (k : K) (h : r.keys.Nodup) : (r.touch k).keys.Nodup := by
  unfold touch
  split
  · exact nodup_keys_put k _ h
  · exact h

theorem isSome_find?_iff : (r.find? k).isSome = true ↔ k ∈ r.keys := by
  simp [find?, keys]

/-! ## The order of keys -/

theorem keys_put (r : Recency K V) (k : K) (v : V) :
    (r.put k v).keys = k :: r.keys.filter (· ≠ k) := by
  simp [put, keys, erase, List.filter_map, Function.comp_def]

/-- A key that is new adds one entry, and one that is not takes the place of its
old one. -/
theorem size_put (v : V) (h : r.keys.Nodup) :
    (r.put k v).size = r.size + if k ∈ r.keys then 0 else 1 := by
  have hfilter : r.keys.filter (· ≠ k) = r.keys.erase k := by
    rw [h.erase_eq_filter]
    refine List.filter_congr fun k' _ => ?_
    by_cases hk : k' = k <;> simp [hk]
  simp only [size_eq_length_keys, keys_put, List.length_cons, hfilter, List.length_erase]
  by_cases hk : k ∈ r.keys
  · have hpos := List.length_pos_of_mem hk
    simp only [hk, if_true]
    omega
  · simp only [hk, if_false]

theorem find?_dropOldest_of_ne {old : K} (h : r.oldest? = some (old, v)) (hne : k ≠ old) :
    r.dropOldest.find? k = r.find? k := by
  rw [find?, find?, entries_of_oldest? h, List.find?_append]
  cases r.dropOldest.entries.find? fun entry => decide (entry.1 = k) with
  | some entry => rfl
  | none => simp [Ne.symm hne]

theorem find?_dropOldest_self {old : K} (hnodup : r.keys.Nodup) (h : r.oldest? = some (old, v)) :
    r.dropOldest.find? old = none := by
  rw [keys_of_oldest? h] at hnodup
  have hout : old ∉ r.dropOldest.keys :=
    fun hin => (List.nodup_append.mp hnodup).2.2 old hin old (List.mem_singleton_self _) rfl
  rwa [← isSome_find?_iff, Option.not_isSome_iff_eq_none] at hout

end Tollgate.Recency
