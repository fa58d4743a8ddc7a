import DatabaseBroker.KeyMap
import Mathlib.Data.List.Induction

/-!
# Maps from lists

`KeyMap.ofList` takes entries in any order, and of two entries with one key the later one counts (`get?_ofList_cons`). Where no
key stands twice each entry counts (`get?_ofList_iff`), so a map is what its own entries make (`ofList_entries`).
-/

namespace DatabaseBroker.KeyMap

variable {α β : Type}

/-- Of two entries with one key the later one counts, and over what was there before. -/
theorem get?_foldl_insert_entries (l : List (String × α)) (m : KeyMap α) (k : String) :
    (l.foldl (fun m e => m.insert e.1 e.2) m).get? k = ((ofList l).get? k).or (m.get? k) := by
  induction l using List.reverseRecOn with
  | nil => simp [ofList]
  | append_singleton l e ih =>
    simp only [ofList, List.foldl_append, List.foldl_cons, List.foldl_nil, get?_insert]
    split
    · rfl
    · exact ih

theorem get?_ofList_cons (e : String × α) (l : List (String × α)) (k : String) :
    (ofList (e :: l)).get? k = ((ofList l).get? k).or (if e.1 = k then some e.2 else none) := by
  rw [ofList, List.foldl_cons, get?_foldl_insert_entries, get?_insert, get?_empty]

/-- A map that is made of the values of a function has its value at each key. -/
theorem get?_ofList_map (f : String → α) (keys : List String) (k : String) :
    (ofList (keys.map fun key => (key, f key))).get? k = if k ∈ keys then some (f k) else none := by
  induction keys with
  | nil => rfl
  | cons key rest ih =>
    rw [List.map_cons, get?_ofList_cons, ih]
    by_cases hrest : k ∈ rest
    · simp [hrest]
    · by_cases hkey : key = k
      · simp [hkey, hrest]
      · simp [hrest, hkey, Ne.symm hkey]

/-- What a map holds was in the list that it is made of. -/
theorem mem_of_get?_ofList {l : List (String × α)} {k : String} {v : α} (h : (ofList l).get? k = some v) : (k, v) ∈ l := by
  induction l with
  | nil => simp [ofList] at h
  | cons e rest ih =>
    rw [get?_ofList_cons, Option.or_eq_some_iff] at h
    rcases h with h | ⟨-, h⟩
    · exact List.mem_cons_of_mem _ (ih h)
    · split at h
      · rename_i hkey
        cases h
        rw [← hkey]
        exact List.mem_cons_self
      · cases h

/-- The map of a list in which no key stands twice holds each of its entries and no other. -/
theorem get?_ofList_iff {l : List (String × α)} (hnodup : (l.map (·.1)).Nodup) {k : String} {v : α} :
    (ofList l).get? k = some v ↔ (k, v) ∈ l := by
  refine ⟨mem_of_get?_ofList, fun hmem => ?_⟩
  induction l with
  | nil => cases hmem
  | cons e rest ih =>
    rw [List.map_cons, List.nodup_cons] at hnodup
    rw [get?_ofList_cons]
    rcases List.mem_cons.mp hmem with rfl | hrest
    · have hnone : (ofList rest).get? k = none := Option.eq_none_iff_forall_ne_some.mpr fun w hw =>
        hnodup.1 (List.mem_map.mpr ⟨_, mem_of_get?_ofList hw, rfl⟩)
      simp [hnone]
    · rw [ih hnodup.2 hrest, Option.some_or]

/-- No key of a map stands twice. -/
theorem nodup_keys (m : KeyMap α) : (m.entries.map (·.1)).Nodup :=
  List.pairwise_map.mpr (m.ascending.imp fun hlt => Std.ne_of_lt hlt)

/-- A map is what its entries make. -/
theorem ofList_entries (m : KeyMap α) : ofList m.entries = m :=
  ext_get? fun k => Option.ext fun v => by rw [get?_ofList_iff m.nodup_keys, get?_eq_some_iff]

/-- The entries of a map were in the list that it is made of. -/
theorem mem_of_mem_entries_ofList {l : List (String × α)} {e : String × α} (h : e ∈ (ofList l).entries) : e ∈ l :=
  mem_of_get?_ofList (get?_eq_some_iff.mpr h)

/-- Values may be changed twice or once. -/
theorem mapValues_mapValues {γ : Type} (f : α → β) (g : β → γ) (m : KeyMap α) :
    (m.mapValues f).mapValues g = m.mapValues (g ∘ f) := by
  refine ext ?_
  simp only [mapValues, List.map_map]
  rfl

/-- Values may be changed before a map is made or after it. -/
theorem mapValues_ofList (f : α → β) (l : List (String × α)) :
    (ofList l).mapValues f = ofList (l.map fun e => (e.1, f e.2)) := by
  refine ext_get? fun k => ?_
  rw [get?_mapValues]
  induction l with
  | nil => rfl
  | cons e rest ih =>
    rw [List.map_cons, get?_ofList_cons, get?_ofList_cons, ← ih, Option.map_or]
    congr 1
    split <;> rfl

end DatabaseBroker.KeyMap
