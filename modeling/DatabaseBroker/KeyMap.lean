/-!
# Maps in key order

A map from texts to values, held as the list of its entries in strictly ascending key order (by code point). The order
is part of the type, so two maps with the same entries are equal, every listing is in key order, and `scan` may stop
at the first key past its range. Two maps that answer every look-up alike are the same map (`ext_get?`).
-/

namespace DatabaseBroker

/-- Entries with strictly ascending keys. -/
structure KeyMap (α : Type) where
  entries : List (String × α)
  ascending : entries.Pairwise fun a b => a.1 < b.1
deriving DecidableEq

namespace KeyMap

variable {α β : Type}

/-- Two maps with the same entries are one. -/
@[ext] theorem ext {m m' : KeyMap α} (h : m.entries = m'.entries) : m = m' := by
  cases m
  cases m'
  cases h
  rfl

/-! ## Entry lists -/

/-- Puts an entry in its place in an ascending list, over an entry of the same key. -/
def insertEntry (k : String) (v : α) : List (String × α) → List (String × α)
  | [] => [(k, v)]
  | (k', v') :: rest =>
    if k < k' then (k, v) :: (k', v') :: rest
    else if k = k' then (k, v) :: rest
    else (k', v') :: insertEntry k v rest

/-- An entry after an insertion is the new one or was there before. -/
theorem mem_insertEntry {k : String} {v : α} {l : List (String × α)} {a : String × α} (h : a ∈ insertEntry k v l) :
    a = (k, v) ∨ a ∈ l := by
  induction l with
  | nil => simpa [insertEntry] using h
  | cons b rest ih =>
    simp only [insertEntry] at h
    split at h
    · simpa using h
    · split at h <;> simp only [List.mem_cons] at h ⊢ <;> grind

/-- Insertion keeps the keys ascending. -/
theorem insertEntry_ascending (k : String) (v : α) {l : List (String × α)}
    (h : l.Pairwise fun a b => a.1 < b.1) : (insertEntry k v l).Pairwise fun a b => a.1 < b.1 := by
  induction l with
  | nil => simp [insertEntry]
  | cons b rest ih =>
    obtain ⟨hb, hrest⟩ := List.pairwise_cons.mp h
    simp only [insertEntry]
    split
    · rename_i hlt
      refine List.pairwise_cons.mpr ⟨?_, h⟩
      intro a ha
      rcases List.mem_cons.mp ha with rfl | ha
      · exact hlt
      · exact String.lt_trans hlt (hb a ha)
    · split
      · rename_i heq
        refine List.pairwise_cons.mpr ⟨?_, hrest⟩
        intro a ha
        simpa [heq] using hb a ha
      · rename_i hnlt hne
        refine List.pairwise_cons.mpr ⟨?_, ih hrest⟩
        intro a ha
        rcases mem_insertEntry ha with rfl | ha
        · exact Std.lt_of_le_of_ne (Std.not_lt.mp hnlt) (Ne.symm hne)
        · exact hb a ha

/-! ## Operations -/

/-- The map without entries. -/
def empty : KeyMap α := ⟨[], .nil⟩

/-- The empty map stands for a map where none is given. -/
instance : Inhabited (KeyMap α) := ⟨empty⟩

/-- The value under a key. -/
def get? (m : KeyMap α) (k : String) : Option α := (m.entries.find? (·.1 = k)).map (·.2)

/-- Whether a key has a value. -/
def contains (m : KeyMap α) (k : String) : Bool := (m.get? k).isSome

/-- Sets the value under a key. -/
def insert (m : KeyMap α) (k : String) (v : α) : KeyMap α :=
  ⟨insertEntry k v m.entries, insertEntry_ascending k v m.ascending⟩

/-- Removes a key. -/
def erase (m : KeyMap α) (k : String) : KeyMap α :=
  ⟨m.entries.filter (·.1 ≠ k), m.ascending.filter _⟩

/-- The map of a list of entries; of two entries with one key the later one counts. -/
def ofList (l : List (String × α)) : KeyMap α := l.foldl (fun m e => m.insert e.1 e.2) empty

/-- The keys, ascending. -/
def keys (m : KeyMap α) : List String := m.entries.map (·.1)

/-- The values in key order. -/
def values (m : KeyMap α) : List α := m.entries.map (·.2)

/-- The same keys with other values. -/
def mapValues (f : α → β) (m : KeyMap α) : KeyMap β :=
  ⟨m.entries.map fun e => (e.1, f e.2), List.pairwise_map.mpr m.ascending⟩

/-- Whether a key begins with a text. -/
def begins (start key : String) : Bool := start.toList.isPrefixOf key.toList

/-- The values whose keys begin with `start`, in key order: from the first key that is not below `start` up to the first
that does not begin with it. -/
def scan (m : KeyMap α) (start : String) : List α :=
  ((m.entries.dropWhile (·.1 < start)).takeWhile fun e => begins start e.1).map (·.2)

/-! ## What an operation does to a look-up -/

/-- The empty map holds nothing. -/
@[simp] theorem get?_empty (k : String) : (empty : KeyMap α).get? k = none := rfl

/-- A look-up after an insertion finds the new entry at its key and the old one at any other. -/
theorem find?_insertEntry (k k' : String) (v : α) {l : List (String × α)} (h : l.Pairwise fun a b => a.1 < b.1) :
    ((insertEntry k v l).find? (·.1 = k')).map (·.2) =
      if k = k' then some v else (l.find? (·.1 = k')).map (·.2) := by
  induction l with
  | nil => by_cases hk : k = k' <;> simp [insertEntry, hk]
  | cons b rest ih =>
    obtain ⟨_, hrest⟩ := List.pairwise_cons.mp h
    have ih := ih hrest
    by_cases hk : k = k'
    · subst hk
      simp only [if_true] at ih ⊢
      simp only [insertEntry]
      split
      · simp
      · split
        · simp
        · rename_i hne
          simp [Ne.symm hne, ih]
    · simp only [hk, if_false] at ih ⊢
      simp only [insertEntry]
      split
      · simp [hk]
      · split
        · rename_i heq
          simp [hk, ← heq]
        · by_cases hb : b.1 = k'
          · simp [hb]
          · simp [hb, ih]

/-- An insertion changes what stands at its key and nothing else. -/
theorem get?_insert (m : KeyMap α) (k k' : String) (v : α) :
    (m.insert k v).get? k' = if k = k' then some v else m.get? k' :=
  find?_insertEntry k k' v m.ascending

/-- What is inserted is found. -/
@[simp] theorem get?_insert_self (m : KeyMap α) (k : String) (v : α) : (m.insert k v).get? k = some v := by
  simp [get?_insert]

/-- An insertion leaves other keys as they were. -/
theorem get?_insert_of_ne (m : KeyMap α) {k k' : String} (v : α) (h : k ≠ k') :
    (m.insert k v).get? k' = m.get? k' := by
  simp [get?_insert, h]

/-- An erasure changes what stands at its key and nothing else. -/
theorem get?_erase (m : KeyMap α) (k k' : String) : (m.erase k).get? k' = if k = k' then none else m.get? k' := by
  by_cases h : k = k'
  · subst h
    simp only [get?, erase, if_true, Option.map_eq_none_iff, List.find?_eq_none]
    intro e he
    simpa using (List.mem_filter.mp he).2
  · simp only [get?, erase, h, if_false]
    congr 1
    induction m.entries with
    | nil => rfl
    | cons e rest ih =>
      by_cases he : e.1 = k'
      · simp [he, Ne.symm h]
      · by_cases hk : e.1 = k <;> simp_all

/-- What is erased is not found. -/
@[simp] theorem get?_erase_self (m : KeyMap α) (k : String) : (m.erase k).get? k = none := by
  simp [get?_erase]

/-- A look-up goes through a change of values. -/
theorem get?_mapValues (f : α → β) (m : KeyMap α) (k : String) : (m.mapValues f).get? k = (m.get? k).map f := by
  simp only [get?, mapValues]
  induction m.entries with
  | nil => rfl
  | cons e rest ih => by_cases h : e.1 = k <;> simp_all

/-! ## Look-ups and entries -/

/-- A look-up finds the entries and nothing else. -/
theorem get?_eq_some_iff {m : KeyMap α} {k : String} {v : α} : m.get? k = some v ↔ (k, v) ∈ m.entries := by
  obtain ⟨l, hl⟩ := m
  simp only [get?]
  induction l with
  | nil => simp
  | cons e rest ih =>
    obtain ⟨he, hrest⟩ := List.pairwise_cons.mp hl
    obtain ⟨k', v'⟩ := e
    by_cases hk : k' = k
    · subst hk
      have hnot : ∀ w, (k', w) ∉ rest := fun w hw => String.lt_irrefl k' (he _ hw)
      simp [hnot, eq_comm]
    · have hne : ¬(k = k' ∧ v = v') := fun h => hk h.1.symm
      simpa [hk, hne] using ih hrest

/-- Two lists in strictly ascending key order with the same members are one list. -/
theorem eq_of_mem_iff {l l' : List (String × α)} (h : l.Pairwise fun a b => a.1 < b.1)
    (h' : l'.Pairwise fun a b => a.1 < b.1) (hmem : ∀ a, a ∈ l ↔ a ∈ l') : l = l' := by
  induction l generalizing l' with
  | nil =>
    cases l' with
    | nil => rfl
    | cons b rest => simpa using (hmem b).mpr
  | cons a rest ih =>
    cases l' with
    | nil => simpa using (hmem a).mp
    | cons b rest' =>
      obtain ⟨ha, hrest⟩ := List.pairwise_cons.mp h
      obtain ⟨hb, hrest'⟩ := List.pairwise_cons.mp h'
      have hab : a = b := by
        rcases List.mem_cons.mp ((hmem a).mp (by simp)) with hab | hab
        · exact hab
        · rcases List.mem_cons.mp ((hmem b).mpr (by simp)) with hba | hba
          · exact hba.symm
          · exact absurd (String.lt_trans (ha b hba) (hb a hab)) (String.lt_irrefl a.1)
      subst hab
      congr 1
      refine ih hrest hrest' fun c => ⟨fun hc => ?_, fun hc => ?_⟩
      · rcases List.mem_cons.mp ((hmem c).mp (List.mem_cons_of_mem _ hc)) with hca | hc'
        · exact absurd (hca ▸ ha c hc) (String.lt_irrefl a.1)
        · exact hc'
      · rcases List.mem_cons.mp ((hmem c).mpr (List.mem_cons_of_mem _ hc)) with hca | hc'
        · exact absurd (hca ▸ hb c hc) (String.lt_irrefl a.1)
        · exact hc'

/-- Two maps that answer every look-up alike are one. -/
theorem ext_get? {m m' : KeyMap α} (h : ∀ k, m.get? k = m'.get? k) : m = m' := by
  refine ext (eq_of_mem_iff m.ascending m'.ascending fun a => ?_)
  rw [← get?_eq_some_iff, ← get?_eq_some_iff, h]

end KeyMap

end DatabaseBroker
