import DatabaseBroker.Proofs.Json.Documents

/-!
# How deep documents are nested

`Document.nesting` counts the containers that stand inside one another, as far as a reader keeps them. What is read from a text is
nested no deeper than the limit of the reader (`nesting_read`; `Shallow` says so of the three readers that call each other), and a
value no deeper than the document that denotes it (`nesting_of_toJson?`). A container stands around what is in it and adds one.
-/

namespace DatabaseBroker

namespace Document

mutual

/-- How many containers stand inside one another. -/
def nesting : Document → Nat
  | array items _ => itemsNesting items + 1
  | object members _ => membersNesting members + 1
  | _ => 0

/-- The deepest nesting of an item. -/
def itemsNesting : List Document → Nat
  | [] => 0
  | d :: rest => max d.nesting (itemsNesting rest)

/-- The deepest nesting of a member. -/
def membersNesting : List (String × Document) → Nat
  | [] => 0
  | (_, d) :: rest => max d.nesting (membersNesting rest)

end

theorem itemsNesting_le_iff {l : List Document} {n : Nat} : itemsNesting l ≤ n ↔ ∀ d ∈ l, d.nesting ≤ n := by
  induction l with
  | nil => simp [itemsNesting]
  | cons d rest ih => simp [itemsNesting, ih]

theorem membersNesting_le_iff {l : List (String × Document)} {n : Nat} :
    membersNesting l ≤ n ↔ ∀ e ∈ l, e.2.nesting ≤ n := by
  induction l with
  | nil => simp [membersNesting]
  | cons e rest ih => simp [membersNesting, ih]

theorem ofItems_eq_map (l : List Json) : ofItems l = l.map ofJson := by
  induction l with
  | nil => rfl
  | cons j rest ih => rw [ofItems, ih, List.map_cons]

theorem ofMembers_eq_map (l : List (String × Json)) : ofMembers l = l.map fun e => (e.1, ofJson e.2) := by
  induction l with
  | nil => rfl
  | cons e rest ih => rw [ofMembers, ih, List.map_cons]

/-! ## Documents that were read -/

section Reader

variable {level : Nat} {cs : List Char}

theorem nesting_arrayAt {items : List Document} (h : ∀ d ∈ items, d.nesting ≤ maxNesting - (level + 1)) (complete : Bool) :
    (arrayAt level items complete).nesting ≤ maxNesting - level := by
  have hitems := itemsNesting_le_iff.mpr h
  unfold arrayAt
  split
  · rw [nesting]
    omega
  · exact Nat.zero_le _

theorem nesting_objectAt {members : List (String × Document)} (h : ∀ e ∈ members, e.2.nesting ≤ maxNesting - (level + 1))
    (complete : Bool) : (objectAt level members complete).nesting ≤ maxNesting - level := by
  have hmembers := membersNesting_le_iff.mpr h
  unfold objectAt
  split
  · rw [nesting]
    omega
  · exact Nat.zero_le _

theorem nesting_readText (cs : List Char) : (readText cs).1.nesting = 0 := by
  unfold readText
  split <;> rfl

theorem nesting_readWord (word cs : List Char) {d : Document} (h : d.nesting = 0) : (readWord word d cs).1.nesting = 0 := by
  unfold readWord
  split
  · exact h
  · rfl

theorem nesting_ofFloat (negative : Bool) (s : Scaled) : (ofFloat negative s).nesting = 0 := by
  unfold ofFloat
  split <;> rfl

theorem nesting_ofWhole (negative : Bool) (digits : List Char) : (ofWhole negative digits).nesting = 0 := by
  unfold ofWhole
  dsimp only
  repeat' split
  all_goals first | exact nesting_ofFloat _ _ | rfl

theorem nesting_readNumber (negative : Bool) (cs : List Char) : (readNumber negative cs).1.nesting = 0 := by
  unfold readNumber
  dsimp only
  repeat' split
  all_goals first | exact nesting_ofFloat _ _ | exact nesting_ofWhole _ _ | rfl

/-- With this fuel, what is read inside `level` containers is nested as deep as the limit leaves room for, and no deeper. -/
structure Shallow (fuel : Nat) : Prop where
  value (level : Nat) (cs : List Char) : (readValue fuel level cs).1.nesting ≤ maxNesting - level
  items (level : Nat) (cs : List Char) : ∀ d ∈ (readItems fuel level cs).1, d.nesting ≤ maxNesting - level
  members (level : Nat) (cs : List Char) : ∀ e ∈ (readMembers fuel level cs).1, e.2.nesting ≤ maxNesting - level

namespace Shallow

variable {fuel : Nat}

/-- Only a container has anything in it. -/
theorem value_succ (h : Shallow fuel) (level : Nat) (cs : List Char) :
    (readValue (fuel + 1) level cs).1.nesting ≤ maxNesting - level := by
  unfold readValue
  split
  · split
    · exact nesting_objectAt (by simp) _
    · exact nesting_objectAt (h.members (level + 1) _) _
  · split
    · exact nesting_arrayAt (by simp) _
    · exact nesting_arrayAt (h.items (level + 1) _) _
  · simp [nesting_readText]
  · simp [nesting_readNumber]
  · exact (nesting_readWord _ _ rfl).trans_le (Nat.zero_le _)
  · exact (nesting_readWord _ _ rfl).trans_le (Nat.zero_le _)
  · exact (nesting_readWord _ _ rfl).trans_le (Nat.zero_le _)
  · split <;> simp [nesting_readNumber, nesting]
  · exact Nat.zero_le _

/-- Items are read inside as many containers as the first one. -/
theorem items_succ (h : Shallow fuel) (level : Nat) (cs : List Char) :
    ∀ d ∈ (readItems (fuel + 1) level cs).1, d.nesting ≤ maxNesting - level := by
  have hd := h.value level cs
  unfold readItems
  split
  · rename_i d heq
    simpa [heq] using hd
  · rename_i d rest heq
    rw [heq] at hd
    split
    · simpa using hd
    · simpa using ⟨hd, h.items level _⟩
    · simpa using hd

/-- So are members. -/
theorem members_succ (h : Shallow fuel) (level : Nat) (cs : List Char) :
    ∀ e ∈ (readMembers (fuel + 1) level cs).1, e.2.nesting ≤ maxNesting - level := by
  unfold readMembers
  split
  · split
    · simp
    · split
      · rename_i key _ _ rest _
        have hd := h.value level rest
        split
        · rename_i d heq
          simpa [heq] using hd
        · rename_i d rest heq
          rw [heq] at hd
          split
          · simpa using hd
          · simpa using ⟨hd, fun k d hkd => h.members level _ (k, d) hkd⟩
          · simpa using hd
      · simp [nesting]
  · simp

end Shallow

theorem shallow (fuel : Nat) : Shallow fuel := by
  induction fuel with
  | zero => exact ⟨by simp [readValue, nesting], by simp [readItems], by simp [readMembers]⟩
  | succ fuel ih => exact ⟨ih.value_succ, ih.items_succ, ih.members_succ⟩

/-- A document is nested no deeper than the limit. -/
theorem nesting_read (s : String) : (read s).1.nesting ≤ maxNesting := by
  have hvalue := (shallow (2 * s.toList.length + 2)).value 0 s.toList
  unfold read
  dsimp only
  split <;> simp_all

end Reader

/-! ## Values -/

mutual

/-- A value is nested no deeper than the document that denotes it. -/
theorem nesting_of_toJson? {d : Document} {j : Json} (h : d.toJson? = some j) : (ofJson j).nesting ≤ d.nesting := by
  cases d with
  | null | bool | number | string =>
    cases h
    exact Nat.le_refl _
  | array items complete =>
    cases complete with
    | false => cases h
    | true =>
      obtain ⟨js, hjs, rfl⟩ := Option.map_eq_some_iff.mp h
      exact Nat.add_le_add_right (itemsNesting_of_itemsToJson? hjs) 1
  | object members complete =>
    cases complete with
    | false => cases h
    | true =>
      obtain ⟨ms, hms, rfl⟩ := Option.map_eq_some_iff.mp h
      refine Nat.add_le_add_right (membersNesting_le_iff.mpr fun e he => ?_) 1
      rw [ofMembers_eq_map] at he
      obtain ⟨entry, hentry, rfl⟩ := List.mem_map.mp he
      exact nesting_of_membersToJson? hms entry (KeyMap.mem_of_mem_entries_ofList hentry)
  | unreadable | deep | broken => cases h

/-- Nor are items. -/
theorem itemsNesting_of_itemsToJson? {ds : List Document} {js : List Json} (h : itemsToJson? ds = some js) :
    itemsNesting (ofItems js) ≤ itemsNesting ds := by
  match ds with
  | [] =>
    cases h
    exact Nat.le_refl _
  | d :: rest =>
    simp only [itemsToJson?, Option.bind_eq_bind, Option.bind_eq_some_iff, Option.pure_def, Option.some.injEq] at h
    obtain ⟨j, hj, js, hjs, rfl⟩ := h
    exact max_le_max (nesting_of_toJson? hj) (itemsNesting_of_itemsToJson? hjs)

/-- Nor are members. -/
theorem nesting_of_membersToJson? {ds : List (String × Document)} {ms : List (String × Json)}
    (h : membersToJson? ds = some ms) : ∀ e ∈ ms, (ofJson e.2).nesting ≤ membersNesting ds := by
  match ds with
  | [] =>
    cases h
    simp
  | (k, d) :: rest =>
    simp only [membersToJson?, Option.bind_eq_bind, Option.bind_eq_some_iff, Option.pure_def, Option.some.injEq] at h
    obtain ⟨j, hj, ms, hms, rfl⟩ := h
    intro e he
    rcases List.mem_cons.mp he with rfl | he
    · exact le_max_of_le_left (nesting_of_toJson? hj)
    · exact le_max_of_le_right (nesting_of_membersToJson? hms e he)

end

end Document

namespace Json

variable {α : Type} {n : Nat}

/-- How many containers stand inside one another in a value. -/
def nesting (j : Json) : Nat := (Document.ofJson j).nesting

theorem nesting_array_le_iff {items : List Json} : (array items).nesting ≤ n + 1 ↔ ∀ j ∈ items, j.nesting ≤ n := by
  rw [nesting, Document.ofJson, Document.nesting, Nat.add_le_add_iff_right, Document.itemsNesting_le_iff,
    Document.ofItems_eq_map, List.forall_mem_map]
  rfl

theorem nesting_object_le_iff {members : List (String × Json)} :
    (object members).nesting ≤ n + 1 ↔ ∀ e ∈ members, e.2.nesting ≤ n := by
  rw [nesting, Document.ofJson, Document.nesting, Nat.add_le_add_iff_right, Document.membersNesting_le_iff,
    Document.ofMembers_eq_map, List.forall_mem_map]
  rfl

theorem nesting_ofMap_le_iff {m : KeyMap Json} : (ofMap m).nesting ≤ n + 1 ↔ ∀ e ∈ m.entries, e.2.nesting ≤ n :=
  nesting_object_le_iff

/-- The object of a record stands around its members. -/
theorem nesting_ofMembers_le {members : List (String × Json)} (h : ∀ e ∈ members, e.2.nesting ≤ n) :
    (ofMembers members).nesting ≤ n + 1 :=
  nesting_ofMap_le_iff.mpr fun e he => h e (KeyMap.mem_of_mem_entries_ofList he)

theorem nesting_ofList_le_iff {f : α → Json} {l : List α} : (ofList f l).nesting ≤ n + 1 ↔ ∀ a ∈ l, (f a).nesting ≤ n := by
  rw [ofList, nesting_array_le_iff, List.forall_mem_map]

end Json

end DatabaseBroker
