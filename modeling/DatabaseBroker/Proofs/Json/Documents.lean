import DatabaseBroker.Proofs.Classifier.Key
import DatabaseBroker.Proofs.Json.Numbers

/-!
# Values and their documents

A value that a document denotes has each of its objects in key order, so its own document denotes it again
(`Document.denoted_of_toJson?`): such a value is `Json.Denoted`, and is so still with other numbers in it, as when its floats are read
back. Reading back goes through the ways in which values are built.
-/

namespace DatabaseBroker

open Document

/-! ## Values read back -/

namespace Json

variable {α : Type}

theorem rereadItems_eq_map (l : List Json) : rereadItems l = l.map reread := by
  induction l with
  | nil => rfl
  | cons j rest ih => rw [rereadItems, ih, List.map_cons]

/-- The values of a map are read back each by itself. -/
theorem reread_ofMap (m : KeyMap Json) : (ofMap m).reread = ofMap (m.mapValues reread) :=
  congrArg object (rereadMembers_eq_map m.entries)

/-- So are the members of a record. -/
theorem reread_ofMembers (members : List (String × Json)) :
    (ofMembers members).reread = ofMembers (members.map fun e => (e.1, e.2.reread)) := by
  rw [ofMembers, reread_ofMap, KeyMap.mapValues_ofList, ofMembers]

theorem reread_ofList (f : α → Json) (l : List α) : (ofList f l).reread = ofList (reread ∘ f) l := by
  simp [ofList, reread, rereadItems_eq_map]

end Json

/-! ## Values that a document denotes -/

namespace Json

/-- A value that its own document denotes: each of its objects is in key order. -/
def Denoted (j : Json) : Prop := (ofJson j).toJson? = some j

/-- It is still denoted with other numbers in place of its own. -/
theorem Denoted.mapNumbers {j : Json} (h : j.Denoted) (f : JsonNumber → JsonNumber) : (j.mapNumbers f).Denoted := by
  rw [Denoted, toJson?_ofJson_mapNumbers, h, Option.map_some]

theorem Denoted.reread {j : Json} (h : j.Denoted) : j.reread.Denoted := by
  rw [reread_eq_mapNumbers]
  exact h.mapNumbers JsonNumber.reread

/-- Members that are each denoted are denoted together. -/
theorem membersToJson?_of_denoted {l : List (String × Json)} (h : ∀ e ∈ l, e.2.Denoted) :
    membersToJson? (Document.ofMembers l) = some l := by
  induction l with
  | nil => rfl
  | cons e rest ih =>
    have he : (ofJson e.2).toJson? = some e.2 := h e List.mem_cons_self
    simp [Document.ofMembers, membersToJson?, he, ih fun e' he' => h e' (List.mem_cons_of_mem _ he')]

/-- A map of values that are denoted is denoted. -/
theorem denoted_ofMap {m : KeyMap Json} (h : ∀ e ∈ m.entries, e.2.Denoted) : (ofMap m).Denoted := by
  simp only [Denoted, ofMap, ofJson, toJson?, membersToJson?_of_denoted h, Option.map_some, ofMembers, KeyMap.ofList_entries]

end Json

namespace Document

mutual

/-- What a document denotes is denoted by its own document. -/
theorem denoted_of_toJson? {d : Document} {j : Json} (h : d.toJson? = some j) : j.Denoted := by
  cases d with
  | null | bool | number | string =>
    cases h
    rfl
  | array items complete =>
    cases complete with
    | false => cases h
    | true =>
      obtain ⟨js, hjs, rfl⟩ := Option.map_eq_some_iff.mp h
      simp only [Json.Denoted, ofJson, toJson?, itemsToJson?_ofItems_of hjs, Option.map_some]
  | object members complete =>
    cases complete with
    | false => cases h
    | true =>
      obtain ⟨ms, hms, rfl⟩ := Option.map_eq_some_iff.mp h
      exact Json.denoted_ofMap fun e he => denoted_of_membersToJson? hms e (KeyMap.mem_of_mem_entries_ofList he)
  | unreadable | deep | broken => cases h

/-- What items denote is denoted by its own items. -/
theorem itemsToJson?_ofItems_of {ds : List Document} {js : List Json} (h : itemsToJson? ds = some js) :
    itemsToJson? (ofItems js) = some js := by
  match ds with
  | [] =>
    cases h
    rfl
  | d :: rest =>
    simp only [itemsToJson?, Option.bind_eq_bind, Option.bind_eq_some_iff, Option.pure_def, Option.some.injEq] at h
    obtain ⟨j, hj, js, hjs, rfl⟩ := h
    have hdenoted : (ofJson j).toJson? = some j := denoted_of_toJson? hj
    simp [ofItems, itemsToJson?, hdenoted, itemsToJson?_ofItems_of hjs]

/-- What members denote is denoted by its own document, member by member. -/
theorem denoted_of_membersToJson? {ds : List (String × Document)} {ms : List (String × Json)}
    (h : membersToJson? ds = some ms) : ∀ e ∈ ms, e.2.Denoted := by
  match ds with
  | [] =>
    cases h
    simp
  | (k, d) :: rest =>
    simp only [membersToJson?, Option.bind_eq_bind, Option.bind_eq_some_iff, Option.pure_def, Option.some.injEq] at h
    obtain ⟨j, hj, ms, hms, rfl⟩ := h
    intro e he
    rcases List.mem_cons.mp he with rfl | he
    · exact denoted_of_toJson? hj
    · exact denoted_of_membersToJson? hms e he

end

end Document

end DatabaseBroker
