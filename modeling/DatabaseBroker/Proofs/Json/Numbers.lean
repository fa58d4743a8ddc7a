import DatabaseBroker.Json.Document
import DatabaseBroker.Json.Reread
import DatabaseBroker.Proofs.KeyMap

/-!
# Numbers in values

`Json.mapNumbers` puts another number in place of each number of a value and leaves everything else as it is. Reading a value back is
such a change (`reread_eq_mapNumbers`). Two changes that agree on whole numbers have one result exactly when they agree on each float of
the value (`mapNumbers_eq_iff`), and a change may be made in a value or in what its document denotes (`toJson?_ofJson_mapNumbers`).
-/

namespace DatabaseBroker

namespace Json

mutual

/-- The floats in a value, in the order of its text. -/
def floats : Json → List Binary64
  | number (.float x) => [x]
  | array items => itemsFloats items
  | object members => membersFloats members
  | _ => []

/-- The floats in items. -/
def itemsFloats : List Json → List Binary64
  | [] => []
  | j :: rest => j.floats ++ itemsFloats rest

/-- The floats in members. -/
def membersFloats : List (String × Json) → List Binary64
  | [] => []
  | (_, j) :: rest => j.floats ++ membersFloats rest

end

section MapNumbers

variable (f g : JsonNumber → JsonNumber)

mutual

/-- The value with another number in place of each of its numbers. -/
def mapNumbers : Json → Json
  | null => null
  | bool b => bool b
  | number n => number (f n)
  | string s => string s
  | array items => array (mapItemNumbers items)
  | object members => object (mapMemberNumbers members)

/-- The items with another number in place of each number in them. -/
def mapItemNumbers : List Json → List Json
  | [] => []
  | j :: rest => mapNumbers j :: mapItemNumbers rest

/-- The members with another number in place of each number in them. -/
def mapMemberNumbers : List (String × Json) → List (String × Json)
  | [] => []
  | (k, j) :: rest => (k, mapNumbers j) :: mapMemberNumbers rest

end

/-- The members of a map are changed each by itself. -/
theorem mapMemberNumbers_eq_map (l : List (String × Json)) : mapMemberNumbers f l = l.map fun e => (e.1, mapNumbers f e.2) := by
  induction l with
  | nil => rfl
  | cons e rest ih => rw [mapMemberNumbers, ih, List.map_cons]

/-- The value of a map is changed value by value. -/
theorem mapNumbers_ofMap (m : KeyMap Json) : mapNumbers f (ofMap m) = ofMap (m.mapValues (mapNumbers f)) :=
  congrArg object (mapMemberNumbers_eq_map f m.entries)

/-- So is one that is made of members. -/
theorem mapNumbers_ofMembers (members : List (String × Json)) :
    mapNumbers f (ofMembers members) = ofMembers (members.map fun e => (e.1, mapNumbers f e.2)) := by
  rw [ofMembers, mapNumbers_ofMap, KeyMap.mapValues_ofList, ofMembers]

mutual

/-- Two changes, one after the other, are one. -/
theorem mapNumbers_mapNumbers (j : Json) : mapNumbers g (mapNumbers f j) = mapNumbers (g ∘ f) j := by
  cases j with
  | null | bool | number | string => rfl
  | array items => exact congrArg array (mapItemNumbers_mapItemNumbers items)
  | object members => exact congrArg object (mapMemberNumbers_mapMemberNumbers members)

theorem mapItemNumbers_mapItemNumbers (l : List Json) :
    mapItemNumbers g (mapItemNumbers f l) = mapItemNumbers (g ∘ f) l := by
  match l with
  | [] => rfl
  | j :: rest => simp only [mapItemNumbers, mapNumbers_mapNumbers j, mapItemNumbers_mapItemNumbers rest]

theorem mapMemberNumbers_mapMemberNumbers (l : List (String × Json)) :
    mapMemberNumbers g (mapMemberNumbers f l) = mapMemberNumbers (g ∘ f) l := by
  match l with
  | [] => rfl
  | (k, j) :: rest => simp only [mapMemberNumbers, mapNumbers_mapNumbers j, mapMemberNumbers_mapMemberNumbers rest]

end

mutual

/-- A change that leaves each number as it is leaves the value as it is. -/
theorem mapNumbers_id (j : Json) : mapNumbers id j = j := by
  cases j with
  | null | bool | number | string => rfl
  | array items => exact congrArg array (mapItemNumbers_id items)
  | object members => exact congrArg object (mapMemberNumbers_id members)

theorem mapItemNumbers_id (l : List Json) : mapItemNumbers id l = l := by
  match l with
  | [] => rfl
  | j :: rest => rw [mapItemNumbers, mapNumbers_id j, mapItemNumbers_id rest]

theorem mapMemberNumbers_id (l : List (String × Json)) : mapMemberNumbers id l = l := by
  match l with
  | [] => rfl
  | (k, j) :: rest => rw [mapMemberNumbers, mapNumbers_id j, mapMemberNumbers_id rest]

end

/-! ## Changes that agree -/

variable {f g}

mutual

/-- Two changes that agree on whole numbers have one result exactly when they agree on each float of the value. -/
theorem mapNumbers_eq_iff (hwhole : ∀ n h, f (.integer n h) = g (.integer n h)) (j : Json) :
    mapNumbers f j = mapNumbers g j ↔ ∀ x ∈ j.floats, f (.float x) = g (.float x) := by
  cases j with
  | null | bool | string => simp [mapNumbers, floats]
  | number n => cases n <;> simp [mapNumbers, floats, hwhole]
  | array items => simpa [mapNumbers, floats] using mapItemNumbers_eq_iff hwhole items
  | object members => simpa [mapNumbers, floats] using mapMemberNumbers_eq_iff hwhole members

/-- So they do in items. -/
theorem mapItemNumbers_eq_iff (hwhole : ∀ n h, f (.integer n h) = g (.integer n h)) (l : List Json) :
    mapItemNumbers f l = mapItemNumbers g l ↔ ∀ x ∈ itemsFloats l, f (.float x) = g (.float x) := by
  match l with
  | [] => simp [mapItemNumbers, itemsFloats]
  | j :: rest =>
    simp only [mapItemNumbers, itemsFloats, List.cons.injEq, List.forall_mem_append, mapItemNumbers_eq_iff hwhole rest]
    exact and_congr_left fun _ => mapNumbers_eq_iff hwhole j

/-- So they do in members. -/
theorem mapMemberNumbers_eq_iff (hwhole : ∀ n h, f (.integer n h) = g (.integer n h)) (l : List (String × Json)) :
    mapMemberNumbers f l = mapMemberNumbers g l ↔ ∀ x ∈ membersFloats l, f (.float x) = g (.float x) := by
  match l with
  | [] => simp [mapMemberNumbers, membersFloats]
  | (k, j) :: rest =>
    simp only [mapMemberNumbers, membersFloats, List.cons.injEq, Prod.mk.injEq, true_and, List.forall_mem_append,
      mapMemberNumbers_eq_iff hwhole rest]
    exact and_congr_left fun _ => mapNumbers_eq_iff hwhole j

end

/-! ## Changes in documents -/

variable (f)

open Document in
mutual

/-- A change may be made in a value or in what its document denotes. -/
theorem toJson?_ofJson_mapNumbers (j : Json) : (ofJson (mapNumbers f j)).toJson? = (ofJson j).toJson?.map (mapNumbers f) := by
  cases j with
  | null | bool | number | string => rfl
  | array items =>
    simp only [mapNumbers, ofJson, toJson?, itemsToJson?_ofItems_mapNumbers items, Option.map_map]
    rfl
  | object members =>
    simp only [mapNumbers, ofJson, toJson?, membersToJson?_ofMembers_mapNumbers members, Option.map_map]
    refine congrArg (Option.map · _) (funext fun ms => ?_)
    simp only [Function.comp_apply, mapMemberNumbers_eq_map, mapNumbers_ofMembers]

/-- So may one in items. -/
theorem itemsToJson?_ofItems_mapNumbers (l : List Json) :
    itemsToJson? (ofItems (mapItemNumbers f l)) = (itemsToJson? (ofItems l)).map (mapItemNumbers f) := by
  match l with
  | [] => rfl
  | j :: rest =>
    simp only [mapItemNumbers, ofItems, itemsToJson?, toJson?_ofJson_mapNumbers j, itemsToJson?_ofItems_mapNumbers rest]
    cases (ofJson j).toJson? <;> cases itemsToJson? (ofItems rest) <;> rfl

/-- So may one in members. -/
theorem membersToJson?_ofMembers_mapNumbers (l : List (String × Json)) :
    membersToJson? (Document.ofMembers (mapMemberNumbers f l)) =
      (membersToJson? (Document.ofMembers l)).map (mapMemberNumbers f) := by
  match l with
  | [] => rfl
  | (k, j) :: rest =>
    simp only [mapMemberNumbers, Document.ofMembers, membersToJson?, toJson?_ofJson_mapNumbers j,
      membersToJson?_ofMembers_mapNumbers rest]
    cases (ofJson j).toJson? <;> cases membersToJson? (Document.ofMembers rest) <;> rfl

end

end MapNumbers

/-! ## Reading back -/

mutual

/-- Reading a value back is a change of its numbers. -/
theorem reread_eq_mapNumbers (j : Json) : j.reread = mapNumbers JsonNumber.reread j := by
  cases j with
  | null | bool | number | string => rfl
  | array items => exact congrArg array (rereadItems_eq_mapItemNumbers items)
  | object members => exact congrArg object (rereadMembers_eq_mapMemberNumbers members)

theorem rereadItems_eq_mapItemNumbers (l : List Json) : rereadItems l = mapItemNumbers JsonNumber.reread l := by
  match l with
  | [] => rfl
  | j :: rest => rw [rereadItems, mapItemNumbers, reread_eq_mapNumbers j, rereadItems_eq_mapItemNumbers rest]

theorem rereadMembers_eq_mapMemberNumbers (l : List (String × Json)) :
    rereadMembers l = mapMemberNumbers JsonNumber.reread l := by
  match l with
  | [] => rfl
  | (k, j) :: rest => rw [rereadMembers, mapMemberNumbers, reread_eq_mapNumbers j, rereadMembers_eq_mapMemberNumbers rest]

end

/-- A value reads back as itself exactly when each of its floats does. -/
theorem steady_iff (j : Json) : j.Steady ↔ ∀ x ∈ j.floats, (JsonNumber.float x).reread = .float x := by
  have hwhole : ∀ n h, JsonNumber.reread (.integer n h) = id (.integer n h) := fun _ _ => rfl
  have hagree := mapNumbers_eq_iff hwhole j
  rwa [mapNumbers_id, ← reread_eq_mapNumbers] at hagree

end Json

end DatabaseBroker
