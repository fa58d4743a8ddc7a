import DatabaseBroker.Proofs.Json.Numbers
import DatabaseBroker.Proofs.Json.Sameness

/-!
# The two zeros

Two values are the same when they differ at most in the signs of zeros: giving every float zero one sign makes the same values equal, and
no others (`Json.same_iff_signZeros`). A value without a float zero is the same as itself only, and any other value is the same as
two different ones (`Json.signZeros_eq_iff`).
-/

namespace DatabaseBroker

namespace JsonNumber

/-- The number, with the given sign if it is a float zero. -/
def signZero (negative : Bool) : JsonNumber → JsonNumber
  | .integer n h => .integer n h
  | .float x => if x.place = 0 then .float (.zero negative) else .float x

/-- Numbers are the same when they are equal with one sign for the zeros. -/
theorem same_iff_signZero (negative : Bool) (m n : JsonNumber) :
    m.same n = true ↔ m.signZero negative = n.signZero negative := by
  cases m with
  | integer a ha =>
    cases n with
    | integer b hb => simp [same, signZero]
    | float y =>
      simp only [same, signZero, Bool.false_eq_true, false_iff]
      split <;> simp
  | float x =>
    cases n with
    | integer b hb =>
      simp only [same, signZero, Bool.false_eq_true, false_iff]
      split <;> simp
    | float y =>
      obtain ⟨sign, place, _⟩ := x
      obtain ⟨sign', place', _⟩ := y
      simp only [same, Binary64.sameNumber, signZero, Bool.and_eq_true, Bool.or_eq_true, beq_iff_eq]
      by_cases hzero : place = 0
      · by_cases hzero' : place' = 0
        · simp [hzero, hzero']
        · have hne : ¬ (0 = place') := fun h => hzero' h.symm
          simp [hzero, hzero', hne, Binary64.zero]
      · by_cases hzero' : place' = 0
        · simp [hzero, hzero', Binary64.zero]
        · simp [hzero, hzero', and_comm]

/-- A zero has the sign that it was given last. -/
theorem signZero_signZero (negative negative' : Bool) (n : JsonNumber) :
    (n.signZero negative').signZero negative = n.signZero negative := by
  cases n with
  | integer n h => rfl
  | float x =>
    unfold signZero
    by_cases hzero : x.place = 0
    · simp [hzero, Binary64.zero]
    · simp [hzero]

end JsonNumber

namespace Json

section MapNumbers

variable {f : JsonNumber → JsonNumber}

mutual

/-- Where numbers are the same if and only if a change makes them equal, so are values. -/
theorem same_iff_mapNumbers (hf : ∀ m n : JsonNumber, m.same n = true ↔ f m = f n) (a b : Json) :
    a.same b = true ↔ mapNumbers f a = mapNumbers f b := by
  cases a with
  | null => cases b <;> simp [same, mapNumbers]
  | bool _ => cases b <;> simp [same, mapNumbers]
  | number _ => cases b <;> simp [same, mapNumbers, hf]
  | string _ => cases b <;> simp [same, mapNumbers]
  | array items =>
    cases b with
    | array items' => simpa [same, mapNumbers] using sameItems_iff_mapItemNumbers hf items items'
    | null | bool | number | string | object => simp [same, mapNumbers]
  | object members =>
    cases b with
    | object members' => simpa [same, mapNumbers] using sameMembers_iff_mapMemberNumbers hf members members'
    | null | bool | number | string | array => simp [same, mapNumbers]

theorem sameItems_iff_mapItemNumbers (hf : ∀ m n : JsonNumber, m.same n = true ↔ f m = f n) (l l' : List Json) :
    sameItems l l' = true ↔ mapItemNumbers f l = mapItemNumbers f l' := by
  match l, l' with
  | [], [] => simp [sameItems, mapItemNumbers]
  | [], _ :: _ => simp [sameItems, mapItemNumbers]
  | _ :: _, [] => simp [sameItems, mapItemNumbers]
  | a :: as, b :: bs =>
    simp only [sameItems, mapItemNumbers, Bool.and_eq_true, List.cons.injEq]
    exact and_congr (same_iff_mapNumbers hf a b) (sameItems_iff_mapItemNumbers hf as bs)

theorem sameMembers_iff_mapMemberNumbers (hf : ∀ m n : JsonNumber, m.same n = true ↔ f m = f n) (l l' : List (String × Json)) :
    sameMembers l l' = true ↔ mapMemberNumbers f l = mapMemberNumbers f l' := by
  match l, l' with
  | [], [] => simp [sameMembers, mapMemberNumbers]
  | [], _ :: _ => simp [sameMembers, mapMemberNumbers]
  | _ :: _, [] => simp [sameMembers, mapMemberNumbers]
  | (k, a) :: as, (k', b) :: bs =>
    simp only [sameMembers, mapMemberNumbers, Bool.and_eq_true, beq_iff_eq, List.cons.injEq, Prod.mk.injEq]
    exact and_congr (and_congr_right fun _ => same_iff_mapNumbers hf a b) (sameMembers_iff_mapMemberNumbers hf as bs)

end

end MapNumbers

/-! ## One sign for all zeros -/

/-- The value, with the given sign for each float zero in it. -/
def signZeros (negative : Bool) (j : Json) : Json := mapNumbers (JsonNumber.signZero negative) j

/-- Values are the same when they are equal with one sign for the zeros. -/
theorem same_iff_signZeros (negative : Bool) (a b : Json) : a.same b = true ↔ a.signZeros negative = b.signZeros negative :=
  same_iff_mapNumbers (JsonNumber.same_iff_signZero negative) a b

/-- Zeros have the sign that they were given last. -/
theorem signZeros_signZeros (negative negative' : Bool) (j : Json) :
    (j.signZeros negative').signZeros negative = j.signZeros negative := by
  have hlast : JsonNumber.signZero negative ∘ JsonNumber.signZero negative' = JsonNumber.signZero negative :=
    funext (JsonNumber.signZero_signZero negative negative')
  rw [signZeros, signZeros, mapNumbers_mapNumbers, hlast, signZeros]

/-- The two signs make one value exactly when there is no float zero in it. -/
theorem signZeros_eq_iff (j : Json) : j.signZeros true = j.signZeros false ↔ ∀ x ∈ j.floats, x.place ≠ 0 := by
  have hagree := mapNumbers_eq_iff (f := JsonNumber.signZero true) (g := JsonNumber.signZero false) (fun _ _ => rfl) j
  rw [signZeros, signZeros, hagree]
  refine forall₂_congr fun x _ => ?_
  unfold JsonNumber.signZero
  by_cases hzero : x.place = 0 <;> simp [hzero, Binary64.zero]

/-- A value without a float zero of the other sign is not changed. -/
theorem signZeros_eq_self_iff (negative : Bool) (j : Json) :
    j.signZeros negative = j ↔ ∀ x ∈ j.floats, x.place = 0 → x.negative = negative := by
  have hagree := mapNumbers_eq_iff (f := JsonNumber.signZero negative) (g := id) (fun _ _ => rfl) j
  rw [mapNumbers_id] at hagree
  rw [signZeros, hagree]
  refine forall₂_congr fun x _ => ?_
  obtain ⟨sign, place, hplace⟩ := x
  unfold JsonNumber.signZero
  by_cases hzero : place = 0
  · simp [hzero, Binary64.zero, eq_comm]
  · simp [hzero]

end Json

namespace KeyMap

/-- So it is with maps. -/
theorem same_iff_signZeros (negative : Bool) (m m' : KeyMap Json) :
    m.same m' = true ↔ m.mapValues (Json.signZeros negative) = m'.mapValues (Json.signZeros negative) := by
  rw [KeyMap.same, Json.sameMembers_iff_mapMemberNumbers (JsonNumber.same_iff_signZero negative), Json.mapMemberNumbers_eq_map,
    Json.mapMemberNumbers_eq_map]
  exact ⟨fun h => KeyMap.ext h, fun h => congrArg KeyMap.entries h⟩

end KeyMap

end DatabaseBroker
