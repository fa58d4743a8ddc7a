import DatabaseBroker.Json

/-!
# Sameness of values

`Json.same` is reflexive, symmetric and transitive, although it is not equality: it does not tell the two float zeros apart.
-/

namespace DatabaseBroker

namespace Binary64

theorem sameNumber_refl (x : Binary64) : x.sameNumber x = true := by simp [sameNumber]

theorem sameNumber_symm {x y : Binary64} (h : x.sameNumber y = true) : y.sameNumber x = true := by
  simp only [sameNumber, Bool.and_eq_true, Bool.or_eq_true, beq_iff_eq] at h ⊢
  obtain ⟨hplace, hsign⟩ := h
  exact ⟨hplace.symm, hsign.imp Eq.symm hplace.symm.trans⟩

theorem sameNumber_trans {x y z : Binary64} (h : x.sameNumber y = true) (h' : y.sameNumber z = true) :
    x.sameNumber z = true := by
  simp only [sameNumber, Bool.and_eq_true, Bool.or_eq_true, beq_iff_eq] at h h' ⊢
  obtain ⟨hplace, hsign⟩ := h
  obtain ⟨hplace', hsign'⟩ := h'
  refine ⟨hplace.trans hplace', ?_⟩
  rcases hsign with hsign | hzero
  · exact hsign'.imp hsign.trans hplace.trans
  · exact Or.inr hzero

end Binary64

namespace JsonNumber

theorem same_refl (n : JsonNumber) : n.same n = true := by
  cases n with
  | integer a h => simp [same]
  | float x => exact x.sameNumber_refl

theorem same_symm {m n : JsonNumber} (h : m.same n = true) : n.same m = true := by
  cases m <;> cases n <;> simp_all only [same, beq_iff_eq, reduceCtorEq]
  exact Binary64.sameNumber_symm h

theorem same_trans {l m n : JsonNumber} (h : l.same m = true) (h' : m.same n = true) : l.same n = true := by
  cases l <;> cases m <;> cases n <;> simp_all only [same, beq_iff_eq, reduceCtorEq]
  exact Binary64.sameNumber_trans h h'

end JsonNumber

namespace Json

/-! ## Reflexivity -/

mutual

/-- A value is the same as itself. -/
theorem same_refl (j : Json) : j.same j = true := by
  cases j with
  | null => rfl
  | bool b => simp [same]
  | number n => exact n.same_refl
  | string s => simp [same]
  | array items => exact sameItems_refl items
  | object members => exact sameMembers_refl members

theorem sameItems_refl (l : List Json) : sameItems l l = true := by
  match l with
  | [] => rfl
  | j :: rest => rw [sameItems, same_refl j, sameItems_refl rest, Bool.and_self]

theorem sameMembers_refl (l : List (String × Json)) : sameMembers l l = true := by
  match l with
  | [] => rfl
  | (k, j) :: rest => rw [sameMembers, same_refl j, sameMembers_refl rest, beq_self_eq_true, Bool.and_self, Bool.and_self]

end

/-! ## Symmetry -/

mutual

/-- Of two values each is the same as the other. -/
theorem same_symm {a b : Json} (h : a.same b = true) : b.same a = true := by
  cases a <;> cases b <;> simp only [same, beq_iff_eq, Bool.false_eq_true] at h ⊢
  · exact h.symm
  · exact JsonNumber.same_symm h
  · exact h.symm
  · exact sameItems_symm h
  · exact sameMembers_symm h

theorem sameItems_symm {l l' : List Json} (h : sameItems l l' = true) : sameItems l' l = true := by
  match l, l' with
  | [], [] => rfl
  | [], _ :: _ => cases h
  | _ :: _, [] => cases h
  | a :: as, b :: bs =>
    rw [sameItems, Bool.and_eq_true] at h ⊢
    exact ⟨same_symm h.1, sameItems_symm h.2⟩

theorem sameMembers_symm {l l' : List (String × Json)} (h : sameMembers l l' = true) : sameMembers l' l = true := by
  match l, l' with
  | [], [] => rfl
  | [], _ :: _ => cases h
  | _ :: _, [] => cases h
  | (k, a) :: as, (k', b) :: bs =>
    rw [sameMembers, Bool.and_eq_true, Bool.and_eq_true, beq_iff_eq] at h ⊢
    exact ⟨⟨h.1.1.symm, same_symm h.1.2⟩, sameMembers_symm h.2⟩

end

/-! ## Transitivity -/

mutual

/-- Two values that are the same as a third are the same. -/
theorem same_trans {a b c : Json} (h : a.same b = true) (h' : b.same c = true) : a.same c = true := by
  cases a <;> cases b <;> simp only [same, beq_iff_eq, Bool.false_eq_true] at h <;>
    cases c <;> simp only [same, beq_iff_eq, Bool.false_eq_true] at h' ⊢
  · exact h.trans h'
  · exact JsonNumber.same_trans h h'
  · exact h.trans h'
  · exact sameItems_trans h h'
  · exact sameMembers_trans h h'

theorem sameItems_trans {l l' l'' : List Json} (h : sameItems l l' = true) (h' : sameItems l' l'' = true) :
    sameItems l l'' = true := by
  match l, l', l'' with
  | [], [], _ => exact h'
  | [], _ :: _, _ => cases h
  | _ :: _, [], _ => cases h
  | _ :: _, _ :: _, [] => cases h'
  | a :: as, b :: bs, c :: cs =>
    rw [sameItems, Bool.and_eq_true] at h h' ⊢
    exact ⟨same_trans h.1 h'.1, sameItems_trans h.2 h'.2⟩

theorem sameMembers_trans {l l' l'' : List (String × Json)} (h : sameMembers l l' = true)
    (h' : sameMembers l' l'' = true) : sameMembers l l'' = true := by
  match l, l', l'' with
  | [], [], _ => exact h'
  | [], _ :: _, _ => cases h
  | _ :: _, [], _ => cases h
  | _ :: _, _ :: _, [] => cases h'
  | (k, a) :: as, (k', b) :: bs, (k'', c) :: cs =>
    rw [sameMembers, Bool.and_eq_true, Bool.and_eq_true, beq_iff_eq] at h h' ⊢
    exact ⟨⟨h.1.1.trans h'.1.1, same_trans h.1.2 h'.1.2⟩, sameMembers_trans h.2 h'.2⟩

end

end Json

end DatabaseBroker
