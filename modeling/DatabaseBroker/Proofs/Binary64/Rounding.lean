import DatabaseBroker.Proofs.Binary64.Shortest

/-!
# Rounding stays between magnitudes

A fraction that lies on one side of a magnitude is rounded to a place on the same side (`nearestPlace_le`, `le_nearestPlace`), and
rounding adds at most one part in `2 ^ 53` to a fraction above the first binade (`unitsAt_nearestPlace_le`).
-/

namespace DatabaseBroker.Binary64

variable {num den n place : Nat}

/-! ## Whole numbers -/

theorem roundHalfEven_le (hden : 0 < den) (h : num ≤ n * den) : roundHalfEven num den ≤ n := by
  have hlow : num / den ≤ n := Nat.div_le_of_le_mul (Nat.mul_comm n den ▸ h)
  have hrest := Nat.div_add_mod num den
  rcases Nat.lt_or_eq_of_le hlow with hlt | rfl
  · unfold roundHalfEven
    dsimp only
    repeat' split
    all_goals omega
  · have hzero : num % den = 0 := by
      rw [Nat.mul_comm] at h
      omega
    simp [roundHalfEven, hzero, hden]

theorem le_roundHalfEven (hden : 0 < den) (h : n * den ≤ num) : n ≤ roundHalfEven num den := by
  have hlow : n ≤ num / den := (Nat.le_div_iff_mul_le hden).mpr h
  unfold roundHalfEven
  dsimp only
  repeat' split
  all_goals omega

/-- Rounding moves a fraction up by at most a half. -/
theorem two_mul_roundHalfEven_le (num den : Nat) : 2 * (roundHalfEven num den * den) ≤ 2 * num + den := by
  have hrest := Nat.div_add_mod num den
  have hlow : num / den * den = den * (num / den) := Nat.mul_comm ..
  have hnext : (num / den + 1) * den = den * (num / den) + den := by ring
  unfold roundHalfEven
  dsimp only
  repeat' split
  all_goals omega

/-! ## Binades -/

/-- The exponent of a fraction: a unit in its last place is `2 ^ exponentOf num den`. -/
def exponentOf (num den : Nat) : Nat := (num / den).log2 - 52

theorem nearestPlace_eq (num den : Nat) :
    nearestPlace num den = exponentOf num den * binade + roundHalfEven num (den * 2 ^ exponentOf num den) := rfl

theorem lt_of_exponentOf (hden : 0 < den) (num : Nat) : num < 2 ^ 53 * (den * 2 ^ exponentOf num den) := by
  have hlog : num / den < 2 ^ (exponentOf num den + 53) := by
    by_cases hzero : num / den = 0
    · rw [hzero]
      exact Nat.two_pow_pos _
    · exact (Nat.log2_lt hzero).mp (by unfold exponentOf; omega)
  rw [Nat.div_lt_iff_lt_mul hden, Nat.pow_add] at hlog
  calc num
    _ < 2 ^ exponentOf num den * 2 ^ 53 * den := hlog
    _ = 2 ^ 53 * (den * 2 ^ exponentOf num den) := by ring

/-- Above the first binade a fraction has all its digits. -/
theorem le_of_exponentOf (hden : 0 < den) (h : exponentOf num den ≠ 0) : 2 ^ 52 * (den * 2 ^ exponentOf num den) ≤ num := by
  have hzero : num / den ≠ 0 := by
    intro hzero
    exact h (by rw [exponentOf, hzero]; decide)
  have hlog : 2 ^ (exponentOf num den + 52) ≤ num / den :=
    (Nat.le_log2 hzero).mp (by unfold exponentOf at *; omega)
  rw [Nat.le_div_iff_mul_le hden, Nat.pow_add] at hlog
  calc 2 ^ 52 * (den * 2 ^ exponentOf num den)
    _ = 2 ^ exponentOf num den * 2 ^ 52 * den := by ring
    _ ≤ num := hlog

theorem binade_eq : binade = 2 ^ 52 := by decide

/-- The magnitude that has `n` units in the last place of a binade. -/
theorem unitsAt_binade {exponent : Nat} (hlow : binade ≤ n ∨ exponent = 0) (hhigh : n ≤ 2 * binade) :
    unitsAt (exponent * binade + n) = n * 2 ^ exponent := by
  have hpos : 0 < binade := by decide
  rcases Nat.lt_or_ge n binade with hn | hn
  · obtain rfl : exponent = 0 := hlow.resolve_left (by omega)
    simp [unitsAt, hn]
  · have hbig : ¬ exponent * binade + n < binade := by omega
    rcases Nat.lt_or_eq_of_le hhigh with hlt | rfl
    · have hquotient : (exponent * binade + n) / binade = exponent + 1 := by
        rw [Nat.add_comm, Nat.add_mul_div_right _ _ hpos, Nat.div_eq_of_lt_le (k := 1) (by omega) (by omega), Nat.add_comm]
      have hrest : (exponent * binade + n) % binade = n - binade := by
        rw [Nat.add_comm, Nat.add_mul_mod_self_right, Nat.mod_eq_sub_mod hn, Nat.mod_eq_of_lt (by omega)]
      simp only [unitsAt, if_neg hbig, hquotient, hrest, Nat.pow_eq, Nat.add_sub_cancel]
      rw [Nat.add_sub_cancel' hn]
    · have hsum : exponent * binade + 2 * binade = (exponent + 2) * binade := by ring
      simp only [unitsAt, if_neg hbig]
      rw [hsum, Nat.mul_div_cancel _ hpos, Nat.mul_mod_left, Nat.pow_eq, Nat.add_zero, show exponent + 2 - 1 = exponent + 1 by omega,
        Nat.pow_succ]
      ring

/-- Every place has a binade and a number of units in its last place. -/
theorem exists_binade (place : Nat) : ∃ exponent n, place = exponent * binade + n ∧ (binade ≤ n ∨ exponent = 0) ∧ n < 2 * binade := by
  have hpos : 0 < binade := by decide
  rcases Nat.lt_or_ge place binade with h | h
  · exact ⟨0, place, by omega, Or.inr rfl, by omega⟩
  · have hdiv := Nat.div_add_mod place binade
    have hmod := Nat.mod_lt place hpos
    have hquotient : 1 ≤ place / binade := Nat.div_pos h hpos
    refine ⟨place / binade - 1, binade + place % binade, ?_, Or.inl (Nat.le_add_right ..), by omega⟩
    have hsplit : (place / binade - 1) * binade + binade = binade * (place / binade) := by
      rw [← Nat.succ_mul, Nat.succ_eq_add_one, Nat.sub_add_cancel hquotient, Nat.mul_comm]
    omega

/-! ## Fractions -/

/-- What is no greater than a magnitude is rounded to a place that is no greater. -/
theorem nearestPlace_le (hden : 0 < den) (h : num ≤ unitsAt place * den) : nearestPlace num den ≤ place := by
  obtain ⟨exponent, n, rfl, hlow, hhigh⟩ := exists_binade place
  rw [unitsAt_binade hlow hhigh.le] at h
  rw [nearestPlace_eq]
  have hunit : ∀ e, 0 < den * 2 ^ e := fun e => Nat.mul_pos hden (Nat.two_pow_pos e)
  have hlt := lt_of_exponentOf hden num
  have hle : exponentOf num den ≠ 0 → _ := le_of_exponentOf hden
  generalize exponentOf num den = e at hlt hle
  have hbinade := binade_eq
  rcases Nat.lt_trichotomy e exponent with hlt' | rfl | hgt
  · -- a lower binade ends below the magnitude
    have hround : roundHalfEven num (den * 2 ^ e) ≤ 2 * binade :=
      roundHalfEven_le (hunit e) (by rw [hbinade]; omega)
    have hstep : e * binade + binade ≤ exponent * binade := by
      rw [← Nat.succ_mul]
      exact Nat.mul_le_mul_right _ hlt'
    have hn : binade ≤ n := hlow.resolve_right (by omega)
    omega
  · have hround : roundHalfEven num (den * 2 ^ e) ≤ n :=
      roundHalfEven_le (hunit e) (h.trans_eq (by ring))
    omega
  · -- a higher binade begins above the magnitude
    have hstep : den * 2 ^ exponent * 2 ≤ den * 2 ^ e := by
      rw [Nat.mul_assoc, ← Nat.pow_succ]
      exact Nat.mul_le_mul_left _ (Nat.pow_le_pow_right (by decide) hgt)
    have hnum := (hle (by omega)).trans h
    have hbound : n * 2 ^ exponent * den < 2 ^ 53 * (den * 2 ^ exponent) := by
      rw [Nat.mul_assoc, Nat.mul_comm (2 ^ exponent)]
      exact Nat.mul_lt_mul_of_pos_right (by rw [hbinade] at hhigh; omega) (hunit exponent)
    omega

/-- What is no less than a magnitude is rounded to a place that is no less. -/
theorem le_nearestPlace (hden : 0 < den) (h : unitsAt place * den ≤ num) : place ≤ nearestPlace num den := by
  obtain ⟨exponent, n, rfl, hlow, hhigh⟩ := exists_binade place
  rw [unitsAt_binade hlow hhigh.le] at h
  rw [nearestPlace_eq]
  have hunit : ∀ e, 0 < den * 2 ^ e := fun e => Nat.mul_pos hden (Nat.two_pow_pos e)
  have hlt := lt_of_exponentOf hden num
  have hle : exponentOf num den ≠ 0 → _ := le_of_exponentOf hden
  generalize exponentOf num den = e at hlt hle
  have hbinade := binade_eq
  rcases Nat.lt_trichotomy e exponent with hlt' | rfl | hgt
  · have hn : 2 ^ 52 ≤ n := hbinade ▸ hlow.resolve_right (by omega)
    have hstep : den * 2 ^ e * 2 ≤ den * 2 ^ exponent := by
      rw [Nat.mul_assoc, ← Nat.pow_succ]
      exact Nat.mul_le_mul_left _ (Nat.pow_le_pow_right (by decide) hlt')
    have hbound : 2 ^ 52 * (den * 2 ^ exponent) ≤ n * 2 ^ exponent * den := by
      rw [Nat.mul_assoc n, Nat.mul_comm (2 ^ exponent)]
      exact Nat.mul_le_mul_right _ hn
    omega
  · have hround : n ≤ roundHalfEven num (den * 2 ^ e) :=
      le_roundHalfEven (hunit e) (le_of_eq_of_le (by ring) h)
    omega
  · have hround : binade ≤ roundHalfEven num (den * 2 ^ e) :=
      le_roundHalfEven (hunit e) (by rw [hbinade]; exact hle (by omega))
    have hstep : exponent * binade + binade ≤ e * binade := by
      rw [← Nat.succ_mul]
      exact Nat.mul_le_mul_right _ hgt
    omega

/-- A greater place has a greater magnitude. -/
theorem unitsAt_le_of_le {place' : Nat} (h : place ≤ place') : unitsAt place ≤ unitsAt place' := by
  by_contra hlt
  have hle : place' ≤ place := by
    have hround : nearestPlace (unitsAt place') 1 ≤ place := nearestPlace_le Nat.one_pos (by omega)
    rwa [nearestPlace_unitsAt] at hround
  rw [Nat.le_antisymm h hle] at hlt
  exact hlt (Nat.le_refl _)

/-- Above the first binade rounding adds at most one part in `2 ^ 53`. -/
theorem unitsAt_nearestPlace_le (hden : 0 < den) (h : 2 ^ 52 * den ≤ num) :
    unitsAt (nearestPlace num den) * den * 2 ^ 53 ≤ num * (2 ^ 53 + 1) := by
  have hlt := lt_of_exponentOf hden num
  have hle : 2 ^ 52 * (den * 2 ^ exponentOf num den) ≤ num := by
    by_cases hzero : exponentOf num den = 0
    · rwa [hzero, Nat.pow_zero, Nat.mul_one]
    · exact le_of_exponentOf hden hzero
  rw [nearestPlace_eq]
  generalize exponentOf num den = e at hlt hle
  have hunit : 0 < den * 2 ^ e := Nat.mul_pos hden (Nat.two_pow_pos e)
  have hround := two_mul_roundHalfEven_le num (den * 2 ^ e)
  have hlow : binade ≤ roundHalfEven num (den * 2 ^ e) := le_roundHalfEven hunit (by rwa [binade_eq])
  have hhigh : roundHalfEven num (den * 2 ^ e) ≤ 2 * binade :=
    roundHalfEven_le hunit (by rw [binade_eq]; omega)
  rw [unitsAt_binade (Or.inl hlow) hhigh]
  generalize roundHalfEven num (den * 2 ^ e) = n at *
  calc n * 2 ^ e * den * 2 ^ 53
    _ = 2 ^ 52 * (2 * (n * (den * 2 ^ e))) := by ring
    _ ≤ 2 ^ 52 * (2 * num + den * 2 ^ e) := Nat.mul_le_mul_left _ hround
    _ = num * 2 ^ 53 + 2 ^ 52 * (den * 2 ^ e) := by ring
    _ ≤ num * 2 ^ 53 + num := Nat.add_le_add_left hle _
    _ = num * (2 ^ 53 + 1) := by ring

end DatabaseBroker.Binary64
