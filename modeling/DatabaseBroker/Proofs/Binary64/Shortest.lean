import DatabaseBroker.Binary64.Shortest
import Mathlib.Data.Nat.Log
import Mathlib.Tactic.Ring

/-!
# The shortest decimal of a float rounds to it

`Binary64.nearestPlace` depends on a fraction only through its value (`nearestPlace_congr`), and it finds the magnitude at a
place back (`nearestPlace_unitsAt`). So the exact decimal of a place rounds to that place, every decimal that is tried before it
is taken only when it does, and moving zeros into the exponent changes no value: the decimal that is written rounds to the place
it is written for (`roundsTo_shortest`), and no two places share one (`shortest_injective`).
-/

namespace DatabaseBroker

namespace Binary64

/-! ## Rounding -/

/-- Rounding a fraction does not depend on how it is written. -/
theorem roundHalfEven_mul_left {k : Nat} (hk : 0 < k) (num den : Nat) :
    roundHalfEven (k * num) (k * den) = roundHalfEven num den := by
  have hlow : k * num / (k * den) = num / den := Nat.mul_div_mul_left num den hk
  have hrest : k * num % (k * den) = k * (num % den) := Nat.mul_mod_mul_left k num den
  have hbelow : 2 * (k * (num % den)) < k * den ↔ 2 * (num % den) < den := by
    rw [Nat.mul_left_comm]
    exact Nat.mul_lt_mul_left hk
  have habove : k * den < 2 * (k * (num % den)) ↔ den < 2 * (num % den) := by
    rw [Nat.mul_left_comm]
    exact Nat.mul_lt_mul_left hk
  simp only [roundHalfEven, hlow, hrest, hbelow, habove]

theorem nearestPlace_mul_left {k : Nat} (hk : 0 < k) (num den : Nat) :
    nearestPlace (k * num) (k * den) = nearestPlace num den := by
  rw [nearestPlace, nearestPlace, Nat.mul_div_mul_left num den hk, Nat.mul_assoc, roundHalfEven_mul_left hk]

/-- Equal fractions have one nearest magnitude. -/
theorem nearestPlace_congr {num den num' den' : Nat} (hden : 0 < den) (hden' : 0 < den')
    (h : num * den' = num' * den) : nearestPlace num den = nearestPlace num' den' :=
  calc nearestPlace num den
    _ = nearestPlace (den' * num) (den' * den) := (nearestPlace_mul_left hden' num den).symm
    _ = nearestPlace (den * num') (den * den') := by rw [Nat.mul_comm den' num, h, Nat.mul_comm num', Nat.mul_comm den']
    _ = nearestPlace num' den' := nearestPlace_mul_left hden num' den'

/-- A whole number of parts is not rounded. -/
theorem roundHalfEven_mul_self {den : Nat} (hden : 0 < den) (n : Nat) : roundHalfEven (n * den) den = n := by
  simp only [roundHalfEven, Nat.mul_mod_left, Nat.mul_zero, if_pos hden, Nat.mul_div_cancel n hden]

/-- The magnitude at a place is nearest to itself. -/
theorem nearestPlace_unitsAt (place : Nat) : nearestPlace (unitsAt place) 1 = place := by
  have hbinade : binade = 2 ^ 52 := by decide
  by_cases hsmall : place < binade
  · have hlog : place.log2 - 52 = 0 := by
      by_cases hzero : place = 0
      · rw [hzero]
        decide
      · have := (Nat.log2_lt hzero).mpr (hbinade ▸ hsmall)
        omega
    have hround := roundHalfEven_mul_self Nat.one_pos place
    rw [Nat.mul_one] at hround
    simp [unitsAt, if_pos hsmall, nearestPlace, hlog, hround]
  · -- above the first binade the exponent is read off the leading bit of the magnitude
    have hpos : 0 < binade := by decide
    have hquotient : 1 ≤ place / binade := Nat.div_pos (Nat.le_of_not_lt hsmall) hpos
    have hrest : place % binade < binade := Nat.mod_lt _ hpos
    have hlog : ((binade + place % binade) * 2 ^ (place / binade - 1)).log2 = 52 + (place / binade - 1) := by
      have hunit : 0 < 2 ^ (place / binade - 1) := Nat.two_pow_pos _
      rw [Nat.log2_eq_iff (Nat.mul_pos (by omega) hunit).ne', Nat.pow_add, Nat.add_right_comm, Nat.pow_add, ← hbinade]
      refine ⟨Nat.mul_le_mul_right _ (Nat.le_add_right ..), Nat.mul_lt_mul_of_pos_right ?_ hunit⟩
      rw [Nat.pow_succ, ← hbinade]
      omega
    have hround := roundHalfEven_mul_self (Nat.pow_pos (n := place / binade - 1) Nat.two_pos) (binade + place % binade)
    have hplace := Nat.div_add_mod place binade
    have hshift : (place / binade - 1) * binade + binade = binade * (place / binade) := by
      rw [← Nat.succ_mul, Nat.succ_eq_add_one, Nat.sub_add_cancel hquotient, Nat.mul_comm]
    simp only [unitsAt, if_neg hsmall, nearestPlace, Nat.pow_eq, Nat.div_one, hlog, Nat.add_sub_cancel_left, Nat.one_mul, hround]
    omega

end Binary64

/-! ## Decimals of one value -/

namespace Decimal

theorem fraction_pos (d : Decimal) : 0 < d.fraction.2 := by
  unfold fraction
  split
  · exact Nat.one_pos
  · exact Nat.pow_pos (by decide)

/-- A zero at the end of the significand may stand in the exponent. -/
theorem roundsTo_shift (significand place : Nat) (exponent : Int) :
    roundsTo ⟨10 * significand, exponent⟩ place = roundsTo ⟨significand, exponent + 1⟩ place := by
  suffices h : (fraction ⟨10 * significand, exponent⟩).1 * (fraction ⟨significand, exponent + 1⟩).2 =
      (fraction ⟨significand, exponent + 1⟩).1 * (fraction ⟨10 * significand, exponent⟩).2 by
    rw [roundsTo, roundsTo, Binary64.nearestPlace_congr (fraction_pos _) (fraction_pos _) h]
  match exponent with
  | .ofNat e =>
    have hnext : Int.ofNat e + 1 = Int.ofNat (e + 1) := rfl
    simp only [hnext, fraction, Nat.pow_eq]
    ring
  | .negSucc 0 =>
    have hnext : Int.negSucc 0 + 1 = Int.ofNat 0 := rfl
    simp only [hnext, fraction, Nat.pow_eq]
    ring
  | .negSucc (e + 1) =>
    have hnext : Int.negSucc (e + 1) + 1 = Int.negSucc e := rfl
    simp only [hnext, fraction, Nat.pow_eq]
    ring

/-- Moving zeros into the exponent changes no value. -/
theorem roundsTo_strip (d : Decimal) (place : Nat) : d.strip.roundsTo place = d.roundsTo place := by
  induction d using strip.induct with
  | case1 d h ih =>
    have hsplit : 10 * (d.significand / 10) = d.significand := by omega
    rw [strip, dif_pos h, ih, ← roundsTo_shift, hsplit]
  | case2 d h => rw [strip, dif_neg h]

/-- Zero, or without a zero at its end. -/
def Stripped (d : Decimal) : Prop := d = ⟨0, 0⟩ ∨ d.significand % 10 ≠ 0

/-- What is left of a decimal that is not zero has no zero at its end. -/
theorem stripped_strip {d : Decimal} (h : d.significand ≠ 0) : d.strip.Stripped := by
  induction d using strip.induct with
  | case1 d hzero ih =>
    rw [strip, dif_pos hzero]
    refine ih ?_
    show d.significand / 10 ≠ 0
    omega
  | case2 d hdigit =>
    rw [strip, dif_neg hdigit]
    exact Or.inr fun hzero => hdigit ⟨h, hzero⟩

/-- Zero rounds to the first place and no other. -/
theorem roundsTo_of_zero {d : Decimal} (hzero : d.significand = 0) (place : Nat) : d.roundsTo place = (0 == place) := by
  have hfraction : d.fraction.1 * 1 = Binary64.unitsAt 0 * d.fraction.2 := by
    have hunits : Binary64.unitsAt 0 = 0 := rfl
    rw [hunits, Nat.zero_mul, Nat.mul_one]
    unfold fraction
    split <;> simp [hzero]
  rw [roundsTo, Binary64.nearestPlace_congr (fraction_pos d) Nat.one_pos hfraction, Binary64.nearestPlace_unitsAt]

end Decimal

namespace Binary64

/-! ## The shortest decimal -/

/-- Powers of five and two make a power of ten, which the denominator takes away again. -/
theorem nearestPlace_scaled (num n : Nat) : nearestPlace (num * 5 ^ n * 2 ^ n) (10 ^ n) = nearestPlace num 1 := by
  refine nearestPlace_congr (Nat.pow_pos (by decide)) Nat.one_pos ?_
  rw [Nat.mul_one, Nat.mul_assoc, ← Nat.mul_pow]

/-- The exact decimal of a place rounds to it. -/
theorem roundsTo_exactDecimal (place : Nat) : (exactDecimal place).roundsTo place = true := by
  -- the exponent as a variable, so that no power is computed
  obtain ⟨n, hplaces⟩ : ∃ n, n + 1 = 1074 := ⟨1073, rfl⟩
  have hexponent : (-1074 : Int) = Int.negSucc n := by omega
  have hone : one = Nat.pow 2 (n + 1) := by
    unfold one
    rw [← hplaces]
  have hnearest := nearestPlace_scaled (unitsAt place) (n + 1)
  rw [nearestPlace_unitsAt] at hnearest
  simp only [Decimal.roundsTo, beq_iff_eq, exactDecimal, hexponent, Decimal.fraction, hone, ← hplaces]
  exact hnearest

/-- The decimal that is written for a place rounds to it and has no zero at its end. -/
theorem shortest_spec (place : Nat) : (shortest place).roundsTo place = true ∧ (shortest place).Stripped := by
  by_cases hzero : place = 0
  · rw [shortest, if_pos hzero, hzero]
    exact ⟨Decimal.roundsTo_of_zero rfl 0, Or.inl rfl⟩
  · obtain ⟨d, hd, hrounds⟩ : ∃ d : Decimal, shortest place = d.strip ∧ d.roundsTo place = true := by
      rw [shortest, if_neg hzero]
      dsimp only
      generalize hhits : ((List.range 17).map fun (n : Nat) => leadingExponent (unitsAt place) - n).filterMap
        (fun e => (hitOnGrid? place e).filter (·.roundsTo place)) = hits
      cases hits with
      | nil => exact ⟨_, rfl, roundsTo_exactDecimal place⟩
      | cons d rest =>
        have hmem : d ∈ d :: rest := List.mem_cons_self ..
        rw [← hhits, List.mem_filterMap] at hmem
        obtain ⟨e, -, hhit⟩ := hmem
        exact ⟨d, rfl, (Option.filter_eq_some_iff.mp hhit).2⟩
    rw [hd]
    refine ⟨by rw [Decimal.roundsTo_strip, hrounds], Decimal.stripped_strip fun hsignificand => hzero ?_⟩
    rw [Decimal.roundsTo_of_zero hsignificand, beq_iff_eq] at hrounds
    exact hrounds.symm

theorem roundsTo_shortest (place : Nat) : (shortest place).roundsTo place = true := (shortest_spec place).1

theorem stripped_shortest (place : Nat) : (shortest place).Stripped := (shortest_spec place).2

/-- No two places share a decimal. -/
theorem shortest_injective {place place' : Nat} (h : shortest place = shortest place') : place = place' := by
  have hplace := roundsTo_shortest place
  have hplace' := roundsTo_shortest place'
  rw [Decimal.roundsTo, beq_iff_eq] at hplace hplace'
  rw [← hplace, h, hplace']

end Binary64

end DatabaseBroker
