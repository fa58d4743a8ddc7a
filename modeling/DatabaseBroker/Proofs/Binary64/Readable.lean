import DatabaseBroker.Proofs.Binary64.Rounding
import Mathlib.Tactic.FieldSimp
import Mathlib.Tactic.NormNum
import Mathlib.Tactic.Positivity
import Mathlib.Data.Rat.Cast.Order

/-!
# Decimals that denote floats

`Binary64.ofDecimal?` rounds three times on the way to a float, so it may pass the greatest float although the decimal does not.
It never does so from two places below the greatest float downwards (`ofDecimal?_isSome`).
-/

namespace DatabaseBroker.Binary64

/-- The place of the greatest float. -/
def lastPlace : Nat := 2047 * binade - 1

theorem one_pos : 0 < one := by decide +kernel

/-! ## Division -/

/-- Division by what is at least one leads to no greater place. -/
theorem divPlace_le {a b : Nat} (h : one ≤ unitsAt b) : divPlace a b ≤ a :=
  nearestPlace_le (one_pos.trans_le h) (Nat.mul_le_mul_left _ h)

theorem unitsAt_tenPlace_ge (exponent : Nat) : one ≤ unitsAt (tenPlace exponent) := by
  have hunits : unitsAt (1023 * binade) = one := by decide +kernel
  have hplace : 1023 * binade ≤ tenPlace exponent :=
    le_nearestPlace Nat.one_pos (by
      rw [hunits, Nat.mul_one]
      exact Nat.le_mul_of_pos_left _ (Nat.pow_pos (by decide)))
  exact hunits ▸ unitsAt_le_of_le hplace

theorem divTen_le (place exponent : Nat) : divTen place exponent ≤ place := by
  induction place, exponent using divTen.induct with
  | case1 place exponent h =>
    rw [divTen, if_pos h]
    exact divPlace_le (unitsAt_tenPlace_ge exponent)
  | case2 exponent h => rw [divTen, if_neg h, if_pos rfl]
  | case3 place exponent h hzero ih =>
    rw [divTen, if_neg h, if_neg hzero]
    exact ih.trans (divPlace_le (unitsAt_tenPlace_ge _))

/-- A word lies far below the greatest float. -/
theorem placeOfNat_le_last {n : Nat} (h : n < 2 ^ 64) : placeOfNat n ≤ lastPlace := by
  have hunits : unitsAt (1087 * binade) = 2 ^ 64 * one := by decide +kernel
  have hplace : placeOfNat n ≤ 1087 * binade :=
    nearestPlace_le Nat.one_pos (by
      rw [hunits, Nat.mul_one]
      exact Nat.mul_le_mul_right _ h.le)
  exact hplace.trans (by decide)

/-! ## Multiplication -/

/-- A whole number is rounded up by at most one part in `2 ^ 53`. -/
theorem unitsAt_placeOfNat_le (n : Nat) : unitsAt (placeOfNat n) * 2 ^ 53 ≤ n * one * (2 ^ 53 + 1) := by
  rcases Nat.eq_zero_or_pos n with rfl | hpos
  · have hzero : placeOfNat 0 ≤ 0 := nearestPlace_le Nat.one_pos (by simp)
    rw [Nat.le_zero.mp hzero, Nat.zero_mul, Nat.zero_mul]
    exact (Nat.zero_mul _).le
  · have hone : 2 ^ 52 * 1 ≤ one := by decide +kernel
    have hround := unitsAt_nearestPlace_le Nat.one_pos (hone.trans (Nat.le_mul_of_pos_left _ hpos))
    rwa [Nat.mul_one] at hround

/-- A power of ten past the greatest lies above every float. -/
theorem unitsAt_lt_ten_pow {exponent : Nat} (h : maxTenExponent + 1 ≤ exponent) :
    unitsAt (lastPlace + 1) < 10 ^ exponent * one := by
  have hleast : unitsAt (lastPlace + 1) < 10 ^ (maxTenExponent + 1) * one := by decide +kernel
  generalize maxTenExponent + 1 = least at h hleast
  exact hleast.trans_le (Nat.mul_le_mul_right _ (Nat.pow_le_pow_right (by decide) h))

/-- Two places below the greatest float there is room for the roundings of a significand and of its power of ten. -/
theorem mulPlace_le_last {n exponent : Nat} (h : n * 10 ^ exponent * one ≤ unitsAt (lastPlace - 2)) :
    mulPlace (placeOfNat n) (tenPlace exponent) ≤ lastPlace := by
  refine nearestPlace_le one_pos ?_
  have hn := unitsAt_placeOfNat_le n
  have hten : unitsAt (tenPlace exponent) * 2 ^ 53 ≤ 10 ^ exponent * one * (2 ^ 53 + 1) := unitsAt_placeOfNat_le _
  have hroom : unitsAt (lastPlace - 2) * (2 ^ 53 + 1) ^ 2 ≤ unitsAt lastPlace * 2 ^ 106 := by decide +kernel
  generalize unitsAt (placeOfNat n) = a at hn
  generalize unitsAt (tenPlace exponent) = b at hten
  generalize unitsAt (lastPlace - 2) = below at h hroom
  generalize unitsAt lastPlace = last at hroom
  refine Nat.le_of_mul_le_mul_right (c := 2 ^ 106) ?_ (by decide)
  calc a * b * 2 ^ 106
    _ = a * 2 ^ 53 * (b * 2 ^ 53) := by ring
    _ ≤ n * one * (2 ^ 53 + 1) * (10 ^ exponent * one * (2 ^ 53 + 1)) := Nat.mul_le_mul hn hten
    _ = n * 10 ^ exponent * one * (one * (2 ^ 53 + 1) ^ 2) := by ring
    _ ≤ below * (one * (2 ^ 53 + 1) ^ 2) := Nat.mul_le_mul_right _ h
    _ = one * (below * (2 ^ 53 + 1) ^ 2) := by ring
    _ ≤ one * (last * 2 ^ 106) := Nat.mul_le_mul_left _ hroom
    _ = last * one * 2 ^ 106 := by ring

/-! ## Decimals -/

theorem ofPlace?_isSome {negative : Bool} {place : Nat} (h : place ≤ lastPlace) : (ofPlace? negative place).isSome = true := by
  have hfinite : place < 2047 * binade := Nat.lt_of_le_pred (by decide) h
  rw [ofPlace?, dif_pos hfinite]
  rfl

end DatabaseBroker.Binary64

namespace DatabaseBroker

open Binary64

/-- The number that a significand and a power of ten stand for. -/
def Decimal.toRat (d : Decimal) : ℚ := d.significand * 10 ^ d.exponent

/-- A fraction of units is the number. -/
theorem Decimal.fraction_eq (d : Decimal) : (d.fraction.1 : ℚ) = d.toRat * one * d.fraction.2 := by
  obtain ⟨significand, exponent⟩ := d
  -- the unit is a number too great to be computed with
  cases exponent with
  | ofNat e =>
    simp only [fraction, toRat]
    generalize one = unit
    simp
  | negSucc e =>
    have hpow : (10 : ℚ) ^ (e + 1) ≠ 0 := by positivity
    simp only [fraction, toRat, Nat.pow_eq, zpow_negSucc]
    generalize one = unit
    push_cast
    field_simp

namespace Binary64

/-- The number lies no higher than two places below the greatest float. -/
def Bounded (q : ℚ) : Prop := q * one ≤ unitsAt (lastPlace - 2)

/-- A decimal lies below the magnitudes that are higher than the one it rounds to. -/
theorem toRat_lt_of_roundsTo {d : Decimal} {place upper : Nat} (h : d.roundsTo place = true) (hupper : place < upper) :
    d.toRat * one < unitsAt upper := by
  rw [Decimal.roundsTo, beq_iff_eq] at h
  have hlt : d.fraction.1 < unitsAt upper * d.fraction.2 := by
    by_contra hge
    have := le_nearestPlace d.fraction_pos (Nat.le_of_not_lt hge)
    omega
  have hpos : (0 : ℚ) < d.fraction.2 := by exact_mod_cast d.fraction_pos
  have hunits : (d.fraction.1 : ℚ) < unitsAt upper * d.fraction.2 := by exact_mod_cast hlt
  rw [Decimal.fraction_eq] at hunits
  exact lt_of_mul_lt_mul_right hunits hpos.le

/-- A word times a power of ten denotes a float when the power divides, or when the number is bounded. -/
theorem ofDecimal?_isSome {negative : Bool} {d : Decimal} (hword : d.significand < 2 ^ 64)
    (h : d.exponent < 0 ∨ Bounded d.toRat) : (ofDecimal? negative d.significand d.exponent).isSome = true := by
  obtain ⟨n, exponent⟩ := d
  suffices hplace : ∃ place, decimalPlace? n exponent = some place ∧ place ≤ lastPlace by
    obtain ⟨place, hsome, hlast⟩ := hplace
    simp only [ofDecimal?, hsome, Option.bind_some]
    exact ofPlace?_isSome hlast
  have hfinite : ∀ {place}, place ≤ lastPlace → isFinitePlace place = true := fun {place} hle =>
    decide_eq_true (Nat.lt_of_le_pred (by decide) hle)
  cases exponent with
  | negSucc e =>
    have hlast := (divTen_le (placeOfNat n) (e + 1)).trans (placeOfNat_le_last hword)
    exact ⟨_, by simp only [decimalPlace?, hfinite hlast, if_true], hlast⟩
  | ofNat e =>
    have hbound : n * 10 ^ e * one ≤ unitsAt (lastPlace - 2) := by
      have := h.resolve_left (by simp)
      simp only [Bounded, Decimal.toRat, Int.ofNat_eq_natCast, zpow_natCast] at this
      exact_mod_cast this
    by_cases hten : e ≤ maxTenExponent
    · have hlast := mulPlace_le_last hbound
      exact ⟨_, by simp only [decimalPlace?, if_pos hten, hfinite hlast, if_true], hlast⟩
    · -- past the greatest power of ten nothing but zero is bounded
      have hzero : n = 0 := by
        by_contra hpos
        have hpow : 10 ^ e * one ≤ n * 10 ^ e * one :=
          Nat.mul_le_mul_right _ (Nat.le_mul_of_pos_left _ (Nat.pos_of_ne_zero hpos))
        have hlow : unitsAt (lastPlace - 2) < 10 ^ e * one :=
          (unitsAt_le_of_le (by decide)).trans_lt (unitsAt_lt_ten_pow (Nat.lt_of_not_le hten))
        exact absurd (hpow.trans hbound) (Nat.not_le_of_lt hlow)
      have hstart : placeOfNat n = 0 := by
        rw [hzero]
        exact Nat.le_zero.mp (nearestPlace_le Nat.one_pos (by simp))
      exact ⟨0, by simp only [decimalPlace?, if_neg hten, if_pos hstart], Nat.zero_le _⟩

end Binary64

end DatabaseBroker
