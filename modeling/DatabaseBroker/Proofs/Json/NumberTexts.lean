import DatabaseBroker.Json.Reread
import DatabaseBroker.Proofs.Binary64.Readable
import DatabaseBroker.Proofs.Json.Numerals

/-!
# Numbers are read as numbers

The reader takes the text of a number up to what ends a value (`Json.Ends`). A whole number comes back as itself. Of a decimal the
reader keeps a significand that fits a word and a power of ten, which never stand for more than the decimal itself
(`Written.takenFor`); so the text of a float always denotes a float (`readValue_floatText`), if perhaps a neighbour.
-/

namespace DatabaseBroker

open Text.Numeral (value digitValue value_append_singleton value_append)

namespace Document

variable {ds whole fraction r : List Char} {negative : Bool} {s : Scaled}

/-! ## Significands -/

namespace Scaled

/-- The decimal of a scaled significand. -/
def toDecimal (s : Scaled) : Decimal := ⟨s.significand, s.exponent⟩

theorem value_cons (c : Char) (cs : List Char) : value (c :: cs) = digitValue c * 10 ^ cs.length + value cs := by
  have h := value_append [c] cs
  simpa [value] using h

theorem significand_addFraction (hs : s.significand ≤ maxWord) (cs : List Char) : (s.addFraction cs).significand ≤ maxWord := by
  induction cs generalizing s with
  | nil => exact hs
  | cons c cs ih =>
    simp only [addFraction]
    split
    · exact ih (by assumption)
    · exact hs

/-- Digits of a fraction add no more than they stand for. -/
theorem toRat_addFraction_le (s : Scaled) (cs : List Char) :
    (s.addFraction cs).toDecimal.toRat ≤
      ((s.significand * 10 ^ cs.length + value cs : Nat) : ℚ) * 10 ^ (s.exponent - cs.length) := by
  have hpow : ∀ e : ℤ, (0 : ℚ) < 10 ^ e := fun e => zpow_pos (by norm_num) e
  induction cs generalizing s with
  | nil => simp [addFraction, toDecimal, Decimal.toRat, value]
  | cons c cs ih =>
    rw [value_cons]
    simp only [addFraction]
    split
    · refine (ih _).trans_eq ?_
      have hexponent : s.exponent - 1 - (cs.length : ℤ) = s.exponent - ((c :: cs).length : ℤ) := by
        push_cast [List.length_cons]
        ring
      rw [hexponent]
      push_cast [List.length_cons]
      ring
    · simp only [toDecimal, Decimal.toRat]
      rw [zpow_sub₀ (by norm_num), zpow_natCast, mul_div_assoc', le_div_iff₀ (by positivity), mul_right_comm]
      refine mul_le_mul_of_nonneg_right ?_ (hpow _).le
      push_cast
      exact le_add_of_nonneg_right (by positivity)

/-- What the reader keeps of a decimal: a significand that fits a word, and no more than the decimal stands for where it is not
divided by a power of ten. -/
def Keeps (s : Scaled) (d : Decimal) : Prop := s.significand ≤ maxWord ∧ (s.exponent < 0 ∨ s.toDecimal.toRat ≤ d.toRat)

end Scaled

/-! ## Rows of digits -/

/-- What may stand behind digits that are read as one row. -/
def NoDigit (r : List Char) : Prop := ∀ c ∈ r.head?, c.isDigit = false

theorem spanDigits_append (hds : ∀ c ∈ ds, c.isDigit = true) (hr : NoDigit r) : spanDigits (ds ++ r) = (ds, r) := by
  have hstop : r.takeWhile Char.isDigit = [] ∧ r.dropWhile Char.isDigit = r := by
    cases r with
    | nil => exact ⟨rfl, rfl⟩
    | cons c rest =>
      have hc : c.isDigit = false := hr c rfl
      simp [hc]
  rw [spanDigits, List.span_eq_takeWhile_dropWhile, List.takeWhile_append_of_pos hds, List.dropWhile_append_of_pos hds, hstop.1,
    hstop.2, List.append_nil]

/-- A row of digits stands for less than the power of ten of its length. -/
theorem value_lt_pow (hds : ∀ c ∈ ds, c.isDigit = true) : value ds < 10 ^ ds.length := by
  induction ds with
  | nil => decide
  | cons c rest ih =>
    have hc : digitValue c < 10 := by
      have := hds c List.mem_cons_self
      simp only [Char.isDigit, Bool.and_eq_true, decide_eq_true_eq] at this
      have hle : c.toNat ≤ 57 := this.2
      unfold digitValue
      omega
    have hrest := ih fun d hd => hds d (List.mem_cons_of_mem _ hd)
    rw [Scaled.value_cons, List.length_cons, Nat.pow_succ]
    calc digitValue c * 10 ^ rest.length + value rest
      _ < digitValue c * 10 ^ rest.length + 10 ^ rest.length := Nat.add_lt_add_left hrest _
      _ = (digitValue c + 1) * 10 ^ rest.length := (Nat.succ_mul ..).symm
      _ ≤ 10 * 10 ^ rest.length := Nat.mul_le_mul_right _ hc
      _ = 10 ^ rest.length * 10 := Nat.mul_comm ..

/-- A row of digits without a zero before others. -/
structure Plain (ds : List Char) : Prop where
  digits : ∀ c ∈ ds, c.isDigit = true
  nonempty : ds ≠ []
  unpadded : ds.head? = some '0' → ds.length = 1

theorem Plain.not_refused (h : Plain ds) : ¬ (ds.isEmpty = true ∨ (ds.head? = some '0' ∧ ds.length ≠ 1)) := by
  rintro (hempty | ⟨hzero, hlength⟩)
  · exact h.nonempty (List.isEmpty_iff.mp hempty)
  · exact hlength (h.unpadded hzero)

/-- The digits of a number are such a row. -/
theorem plain_toDigits (n : Nat) : Plain (Nat.toDigits 10 n) where
  digits := Json.isDigit_toDigits n
  nonempty := Text.Numeral.ofNat_ne_nil n
  unpadded hhead := by
    by_contra hlength
    have hpos : 0 < (Nat.toDigits 10 n).length := Nat.length_toDigits_pos
    have hvalue := Json.value_toDigits n
    have hbound : (Nat.toDigits 10 n).length ≤ (Nat.toDigits 10 n).length - 1 := by
      rw [Nat.length_toDigits_le_iff (by decide) (by omega)]
      obtain ⟨rest, hrest⟩ := List.head?_eq_some_iff.mp hhead
      have hdigits := Json.isDigit_toDigits n
      rw [hrest] at hvalue hdigits ⊢
      rw [← hvalue, Scaled.value_cons, show digitValue '0' = 0 from rfl, Nat.zero_mul, Nat.zero_add]
      exact value_lt_pow fun c hc => hdigits c (List.mem_cons_of_mem _ hc)
    omega

/-! ## Numbers -/

theorem noDigit_of_ends (hr : Json.Ends r) : NoDigit r := by
  intro c hc
  rcases hr c hc with rfl | rfl | rfl <;> rfl

/-- No exponent follows. -/
theorem readExponent_of_ends (hr : Json.Ends r) (s : Scaled) : readExponent s r = some (s, r) := by
  cases r with
  | nil => rfl
  | cons c rest => rcases hr c rfl with rfl | rfl | rfl <;> rfl

/-- An exponent follows. -/
theorem readExponent_integerText (hr : Json.Ends r) (s : Scaled) (n : Int) :
    readExponent s ('e' :: (Json.integerText n ++ r)) = some (s.shift (decide (n < 0)) (Nat.toDigits 10 n.natAbs), r) := by
  have hspan : ∀ m, spanDigits (Nat.toDigits 10 m ++ r) = (Nat.toDigits 10 m, r) := fun m =>
    spanDigits_append (Json.isDigit_toDigits m) (noDigit_of_ends hr)
  have hnonempty : ∀ m, (Nat.toDigits 10 m).isEmpty = false := fun m =>
    List.isEmpty_eq_false_iff.mpr (Text.Numeral.ofNat_ne_nil m)
  cases n with
  | negSucc n => simp [readExponent, Json.integerText, hspan, hnonempty]
  | ofNat n =>
    have hsign : ∀ m : Nat, ¬ Int.ofNat m < 0 := fun m => Int.not_lt.mpr (Int.natCast_nonneg m)
    simp only [Json.integerText, Int.natAbs_ofNat', hsign, decide_false]
    have hspan := hspan n
    have hnonempty := hnonempty n
    have hdigits := Json.isDigit_toDigits n
    generalize Nat.toDigits 10 n = digits at *
    cases digits with
    | nil => cases hnonempty
    | cons c rest =>
      have hc : c.isDigit = true := hdigits c List.mem_cons_self
      simp only [readExponent, true_or, if_true, List.cons_append]
      split
      · rename_i heq
        cases heq
        cases hc
      · rename_i heq
        cases heq
        cases hc
      · rw [← List.cons_append, hspan]
        rfl

/-- Digits and nothing else make a whole number. -/
theorem readNumber_whole (hwhole : Plain whole) (hr : Json.Ends r) :
    readNumber negative (whole ++ r) = (ofWhole negative whole, some r) := by
  simp only [readNumber, spanDigits_append hwhole.digits (noDigit_of_ends hr), if_neg hwhole.not_refused]
  cases r with
  | nil => rfl
  | cons c rest => rcases hr c rfl with rfl | rfl | rfl <;> rfl

/-- Digits with a point and digits behind it make a float, with the exponent that follows, if any. -/
theorem readNumber_point {tail : List Char} (hwhole : Plain whole) (hdigits : ∀ c ∈ fraction, c.isDigit = true)
    (hfraction : fraction ≠ []) (htail : NoDigit tail)
    (hexponent : readExponent ((Scaled.addWhole ⟨0, 0⟩ whole).addFraction fraction) tail = some (s, r)) :
    readNumber negative (whole ++ '.' :: (fraction ++ tail)) = (ofFloat negative s, some r) := by
  have hpoint : NoDigit ('.' :: (fraction ++ tail)) := fun c hc => by
    cases hc
    rfl
  simp only [readNumber, spanDigits_append hwhole.digits hpoint, if_neg hwhole.not_refused, spanDigits_append hdigits htail,
    List.isEmpty_eq_false_iff.mpr hfraction, Bool.false_eq_true, if_false, hexponent]

/-- Digits with an exponent make a float. -/
theorem readNumber_exponent {tail : List Char} (hwhole : Plain whole)
    (hexponent : readExponent (Scaled.addWhole ⟨0, 0⟩ whole) ('e' :: tail) = some (s, r)) :
    readNumber negative (whole ++ 'e' :: tail) = (ofFloat negative s, some r) := by
  have hmark : NoDigit ('e' :: tail) := fun c hc => by
    cases hc
    rfl
  simp only [readNumber, spanDigits_append hwhole.digits hmark, if_neg hwhole.not_refused, hexponent]
  rfl

/-! ## Whole numbers -/

/-- A whole number is read as itself. -/
theorem readNumber_integerText {n : Nat} (hrange : n < 0x10000000000000000) (hr : Json.Ends r) :
    readNumber false (Nat.toDigits 10 n ++ r) = (.number (.integer n (by omega)), some r) := by
  rw [readNumber_whole (plain_toDigits n) hr]
  simp only [ofWhole, Json.value_toDigits, Bool.false_eq_true, if_false, dif_pos hrange]

theorem readNumber_negative {n : Nat} (hrange : n + 1 ≤ 0x8000000000000000) (hr : Json.Ends r) :
    readNumber true (Nat.toDigits 10 (n + 1) ++ r) = (.number (.integer (.negSucc n) (by omega)), some r) := by
  rw [readNumber_whole (plain_toDigits _) hr]
  simp only [ofWhole, Json.value_toDigits, if_true, Nat.succ_ne_zero, if_false, dif_pos hrange]
  rfl

/-! ## Decimals -/

/-- Digits of a whole part that fit a word are all taken. -/
theorem Scaled.addWhole_eq {cs : List Char} (h : s.significand * 10 ^ cs.length + value cs ≤ maxWord) :
    s.addWhole cs = ⟨s.significand * 10 ^ cs.length + value cs, s.exponent⟩ := by
  induction cs generalizing s with
  | nil => simp [addWhole, value]
  | cons c cs ih =>
    rw [value_cons, List.length_cons, Nat.pow_succ] at h ⊢
    have hsplit : s.significand * (10 ^ cs.length * 10) + (digitValue c * 10 ^ cs.length + value cs) =
        (s.significand * 10 + digitValue c) * 10 ^ cs.length + value cs := by ring
    rw [hsplit] at h ⊢
    have hnext : s.significand * 10 + digitValue c ≤ maxWord :=
      (Nat.le_mul_of_pos_right _ (Nat.pow_pos (by decide))).trans ((Nat.le_add_right ..).trans h)
    rw [addWhole]
    exact (if_pos hnext).trans (ih (s := ⟨_, s.exponent⟩) h)

/-- A point among the digits of a decimal. -/
theorem Scaled.keeps_point {d : Decimal} (hwhole : ∀ c ∈ whole, c.isDigit = true) (hlength : whole.length ≤ 16)
    (hd : (⟨value (whole ++ fraction), -fraction.length⟩ : Decimal).toRat ≤ d.toRat) :
    ((addWhole ⟨0, 0⟩ whole).addFraction fraction).significand ≤ maxWord ∧
      ((addWhole ⟨0, 0⟩ whole).addFraction fraction).toDecimal.toRat ≤ d.toRat := by
  have hword : value whole ≤ maxWord :=
    ((value_lt_pow hwhole).le.trans (Nat.pow_le_pow_right (by decide) hlength)).trans (by decide)
  rw [addWhole_eq (by simpa using hword)]
  refine ⟨significand_addFraction (by simpa using hword) fraction, (toRat_addFraction_le _ fraction).trans ?_⟩
  simpa [Decimal.toRat, value_append] using hd

/-- An exponent behind the digits. -/
theorem Scaled.keeps_shift {n : Int} (hs : s.significand ≤ maxWord) (hn : n ≤ maxExponent) {d : Decimal}
    (hd : s.toDecimal.toRat * 10 ^ n ≤ d.toRat) : (s.shift (decide (n < 0)) (Nat.toDigits 10 n.natAbs)).Keeps d := by
  have hten : (1 : ℚ) ≤ 10 := by norm_num
  have hnonneg : 0 ≤ d.toRat := mul_nonneg (Nat.cast_nonneg _) (zpow_nonneg (by norm_num) _)
  have hsum : (if decide (n < 0) = true then s.exponent - (n.natAbs : Int) else s.exponent + (n.natAbs : Int)) = s.exponent + n := by
    simp only [decide_eq_true_eq]
    split <;> omega
  unfold shift
  rw [Json.value_toDigits]
  dsimp only
  rw [hsum]
  split
  · refine ⟨hs, or_iff_not_imp_left.mpr fun hexponent => le_trans ?_ hd⟩
    -- an exponent that is not negative was lowered, if it was changed at all
    have hle : min (max (s.exponent + n) (-0x80000000)) maxExponent ≤ s.exponent + n := by
      dsimp only at hexponent
      omega
    simp only [toDecimal, Decimal.toRat]
    rw [mul_assoc, ← zpow_add₀ (by norm_num)]
    exact mul_le_mul_of_nonneg_left (zpow_le_zpow_right₀ hten hle) (Nat.cast_nonneg _)
  · split
    · exact ⟨Nat.zero_le _, Or.inr (by simpa [toDecimal, Decimal.toRat] using hnonneg)⟩
    · rename_i hbig hsign
      rw [decide_eq_true_eq] at hsign
      omega

/-- What is written for a decimal stands for the decimal. -/
theorem toRat_ofText_decimalText (d : Decimal) : (Decimal.ofText (Json.decimalText d)).toRat = d.toRat := by
  obtain ⟨k, hk⟩ := Json.ofText_decimalText d
  rw [hk, Decimal.toRat, Decimal.toRat, zpow_sub₀ (by norm_num), zpow_natCast]
  push_cast
  field_simp

/-- The ways in which a decimal is written: with a point, with one digit before an exponent, with both. -/
inductive Written : List Char → Prop where
  | point {whole fraction : List Char} (hwhole : Plain whole) (hlength : whole.length ≤ 16)
    (hdigits : ∀ c ∈ fraction, c.isDigit = true) (hfraction : fraction ≠ []) : Written (whole ++ '.' :: fraction)
  | exponent {c : Char} {n : Int} (hc : c.isDigit = true) (hn : n ≤ maxExponent) : Written ([c] ++ 'e' :: Json.integerText n)
  | both {c : Char} {fraction : List Char} {n : Int} (hc : c.isDigit = true) (hdigits : ∀ c ∈ fraction, c.isDigit = true)
    (hfraction : fraction ≠ []) (hn : n ≤ maxExponent) : Written (([c] ++ '.' :: fraction) ++ 'e' :: Json.integerText n)

theorem plain_singleton {c : Char} (hc : c.isDigit = true) : Plain [c] where
  digits _ hmem := List.mem_singleton.mp hmem ▸ hc
  nonempty := by simp
  unpadded _ := rfl

theorem isDigit_replicate_zero (n : Nat) : ∀ c ∈ List.replicate n '0', c.isDigit = true := fun c hc => by
  rw [List.eq_of_mem_replicate hc]
  rfl

/-- The first digits of such a row are one. -/
theorem Plain.take (h : Plain ds) {n : Nat} (hn : 0 < n) : Plain (ds.take n) where
  digits c hc := h.digits c (List.mem_of_mem_take hc)
  nonempty hnil := by
    rcases List.take_eq_nil_iff.mp hnil with rfl | hempty
    · exact Nat.lt_irrefl 0 hn
    · exact h.nonempty hempty
  unpadded hhead := by
    rw [List.head?_take, if_neg (Nat.pos_iff_ne_zero.mp hn)] at hhead
    have hlength := h.unpadded hhead
    rw [List.length_take]
    omega

/-- So is the row with zeros behind it, if it does not begin with a zero. -/
theorem Plain.append_zeros (h : Plain ds) {n : Nat} (hzero : ds.head? = some '0' → n = 0) :
    Plain (ds ++ List.replicate n '0') where
  digits c hc := (List.mem_append.mp hc).elim (h.digits c) (isDigit_replicate_zero n c)
  nonempty := by simp [h.nonempty]
  unpadded hhead := by
    rw [List.head?_append_of_ne_nil _ h.nonempty] at hhead
    rw [hzero hhead]
    simpa using h.unpadded hhead

/-- A zero before the digits is the only digit, and the decimal is zero. -/
theorem eq_zero_of_head? {d : Decimal} (hd : d.Stripped) (hhead : (Nat.toDigits 10 d.significand).head? = some '0') :
    d = ⟨0, 0⟩ := by
  have hplain := plain_toDigits d.significand
  have hvalue := Json.value_toDigits d.significand
  obtain ⟨rest, hrest⟩ := List.head?_eq_some_iff.mp hhead
  have hlength := hplain.unpadded hhead
  rw [hrest, List.length_cons, Nat.succ_inj, List.length_eq_zero_iff] at hlength
  rw [hrest, hlength] at hvalue
  exact hd.resolve_right fun hdigit => hdigit (by rw [← hvalue]; rfl)

/-- A decimal is written in one of these ways. -/
theorem written_decimalText {d : Decimal} (hd : d.Stripped)
    (hpoint : (Nat.toDigits 10 d.significand).length + d.exponent ≤ maxExponent + 1) : Written (Json.decimalText d) := by
  have hplain := plain_toDigits d.significand
  have hpos : 0 < (Nat.toDigits 10 d.significand).length := Nat.length_toDigits_pos
  have hzero := eq_zero_of_head? hd
  have hrange : Json.positionalRange = (-4, 16) := rfl
  obtain ⟨significand, exponent⟩ := d
  simp only [Json.decimalText, Decimal.mk.injEq] at *
  generalize Nat.toDigits 10 significand = digits at hpoint hplain hpos hzero ⊢
  split
  · -- zeros before the point
    rename_i hwhole
    rw [hrange] at hwhole
    show Written ((digits ++ List.replicate exponent.toNat '0') ++ '.' :: ['0'])
    refine .point (hplain.append_zeros fun hhead => ?_) ?_ (isDigit_replicate_zero 1) (by simp)
    · rw [(hzero hhead).2]
      rfl
    · simp only [List.length_append, List.length_replicate]
      omega
  split
  · -- the point among the digits
    rename_i hbehind hwhole
    rw [hrange] at hbehind hwhole
    generalize hn : (digits.length + exponent).toNat = n
    refine .point (hplain.take (by omega)) ?_ (fun c hc => hplain.digits c (List.mem_of_mem_drop hc)) fun hnil => ?_
    · rw [List.length_take]
      omega
    · have hlength := congrArg List.length hnil
      rw [List.length_drop, List.length_nil] at hlength
      omega
  split
  · -- zeros behind the point
    rename_i hbefore
    rw [show '0' :: '.' :: List.replicate (-(digits.length + exponent)).toNat '0' ++ digits =
      ['0'] ++ '.' :: (List.replicate (-(digits.length + exponent)).toNat '0' ++ digits) by simp]
    refine .point (plain_singleton rfl) (by decide) (fun c hc => ?_) ?_
    · exact (List.mem_append.mp hc).elim (isDigit_replicate_zero _ c) (hplain.digits c)
    · simp [hplain.nonempty]
  · have hn : digits.length + exponent - 1 ≤ maxExponent := by omega
    rw [Json.toList_toString_int]
    match digits, hpos with
    | [c], _ => exact .exponent (hplain.digits c List.mem_cons_self) hn
    | c :: b :: rest, _ =>
      exact .both (hplain.digits c List.mem_cons_self) (fun a ha => hplain.digits a (List.mem_cons_of_mem _ ha))
        (by simp) hn

/-- Each way begins with a digit. -/
theorem Written.head {text : List Char} (h : Written text) : ∃ c rest, text = c :: rest ∧ c.isDigit = true := by
  cases h with
  | point hwhole =>
    obtain ⟨c, rest, hcons⟩ := List.exists_cons_of_ne_nil hwhole.nonempty
    exact ⟨c, _, by rw [hcons, List.cons_append], hwhole.digits c (hcons ▸ List.mem_cons_self)⟩
  | exponent hc => exact ⟨_, _, rfl, hc⟩
  | both hc => exact ⟨_, _, rfl, hc⟩

/-- What the reader makes of a text in front of what ends a value. -/
def TakenFor (text : List Char) (d : Decimal) : Prop :=
  ∃ s : Scaled, s.Keeps d ∧ ∀ negative r, Json.Ends r → readNumber negative (text ++ r) = (ofFloat negative s, some r)

/-- What is written in one of these ways is read as a decimal that stands for no more. -/
theorem Written.takenFor {text : List Char} (h : Written text) {d : Decimal} (hvalue : (Decimal.ofText text).toRat = d.toRat) :
    TakenFor text d := by
  cases h with
  | point hwhole hlength hdigits hfraction =>
    rw [Decimal.ofText_point hwhole.digits hdigits] at hvalue
    have hkeeps := Scaled.keeps_point hwhole.digits hlength hvalue.le
    refine ⟨_, ⟨hkeeps.1, Or.inr hkeeps.2⟩, fun negative r hr => ?_⟩
    rw [List.append_assoc, List.cons_append]
    exact readNumber_point hwhole hdigits hfraction (noDigit_of_ends hr) (readExponent_of_ends hr _)
  | @exponent c n hc hn =>
    have hplain := plain_singleton hc
    have hword : value [c] ≤ maxWord := (value_lt_pow hplain.digits).le.trans (show 10 ^ 1 ≤ maxWord by decide)
    have hwhole : Scaled.addWhole ⟨0, 0⟩ [c] = ⟨value [c], 0⟩ := by
      rw [Scaled.addWhole_eq (by simpa using hword)]
      simp
    rw [Decimal.ofText_exponent (Decimal.not_mem_of_isDigit rfl hplain.digits) (Json.integerText_chars n).2,
      Decimal.ofMantissa_digits hplain.digits, Json.signedValue_integerText] at hvalue
    refine ⟨Scaled.shift ⟨value [c], 0⟩ _ _, Scaled.keeps_shift hword hn ?_, fun negative r hr => ?_⟩
    · simpa [Scaled.toDecimal, Decimal.toRat] using hvalue.le
    · rw [List.append_assoc, List.cons_append]
      exact readNumber_exponent hplain (hwhole ▸ readExponent_integerText hr _ n)
  | @both c fraction n hc hdigits hfraction hn =>
    have hplain := plain_singleton hc
    have hmark : 'e' ∉ [c] ++ '.' :: fraction := fun hmem => by
      rcases List.mem_append.mp hmem with hmem | hmem
      · exact Decimal.not_mem_of_isDigit rfl hplain.digits hmem
      · exact Decimal.not_mem_of_isDigit rfl hdigits ((List.mem_cons.mp hmem).resolve_left (by decide))
    rw [Decimal.ofText_exponent hmark (Json.integerText_chars n).2, Decimal.ofMantissa_point hplain.digits hdigits,
      Json.signedValue_integerText] at hvalue
    have hkeeps := Scaled.keeps_point hplain.digits (show 1 ≤ 16 by decide)
      (le_refl (⟨value ([c] ++ fraction), -fraction.length⟩ : Decimal).toRat)
    refine ⟨_, Scaled.keeps_shift hkeeps.1 hn ?_, fun negative r hr => ?_⟩
    · rw [← hvalue]
      refine (mul_le_mul_of_nonneg_right hkeeps.2 (zpow_nonneg (by norm_num) n)).trans_eq ?_
      simp only [Decimal.toRat]
      rw [mul_assoc, ← zpow_add₀ (by norm_num), neg_add_eq_sub]
    · have hdigit : NoDigit ('e' :: (Json.integerText n ++ r)) := fun a ha => by
        cases ha
        rfl
      rw [List.append_assoc, List.append_assoc, List.cons_append, List.cons_append]
      exact readNumber_point hplain hdigits hfraction hdigit (readExponent_integerText hr _ n)

/-! ## Floats -/

/-- A decimal has at least the power of ten of its first digit. -/
theorem ten_zpow_le_toRat {d : Decimal} (hd : d.significand ≠ 0) :
    (10 : ℚ) ^ ((Nat.toDigits 10 d.significand).length - 1 + d.exponent : ℤ) ≤ d.toRat := by
  have hpos : 0 < (Nat.toDigits 10 d.significand).length := Nat.length_toDigits_pos
  have hfirst : 10 ^ ((Nat.toDigits 10 d.significand).length - 1) ≤ d.significand := by
    by_contra hlt
    rcases Nat.eq_zero_or_pos ((Nat.toDigits 10 d.significand).length - 1) with hone | hmore
    · rw [hone] at hlt
      omega
    · have := (Nat.length_toDigits_le_iff (by decide) hmore).mpr (Nat.lt_of_not_le hlt)
      omega
  rw [zpow_add₀ (by norm_num), Decimal.toRat]
  refine mul_le_mul_of_nonneg_right ?_ (zpow_nonneg (by norm_num) _)
  rw [← Nat.cast_one, ← Nat.cast_sub hpos, zpow_natCast]
  exact_mod_cast hfirst

/-- The decimal of a float is written in one of the ways that the reader takes. -/
theorem written_shortest {place : Nat} (hplace : place ≤ Binary64.lastPlace) :
    Written (Json.decimalText (Binary64.shortest place)) := by
  obtain ⟨hrounds, hstripped⟩ := Binary64.shortest_spec place
  generalize Binary64.shortest place = d at hrounds hstripped
  refine written_decimalText hstripped ?_
  by_contra hfar
  have hsignificand : d.significand ≠ 0 := by
    intro hzero
    obtain rfl := hstripped.resolve_right (by simp [hzero])
    exact hfar (by decide)
  have hlow := ten_zpow_le_toRat hsignificand
  generalize hn : ((Nat.toDigits 10 d.significand).length - 1 + d.exponent : ℤ) = n at hlow
  have hmax : Binary64.maxTenExponent + 1 ≤ n.toNat := by
    have : Binary64.maxTenExponent + 1 ≤ maxExponent := by decide
    omega
  have hnat : n = (n.toNat : ℤ) := by omega
  rw [hnat, zpow_natCast] at hlow
  have hone : (0 : ℚ) < Binary64.one := by exact_mod_cast Binary64.one_pos
  have hunits := Binary64.toRat_lt_of_roundsTo hrounds (Nat.lt_succ_of_le hplace)
  have hhigh : (Binary64.unitsAt (Binary64.lastPlace + 1) : ℚ) < 10 ^ n.toNat * Binary64.one := by
    exact_mod_cast Binary64.unitsAt_lt_ten_pow hmax
  exact absurd (lt_of_mul_lt_mul_right (hunits.trans hhigh) hone.le) (not_lt_of_ge hlow)

/-- Whether a decimal denotes a float does not depend on its sign. -/
theorem isSome_ofDecimal? (negative : Bool) (significand : Nat) (exponent : Int) :
    (Binary64.ofDecimal? negative significand exponent).isSome = (Binary64.ofDecimal? false significand exponent).isSome := by
  unfold Binary64.ofDecimal?
  cases Binary64.decimalPlace? significand exponent with
  | none => rfl
  | some place =>
    simp only [Option.bind_some, Binary64.ofPlace?]
    split <;> rfl

/-- The three greatest magnitudes, for which there may be no room to round, have texts that denote floats. -/
theorem readNumber_top : ∀ place ∈ [Binary64.lastPlace, Binary64.lastPlace - 1, Binary64.lastPlace - 2],
    (match (readNumber false (Json.decimalText (Binary64.shortest place))).1 with
      | .unreadable => false
      | _ => true) = true := by
  decide +kernel

/-- The text of a float, in front of what ends a value, is read as a float. -/
theorem exists_readNumber_float (x : Binary64) : ∃ y : Binary64, ∀ r, Json.Ends r →
    readNumber x.negative (Json.decimalText (Binary64.shortest x.place) ++ r) = (number (.float y), some r) := by
  have hplace : x.place ≤ Binary64.lastPlace := Nat.le_pred_of_lt x.finite
  obtain ⟨s, ⟨hword, hbound⟩, hread⟩ := (written_shortest hplace).takenFor (toRat_ofText_decimalText _)
  have hsome : (Binary64.ofDecimal? x.negative s.significand s.exponent).isSome = true := by
    by_cases htop : x.place < Binary64.lastPlace - 2
    · refine Binary64.ofDecimal?_isSome (d := s.toDecimal) (Nat.lt_succ_of_le hword) (hbound.imp_right fun hle => ?_)
      have hunits := Binary64.toRat_lt_of_roundsTo (Binary64.roundsTo_shortest x.place) htop
      exact (mul_le_mul_of_nonneg_right hle (Nat.cast_nonneg _)).trans hunits.le
    · have htop : x.place ∈ [Binary64.lastPlace, Binary64.lastPlace - 1, Binary64.lastPlace - 2] := by
        simp only [List.mem_cons, List.not_mem_nil, or_false]
        omega
      have hfloat := readNumber_top x.place htop
      rw [isSome_ofDecimal?]
      rw [← List.append_nil (Json.decimalText _), hread false [] (by simp [Json.Ends])] at hfloat
      unfold ofFloat at hfloat
      cases hy : Binary64.ofDecimal? false s.significand s.exponent with
      | some y => rfl
      | none =>
        rw [hy] at hfloat
        cases hfloat
  obtain ⟨y, hy⟩ := Option.isSome_iff_exists.mp hsome
  exact ⟨y, fun r hr => by rw [hread x.negative r hr, ofFloat, hy]⟩

/-! ## Numbers in front of what ends a value -/

section ReadValue

variable {fuel level : Nat} {cs : List Char}

theorem readValue_minus : readValue (fuel + 1) level ('-' :: cs) = readNumber true cs := by
  rfl

/-- A value that begins with a digit is a number. -/
theorem readValue_digit {c : Char} (hc : c.isDigit = true) :
    readValue (fuel + 1) level (c :: cs) = readNumber false (c :: cs) := by
  have hother : ∀ d : Char, d.isDigit = false → c ≠ d := by
    rintro d hd rfl
    rw [hc] at hd
    cases hd
  have hspace : skipSpace (c :: cs) = c :: cs := by
    simp [skipSpace, isSpace, hother ' ' rfl, hother '\n' rfl, hother '\t' rfl, hother '\r' rfl]
  unfold readValue
  rw [hspace]
  split
  all_goals rename_i heq
  all_goals cases heq
  -- a digit begins no other value
  iterate 7 exact absurd hc (by decide)
  exact if_pos hc

/-- What a float reads back as is a float. -/
theorem readValue_floatText (x : Binary64) {r : List Char} (hr : Json.Ends r) : ∃ y : Binary64, (JsonNumber.float x).reread = .float y ∧
    readValue (fuel + 1) level (Json.floatText x ++ r) = (number (.float y), some r) := by
  obtain ⟨y, hy⟩ := exists_readNumber_float x
  obtain ⟨c, rest, hcons, hc⟩ := (written_shortest (Nat.le_pred_of_lt x.finite)).head
  have hread : ∀ fuel level r, Json.Ends r → readValue (fuel + 1) level (Json.floatText x ++ r) = (number (.float y), some r) := by
    intro fuel level r hr
    have hy := hy r hr
    unfold Json.floatText
    dsimp only
    cases hnegative : x.negative with
    | true =>
      rw [hnegative] at hy
      exact readValue_minus.trans hy
    | false =>
      rw [hnegative, hcons, List.cons_append] at hy
      rw [if_neg Bool.false_ne_true, hcons, List.cons_append]
      exact (readValue_digit hc).trans hy
  refine ⟨y, ?_, hread fuel level r hr⟩
  have halone := hread 0 0 [] (by simp [Json.Ends])
  rw [List.append_nil] at halone
  simp only [JsonNumber.reread, halone]

/-- The text of a number, in front of what ends a value, is read as what the number reads back as. -/
theorem readValue_numberText (n : JsonNumber) {r : List Char} (hr : Json.Ends r) :
    readValue (fuel + 1) level (Json.numberText n ++ r) = (number n.reread, some r) := by
  cases n with
  | integer n hrange =>
    cases n with
    | ofNat n =>
      have hword : n < 0x10000000000000000 := Int.ofNat_lt.mp hrange.2
      have hread := readNumber_integerText hword hr
      obtain ⟨c, rest, hcons⟩ := List.exists_cons_of_ne_nil (Text.Numeral.ofNat_ne_nil n)
      have hc : c.isDigit = true :=
        List.all_eq_true.mp (Text.Numeral.digits_and_value_ofNat n).1 c (hcons ▸ List.mem_cons_self)
      refine Eq.trans ?_ hread
      show readValue (fuel + 1) level (Text.Numeral.ofNat n ++ r) = readNumber false (Text.Numeral.ofNat n ++ r)
      rw [hcons, List.cons_append, readValue_digit hc]
    | negSucc n => exact readValue_minus.trans (readNumber_negative (by have := hrange.1; omega) hr)
  | float x =>
    obtain ⟨y, hreread, hread⟩ := readValue_floatText x hr
    rw [hreread]
    exact hread

end ReadValue

end Document

end DatabaseBroker
