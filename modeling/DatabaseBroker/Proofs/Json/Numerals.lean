import DatabaseBroker.Proofs.Binary64.Shortest
import DatabaseBroker.Proofs.Json.Spelling
import DatabaseBroker.Text.Cut
import Mathlib.Data.List.Induction

/-!
# The text of a number tells the number

`Decimal.ofText` takes a number's text apart at its exponent and its point. What is written for a decimal reads back as the
same number, with zeros from behind the point perhaps in the significand (`ofText_decimalText`), so decimals without zeros at
their ends are written differently (`decimalText_injective`). A float shows a point or an exponent and a whole number shows
neither: two numbers with one text are one (`numberText_injective`), and values that are spelled alike are the same value
(`Alike.eq`).
-/

namespace DatabaseBroker

namespace Text.Numeral

/-- Digits behind others count by their number. -/
theorem value_append (cs ds : List Char) : value (cs ++ ds) = value cs * 10 ^ ds.length + value ds := by
  induction ds using List.reverseRecOn with
  | nil => simp [value]
  | append_singleton ds d ih =>
    rw [← List.append_assoc, value_append_singleton, value_append_singleton, ih, List.length_append, List.length_singleton,
      Nat.pow_succ]
    ring

theorem value_replicate_zero (n : Nat) : value (List.replicate n '0') = 0 := by
  have hdigit : digitValue '0' = 0 := rfl
  induction n with
  | zero => rfl
  | succ n ih => rw [List.replicate_succ', value_append_singleton, ih, hdigit]

/-- Zeros before a numeral do not count. -/
theorem value_replicate_zero_append (n : Nat) (cs : List Char) : value (List.replicate n '0' ++ cs) = value cs := by
  rw [value_append, value_replicate_zero, Nat.zero_mul, Nat.zero_add]

/-- The number of a row of digits, a minus before them taken as its sign. -/
def signedValue : List Char → Int
  | '-' :: cs => -(value cs)
  | cs => value cs

/-- Digits are read without a sign. -/
theorem signedValue_of_isDigit {cs : List Char} (h : ∀ c ∈ cs, c.isDigit = true) : signedValue cs = value cs := by
  unfold signedValue
  split
  · exact absurd (h '-' (List.mem_cons_self ..)) (by decide)
  · rfl

end Text.Numeral

open Text.Numeral (signedValue value)

/-! ## Reading a decimal -/

namespace Decimal

/-- The decimal of a row of digits with perhaps a point in it, and of an exponent. -/
def ofMantissa (cs : List Char) (exponent : Int) : Decimal :=
  match Text.cutAt '.' cs with
  | whole :: fraction :: _ => ⟨value (whole ++ fraction), exponent - fraction.length⟩
  | _ => ⟨value cs, exponent⟩

/-- The decimal of a text. -/
def ofText (cs : List Char) : Decimal :=
  match Text.cutAt 'e' cs with
  | mantissa :: exponent :: _ => ofMantissa mantissa (signedValue exponent)
  | _ => ofMantissa cs 0

variable {cs whole fraction exponent : List Char}

/-- A mark that is no digit does not stand among digits. -/
theorem not_mem_of_isDigit {mark : Char} (hmark : mark.isDigit = false) (h : ∀ c ∈ cs, c.isDigit = true) : mark ∉ cs := by
  intro hmem
  rw [h mark hmem] at hmark
  cases hmark

theorem ofMantissa_point (hwhole : ∀ c ∈ whole, c.isDigit = true) (hfraction : ∀ c ∈ fraction, c.isDigit = true)
    (e : Int) : ofMantissa (whole ++ '.' :: fraction) e = ⟨value (whole ++ fraction), e - fraction.length⟩ := by
  rw [ofMantissa, Text.cutAt_append (not_mem_of_isDigit rfl hwhole), Text.cutAt_of_not_mem (not_mem_of_isDigit rfl hfraction)]

theorem ofMantissa_digits (hwhole : ∀ c ∈ whole, c.isDigit = true) (e : Int) : ofMantissa whole e = ⟨value whole, e⟩ := by
  rw [ofMantissa, Text.cutAt_of_not_mem (not_mem_of_isDigit rfl hwhole)]

/-- Digits with a point between them. -/
theorem ofText_point (hwhole : ∀ c ∈ whole, c.isDigit = true) (hfraction : ∀ c ∈ fraction, c.isDigit = true) :
    ofText (whole ++ '.' :: fraction) = ⟨value (whole ++ fraction), -fraction.length⟩ := by
  have hmark : 'e' ∉ whole ++ '.' :: fraction := by
    simp only [List.mem_append, List.mem_cons, not_or]
    exact ⟨not_mem_of_isDigit rfl hwhole, by decide, not_mem_of_isDigit rfl hfraction⟩
  rw [ofText, Text.cutAt_of_not_mem hmark]
  show ofMantissa (whole ++ '.' :: fraction) 0 = _
  rw [ofMantissa_point hwhole hfraction, Int.zero_sub]

/-- A mantissa with an exponent behind it. -/
theorem ofText_exponent (hmantissa : 'e' ∉ cs) (hexponent : 'e' ∉ exponent) :
    ofText (cs ++ 'e' :: exponent) = ofMantissa cs (signedValue exponent) := by
  rw [ofText, Text.cutAt_append hmantissa, Text.cutAt_of_not_mem hexponent]

end Decimal

namespace Json

/-! ## What is written reads back -/

/-- The digits of a natural number. -/
theorem isDigit_toDigits (n : Nat) : ∀ c ∈ Nat.toDigits 10 n, c.isDigit = true :=
  List.all_eq_true.mp (Text.Numeral.digits_and_value_ofNat n).1

theorem value_toDigits (n : Nat) : value (Nat.toDigits 10 n) = n := (Text.Numeral.digits_and_value_ofNat n).2

/-- A whole number is written in one way. -/
theorem toList_toString_int (n : Int) : (toString n).toList = integerText n := by
  cases n with
  | ofNat n => exact String.toList_ofList
  | negSucc n =>
    show ("-" ++ Nat.repr (n + 1)).toList = _
    simp [String.toList_append, Nat.repr, integerText]

/-- A whole number reads back. -/
theorem signedValue_integerText (n : Int) : signedValue (integerText n) = n := by
  cases n with
  | ofNat n =>
    show signedValue (Nat.toDigits 10 n) = n
    rw [Text.Numeral.signedValue_of_isDigit (isDigit_toDigits n), value_toDigits]
  | negSucc n =>
    show -(value (Nat.toDigits 10 (n + 1)) : Int) = _
    rw [value_toDigits]
    rfl

/-- A whole number shows neither a point nor an exponent. -/
theorem integerText_chars (n : Int) : '.' ∉ integerText n ∧ 'e' ∉ integerText n := by
  have hdigits : ∀ m : Nat, '.' ∉ Nat.toDigits 10 m ∧ 'e' ∉ Nat.toDigits 10 m := fun m =>
    ⟨Decimal.not_mem_of_isDigit rfl (isDigit_toDigits m), Decimal.not_mem_of_isDigit rfl (isDigit_toDigits m)⟩
  cases n with
  | ofNat n => exact hdigits n
  | negSucc n =>
    simp only [integerText, List.mem_cons, not_or]
    exact ⟨⟨by decide, (hdigits (n + 1)).1⟩, by decide, (hdigits (n + 1)).2⟩

/-- What is written for a decimal is the decimal, with some zeros from behind the point in the significand. -/
theorem ofText_decimalText (d : Decimal) :
    ∃ k : Nat, Decimal.ofText (decimalText d) = ⟨d.significand * 10 ^ k, d.exponent - k⟩ := by
  obtain ⟨significand, exponent⟩ := d
  have hdigits := isDigit_toDigits significand
  have hvalue := value_toDigits significand
  have hpos : 0 < (Nat.toDigits 10 significand).length := Nat.length_toDigits_pos
  have hzero : ∀ c ∈ ['0'], c.isDigit = true := fun c hc => by
    rw [List.mem_singleton.mp hc]
    rfl
  have hzeros : ∀ n, ∀ c ∈ List.replicate n '0', c.isDigit = true := fun n c hc => by
    rw [List.eq_of_mem_replicate hc]
    rfl
  unfold decimalText
  dsimp only
  generalize Nat.toDigits 10 significand = digits at hdigits hvalue hpos
  split
  · -- zeros before the point: they and the zero behind it are in the significand
    rename_i hrange
    have hwhole : ∀ c ∈ digits ++ List.replicate exponent.toNat '0', c.isDigit = true :=
      fun c hc => (List.mem_append.mp hc).elim (hdigits c) (hzeros _ c)
    have hread : value (digits ++ List.replicate exponent.toNat '0' ++ ['0']) = significand * 10 ^ (exponent.toNat + 1) := by
      rw [List.append_assoc, ← List.replicate_succ', Text.Numeral.value_append, Text.Numeral.value_replicate_zero,
        List.length_replicate, hvalue, Nat.add_zero]
    refine ⟨exponent.toNat + 1, ?_⟩
    rw [Decimal.ofText_point hwhole hzero, hread]
    simp only [List.length_singleton, Decimal.mk.injEq, true_and]
    omega
  split
  · -- the point stands among the digits
    refine ⟨0, ?_⟩
    rw [Decimal.ofText_point (fun c hc => hdigits c (List.mem_of_mem_take hc)) (fun c hc => hdigits c (List.mem_of_mem_drop hc)),
      List.take_append_drop, hvalue, List.length_drop]
    simp only [Nat.pow_zero, Nat.mul_one, Decimal.mk.injEq, true_and]
    omega
  split
  · -- the point stands before the digits, with zeros between
    have hfraction : ∀ c ∈ List.replicate (-(digits.length + exponent)).toNat '0' ++ digits, c.isDigit = true :=
      fun c hc => (List.mem_append.mp hc).elim (hzeros _ c) (hdigits c)
    have hread : value (['0'] ++ (List.replicate (-(digits.length + exponent)).toNat '0' ++ digits)) = significand := by
      rw [← List.append_assoc, List.singleton_append, ← List.replicate_succ, Text.Numeral.value_replicate_zero_append, hvalue]
    refine ⟨0, (Decimal.ofText_point hzero hfraction).trans ?_⟩
    rw [hread]
    simp only [List.length_append, List.length_replicate, Nat.pow_zero, Nat.mul_one, Decimal.mk.injEq, true_and]
    omega
  · -- one digit before the point, and an exponent
    have hexponent := (integerText_chars (digits.length + exponent - 1)).2
    refine ⟨0, ?_⟩
    rw [toList_toString_int]
    match digits, hpos with
    | [c], _ =>
      refine (Decimal.ofText_exponent (Decimal.not_mem_of_isDigit rfl hdigits) hexponent).trans ?_
      rw [Decimal.ofMantissa_digits hdigits, hvalue, signedValue_integerText]
      simp
    | c :: b :: rest, _ =>
      have hwhole : ∀ a ∈ [c], a.isDigit = true := fun a ha => hdigits a (List.mem_singleton.mp ha ▸ List.mem_cons_self ..)
      have hfraction : ∀ a ∈ b :: rest, a.isDigit = true := fun a ha => hdigits a (List.mem_cons_of_mem _ ha)
      have hmantissa : 'e' ∉ [c] ++ '.' :: (b :: rest) := fun hmem => by
        rcases List.mem_append.mp hmem with hmem | hmem
        · exact Decimal.not_mem_of_isDigit rfl hwhole hmem
        · exact Decimal.not_mem_of_isDigit rfl hfraction ((List.mem_cons.mp hmem).resolve_left (by decide))
      have hread : value ([c] ++ b :: rest) = significand := hvalue
      refine (Decimal.ofText_exponent hmantissa hexponent).trans ?_
      rw [Decimal.ofMantissa_point hwhole hfraction, hread, signedValue_integerText]
      simp only [List.length_cons, Nat.pow_zero, Nat.mul_one, Decimal.mk.injEq, true_and]
      omega

/-- Decimals without zeros at their ends are written differently. -/
theorem decimalText_injective {d d' : Decimal} (hd : d.Stripped) (hd' : d'.Stripped) (h : decimalText d = decimalText d') :
    d = d' := by
  obtain ⟨k, hk⟩ := ofText_decimalText d
  obtain ⟨k', hk'⟩ := ofText_decimalText d'
  rw [h, hk', Decimal.mk.injEq] at hk
  obtain ⟨hsignificand, hexponent⟩ := hk
  have hpow : ∀ n : Nat, 0 < 10 ^ n := fun n => Nat.pow_pos (by decide)
  -- the decimal with more zeros moved would end in a zero
  have hle : ∀ {a b : Decimal} {m n : Nat}, a.significand % 10 ≠ 0 →
      a.significand * 10 ^ m = b.significand * 10 ^ n → n ≤ m := by
    intro a b m n hdigit heq
    by_contra hlt
    obtain ⟨j, rfl⟩ : ∃ j, n = m + (j + 1) := ⟨n - m - 1, by omega⟩
    have : a.significand = b.significand * 10 ^ j * 10 := by
      refine Nat.eq_of_mul_eq_mul_right (hpow m) (heq.trans ?_)
      rw [Nat.pow_add, Nat.pow_succ]
      ring
    omega
  rcases hd with rfl | hdigit
  · rcases hd' with rfl | hdigit'
    · rfl
    · have := hpow k'
      simp_all
  · rcases hd' with rfl | hdigit'
    · have := hpow k
      simp_all
    · have hkk' : k = k' := Nat.le_antisymm (hle hdigit' hsignificand) (hle hdigit hsignificand.symm)
      subst hkk'
      have hs := Nat.eq_of_mul_eq_mul_right (hpow k) hsignificand
      obtain ⟨s, e⟩ := d
      obtain ⟨s', e'⟩ := d'
      simp only [Decimal.mk.injEq] at hs hexponent ⊢
      omega

/-! ## Numbers -/

/-- A decimal shows a point or an exponent. -/
theorem mark_mem_decimalText (d : Decimal) : '.' ∈ decimalText d ∨ 'e' ∈ decimalText d := by
  unfold decimalText
  dsimp only
  split
  · simp
  split
  · simp
  split
  · simp
  · split <;> simp

/-- A decimal does not begin with a minus. -/
theorem head?_decimalText (d : Decimal) : (decimalText d).head? ≠ some '-' := by
  have hdigits := isDigit_toDigits d.significand
  have hpos : 0 < (Nat.toDigits 10 d.significand).length := Nat.length_toDigits_pos
  unfold decimalText
  dsimp only
  generalize Nat.toDigits 10 d.significand = digits at hdigits hpos
  match digits, hpos with
  | c :: rest, _ =>
    have hc : c ≠ '-' := fun h => absurd (h ▸ hdigits c (List.mem_cons_self ..)) (by decide)
    split
    · simpa using hc
    split
    · rename_i hpoint
      obtain ⟨n, hn⟩ : ∃ n, ((c :: rest).length + d.exponent).toNat = n + 1 :=
        ⟨((c :: rest).length + d.exponent).toNat - 1, by omega⟩
      rw [hn, List.take_succ_cons]
      simpa using hc
    split
    · simp
    · split <;> simp_all

/-- Floats with one text are one. -/
theorem floatText_injective {x y : Binary64} (h : floatText x = floatText y) : x = y := by
  have hminus : ∀ d : Decimal, ∀ l : List Char, '-' :: l ≠ decimalText d := fun d l hl => head?_decimalText d (hl ▸ rfl)
  have hplace : ∀ {p q : Nat}, decimalText (Binary64.shortest p) = decimalText (Binary64.shortest q) → p = q :=
    fun h => Binary64.shortest_injective (decimalText_injective (Binary64.stripped_shortest _) (Binary64.stripped_shortest _) h)
  obtain ⟨negative, place, hfinite⟩ := x
  obtain ⟨negative', place', hfinite'⟩ := y
  cases negative <;> cases negative' <;> simp only [floatText, Bool.false_eq_true, if_true, if_false] at h
  · obtain rfl := hplace h
    rfl
  · exact absurd h.symm (hminus _ _)
  · exact absurd h (hminus _ _)
  · obtain rfl := hplace (List.cons.inj h).2
    rfl

/-- A float shows a point or an exponent. -/
theorem mark_mem_floatText (x : Binary64) : '.' ∈ floatText x ∨ 'e' ∈ floatText x := by
  have h := mark_mem_decimalText (Binary64.shortest x.place)
  unfold floatText
  dsimp only
  split
  · exact h.imp (List.mem_cons_of_mem _) (List.mem_cons_of_mem _)
  · exact h

/-- Numbers with one text are one. -/
theorem numberText_injective {m n : JsonNumber} (h : numberText m = numberText n) : m = n := by
  have hmixed : ∀ (i : Int) (x : Binary64), integerText i ≠ floatText x := fun i x hix =>
    (mark_mem_floatText x).elim (hix ▸ (integerText_chars i).1) (hix ▸ (integerText_chars i).2)
  cases m with
  | integer i hi =>
    cases n with
    | integer i' hi' =>
      have hvalue := congrArg signedValue (show integerText i = integerText i' from h)
      rw [signedValue_integerText, signedValue_integerText] at hvalue
      subst hvalue
      rfl
    | float y => exact absurd h (hmixed i y)
  | float x =>
    cases n with
    | integer i' hi' => exact absurd h.symm (hmixed i' x)
    | float y => rw [floatText_injective h]

/-! ## Values -/

mutual

/-- Values that are spelled alike are the same value. -/
theorem Alike.eq {j j' : Json} (h : j.Alike j') : j = j' := by
  cases j with
  | null =>
    cases j' with
    | null => rfl
    | _ => exact h.elim
  | bool a =>
    cases j' with
    | bool b => exact congrArg bool h
    | _ => exact h.elim
  | number m =>
    cases j' with
    | number n => exact congrArg number (numberText_injective h)
    | _ => exact h.elim
  | string s =>
    cases j' with
    | string t => exact congrArg string h
    | _ => exact h.elim
  | array items =>
    cases j' with
    | array items' => exact congrArg array (AlikeItems.eq h)
    | _ => exact h.elim
  | object members =>
    cases j' with
    | object members' => exact congrArg object (AlikeMembers.eq h)
    | _ => exact h.elim

theorem AlikeItems.eq {l l' : List Json} (h : AlikeItems l l') : l = l' := by
  match l, l' with
  | [], [] => rfl
  | j :: rest, j' :: rest' => rw [Alike.eq h.1, AlikeItems.eq h.2]

theorem AlikeMembers.eq {l l' : List (String × Json)} (h : AlikeMembers l l') : l = l' := by
  match l, l' with
  | [], [] => rfl
  | (k, j) :: rest, (k', j') :: rest' => rw [h.1, Alike.eq h.2.1, AlikeMembers.eq h.2.2]

end

end Json

end DatabaseBroker
