/-!
# Decimal numerals

Natural numbers as ASCII digits. `Numeral.ofNat` writes one, `Numeral.toNat?` reads one, and `toNat?_ofNat` says that
what is written reads back.
-/

namespace DatabaseBroker.Text.Numeral

/-- The number that a digit stands for. -/
def digitValue (c : Char) : Nat := c.toNat - 48

/-- The number that a row of digits stands for. -/
def value (cs : List Char) : Nat := cs.foldl (fun n c => n * 10 + digitValue c) 0

/-- Reads one or more ASCII digits and nothing else. -/
def toNat? (cs : List Char) : Option Nat :=
  if cs ≠ [] ∧ cs.all Char.isDigit = true then some (value cs) else none

/-- The digits of a number, most significant first. -/
def ofNat (n : Nat) : List Char := Nat.toDigits 10 n

/-- Reads an unsigned 64-bit number: digits, with one plus sign allowed before them. -/
def toUInt64? (cs : List Char) : Option UInt64 :=
  (toNat? (if cs.head? = some '+' then cs.tail else cs)).bind fun n =>
    if h : n < UInt64.size then some (UInt64.ofNatLT n h) else none

/-- A digit at the end counts ones. -/
theorem value_append_singleton (cs : List Char) (c : Char) : value (cs ++ [c]) = value cs * 10 + digitValue c := by
  simp [value, List.foldl_append]

/-- The digit of a number below ten is a decimal digit. -/
theorem isDigit_digitChar {d : Nat} (h : d < 10) : (Nat.digitChar d).isDigit = true := by
  match d, h with
  | 0, _ | 1, _ | 2, _ | 3, _ | 4, _ | 5, _ | 6, _ | 7, _ | 8, _ | 9, _ => rfl

/-- The digit of a number below ten has that value. -/
theorem digitValue_digitChar {d : Nat} (h : d < 10) : digitValue (Nat.digitChar d) = d := by
  match d, h with
  | 0, _ | 1, _ | 2, _ | 3, _ | 4, _ | 5, _ | 6, _ | 7, _ | 8, _ | 9, _ => rfl

/-- A numeral has at least one digit. -/
theorem ofNat_ne_nil (n : Nat) : ofNat n ≠ [] := by
  intro h
  have := Nat.length_toDigits_pos (b := 10) (n := n)
  simp [ofNat] at h

/-- A numeral is made of digits, and they stand for the number written. -/
theorem digits_and_value_ofNat (n : Nat) : (ofNat n).all Char.isDigit = true ∧ value (ofNat n) = n := by
  induction n using Nat.strongRecOn with
  | ind n ih =>
    by_cases h : n < 10
    · rw [ofNat, Nat.toDigits_of_lt_base h]
      simp [value, isDigit_digitChar h, digitValue_digitChar h]
    · have hlt : n / 10 < n := Nat.div_lt_self (by omega) (by omega)
      have hmod : n % 10 < 10 := Nat.mod_lt _ (by omega)
      have hsplit : ofNat n = ofNat (n / 10) ++ [Nat.digitChar (n % 10)] := by
        have := Nat.toDigits_append_toDigits (b := 10) (n := n / 10) (d := n % 10) (by omega)
          (Nat.div_pos (by omega) (by omega)) hmod
        rw [Nat.toDigits_of_lt_base hmod, Nat.div_add_mod] at this
        exact this.symm
      obtain ⟨hd, hv⟩ := ih (n / 10) hlt
      rw [hsplit, value_append_singleton, hv, digitValue_digitChar hmod, List.all_append, hd]
      refine ⟨by simp [isDigit_digitChar hmod], ?_⟩
      omega

/-- What is written reads back. -/
theorem toNat?_ofNat (n : Nat) : toNat? (ofNat n) = some n := by
  obtain ⟨hd, hv⟩ := digits_and_value_ofNat n
  rw [toNat?, if_pos ⟨ofNat_ne_nil n, hd⟩, hv]

/-- A 64-bit number reads back from its numeral. -/
theorem toUInt64?_ofNat (n : UInt64) : toUInt64? (ofNat n.toNat) = some n := by
  have hhead : (ofNat n.toNat).head? ≠ some '+' := by
    intro h
    have hd := (digits_and_value_ofNat n.toNat).1
    obtain ⟨r, hr⟩ := List.head?_eq_some_iff.mp h
    rw [hr] at hd
    simp at hd
  rw [toUInt64?, if_neg hhead, toNat?_ofNat]
  simp [n.toNat_lt_size]

end DatabaseBroker.Text.Numeral
