/-!
# Hexadecimal digits

`value?` reads a digit of either case. `lower` and `upper` write one.
-/

namespace DatabaseBroker.Text.Hex

/-- The value of a hexadecimal digit. -/
def value? (c : Char) : Option Nat :=
  if c.isDigit then some (c.toNat - 48)
  else if 'a' ≤ c ∧ c ≤ 'f' then some (c.toNat - 87)
  else if 'A' ≤ c ∧ c ≤ 'F' then some (c.toNat - 55)
  else none

/-- A lower-case hexadecimal digit. -/
def lower (n : Nat) : Char := if n < 10 then Char.ofNat (48 + n) else Char.ofNat (87 + n)

/-- An upper-case hexadecimal digit. -/
def upper (n : Nat) : Char := if n < 10 then Char.ofNat (48 + n) else Char.ofNat (55 + n)

/-- A small digit reads back. -/
theorem value?_lower {n : Nat} (h : n < 16) : value? (lower n) = some n := by
  revert n
  decide

/-- A capital digit reads back. -/
theorem value?_upper {n : Nat} (h : n < 16) : value? (upper n) = some n := by
  revert n
  decide

end DatabaseBroker.Text.Hex
