/-!
# 64-bit floats, exactly

A finite float is a sign and the place of its magnitude among the finite magnitudes, counted from zero: place `0` is zero
and the next float up is the next place. Every magnitude is a whole number of units of `2 ^ -1074`, so rounding, products
and quotients are arithmetic on natural numbers, and none of it depends on the machine's floats.

`ofDecimal?` is the rule by which a decimal text becomes a float: the significand is rounded first, then multiplied or
divided by a rounded power of ten, and the result is rounded again. It is the nearest float whenever the significand and
the power are exact, and may be a neighbour of it otherwise.
-/

namespace DatabaseBroker

/-- The number of places in a binade, `2 ^ 52`. -/
def Binary64.binade : Nat := 0x10000000000000

/-- A finite float: its sign, and the place of its magnitude among the finite magnitudes. -/
structure Binary64 where
  negative : Bool
  place : Nat
  finite : place < 2047 * Binary64.binade
deriving DecidableEq

namespace Binary64

/-- One, in units of `2 ^ -1074`. -/
def one : Nat := Nat.pow 2 1074

/-- The magnitude at a place, in units of `2 ^ -1074`. Within a binade the magnitudes are evenly spaced. -/
def unitsAt (place : Nat) : Nat :=
  if place < binade then place else (binade + place % binade) * Nat.pow 2 (place / binade - 1)

/-- The magnitude of a float, in units of `2 ^ -1074`. -/
def units (x : Binary64) : Nat := unitsAt x.place

/-- The whole number nearest to `num / den`; a half goes to the even one. -/
def roundHalfEven (num den : Nat) : Nat :=
  let low := num / den
  let rest := num % den
  if 2 * rest < den then low
  else if den < 2 * rest then low + 1
  else if low % 2 = 0 then low else low + 1

/-- The place of the magnitude nearest to `num / den` units, as if there were no greatest float. -/
def nearestPlace (num den : Nat) : Nat :=
  let exponent := (num / den).log2 - 52
  exponent * binade + roundHalfEven num (den * Nat.pow 2 exponent)

/-- Whether a place is the place of a finite float. -/
def isFinitePlace (place : Nat) : Bool := decide (place < 2047 * binade)

/-- The place of a whole number. -/
def placeOfNat (n : Nat) : Nat := nearestPlace (n * one) 1

/-- The place of the product of the magnitudes at two places. -/
def mulPlace (a b : Nat) : Nat := nearestPlace (unitsAt a * unitsAt b) one

/-- The place of the quotient of the magnitudes at two places. -/
def divPlace (a b : Nat) : Nat := nearestPlace (unitsAt a * one) (unitsAt b)

/-- The greatest power of ten that is a finite float has this exponent. -/
def maxTenExponent : Nat := 308

/-- The place of a power of ten. -/
def tenPlace (exponent : Nat) : Nat := placeOfNat (Nat.pow 10 exponent)

/-- The place of a magnitude divided by a power of ten: by the greatest power first, as often as needed. Zero stays. -/
def divTen (place exponent : Nat) : Nat :=
  if exponent ≤ maxTenExponent then divPlace place (tenPlace exponent)
  else if place = 0 then 0
  else divTen (divPlace place (tenPlace maxTenExponent)) (exponent - maxTenExponent)
termination_by exponent
decreasing_by simp only [maxTenExponent] at *; omega

/-- The place of `significand * 10 ^ exponent`, the significand rounded before the power is applied; none when it lies
past the greatest finite float. -/
def decimalPlace? (significand : Nat) (exponent : Int) : Option Nat :=
  let start := placeOfNat significand
  match exponent with
  | .ofNat e =>
    if e ≤ maxTenExponent then
      let place := mulPlace start (tenPlace e)
      if isFinitePlace place then some place else none
    else if start = 0 then some 0 else none
  | .negSucc e =>
    let place := divTen start (e + 1)
    if isFinitePlace place then some place else none

/-- A float from its sign and its place. -/
def ofPlace? (negative : Bool) (place : Nat) : Option Binary64 :=
  if h : place < 2047 * binade then some ⟨negative, place, h⟩ else none

/-- The float that a sign and a decimal text stand for; none when it lies past the greatest finite float. -/
def ofDecimal? (negative : Bool) (significand : Nat) (exponent : Int) : Option Binary64 :=
  (decimalPlace? significand exponent).bind (ofPlace? negative)

/-- The zero of a sign. -/
def zero (negative : Bool) : Binary64 := ⟨negative, 0, by decide⟩

/-- Equality as numbers: the two zeros are equal. -/
def sameNumber (x y : Binary64) : Bool :=
  x.place == y.place && (x.negative == y.negative || x.place == 0)

end Binary64

end DatabaseBroker
