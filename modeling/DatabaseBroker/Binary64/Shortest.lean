import DatabaseBroker.Binary64

/-!
# The shortest decimal of a float

Of all decimals that round to a magnitude the shortest one is written: on the grid of one significant digit, then of two,
and so on, the two neighbours of the exact value are tried, and the first grid on which one of them rounds to the
magnitude wins. Of two hits the nearer counts, and on a tie the even one. Seventeen digits always suffice; the exact
decimal expansion stands behind them, so that the result rounds to the magnitude for every place.
-/

namespace DatabaseBroker

/-- The number `significand * 10 ^ exponent`. -/
structure Decimal where
  significand : Nat
  exponent : Int
deriving DecidableEq

namespace Decimal

/-- The number as a fraction of units of `2 ^ -1074`: numerator and denominator. -/
def fraction (d : Decimal) : Nat × Nat :=
  match d.exponent with
  | .ofNat e => (d.significand * Nat.pow 10 e * Binary64.one, 1)
  | .negSucc e => (d.significand * Binary64.one, Nat.pow 10 (e + 1))

/-- Whether the number lies nearest to the magnitude at a place. -/
def roundsTo (d : Decimal) (place : Nat) : Bool :=
  Binary64.nearestPlace d.fraction.1 d.fraction.2 == place

/-- Moves the zeros at the end of the significand into the exponent. -/
def strip (d : Decimal) : Decimal :=
  if h : d.significand ≠ 0 ∧ d.significand % 10 = 0 then strip ⟨d.significand / 10, d.exponent + 1⟩ else d
termination_by d.significand
decreasing_by exact Nat.div_lt_self (by omega) (by omega)

end Decimal

namespace Binary64

/-- The power of ten of the first digit of a magnitude that is not zero. -/
def leadingExponent (units : Nat) : Int :=
  ((Nat.toDigits 10 (units * Nat.pow 10 324 / one)).length : Int) - 325

/-- The neighbour of the exact value on the grid of multiples of `10 ^ exponent` that rounds to the place: the nearer one
when both do. -/
def hitOnGrid? (place : Nat) (exponent : Int) : Option Decimal :=
  let (num, den) := match exponent with
    | .ofNat e => (unitsAt place, Nat.pow 10 e * one)
    | .negSucc e => (unitsAt place * Nat.pow 10 (e + 1), one)
  let low : Decimal := ⟨num / den, exponent⟩
  let high : Decimal := ⟨num / den + 1, exponent⟩
  match low.roundsTo place, high.roundsTo place with
  | true, true => some ⟨roundHalfEven num den, exponent⟩
  | true, false => some low
  | false, true => some high
  | false, false => none

/-- The exact value of a magnitude as a decimal. -/
def exactDecimal (place : Nat) : Decimal := ⟨unitsAt place * Nat.pow 5 1074, -1074⟩

/-- The shortest decimal that rounds to the magnitude at a place. -/
def shortest (place : Nat) : Decimal :=
  if place = 0 then ⟨0, 0⟩
  else
    let lead := leadingExponent (unitsAt place)
    let grids := (List.range 17).map fun (n : Nat) => lead - n
    let hits := grids.filterMap fun e => (hitOnGrid? place e).filter (·.roundsTo place)
    (hits.head?.getD (exactDecimal place)).strip

end Binary64

end DatabaseBroker
