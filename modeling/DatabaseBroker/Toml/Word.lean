import DatabaseBroker.Text.Cut
import DatabaseBroker.Text.Hex
import DatabaseBroker.Text.Numeral
import DatabaseBroker.Toml

/-!
# Words of a settings file

A value that is neither in quotes nor in brackets is a word: a truth value, a number or a moment. `ofWord?` says which
value a word is. Underscores may stand between two digits.
-/

namespace DatabaseBroker.Toml

/-- The digits of a row of digits with single underscores between them. -/
def digits? (isDigit : Char → Bool) (cs : List Char) : Option (List Char) :=
  let parts := Text.cutAt '_' cs
  if parts.all fun part => !part.isEmpty && part.all isDigit then some parts.flatten else none

/-- Takes a sign off a word: whether it is a minus, and the rest. -/
def takeSign : List Char → Bool × List Char
  | '-' :: cs => (true, cs)
  | '+' :: cs => (false, cs)
  | cs => (false, cs)

/-- The digits of a whole number: a zero stands alone. -/
def wholeDigits? (cs : List Char) : Option (List Char) :=
  if cs.head? = some '0' ∧ cs ≠ ['0'] then none else digits? Char.isDigit cs

/-! ## Whole numbers -/

/-- A whole number, if it is a signed 64-bit word. -/
def ofInt? (n : Int) : Option Toml :=
  if h : -0x8000000000000000 ≤ n ∧ n < 0x8000000000000000 then some (integer n h) else none

/-- A whole number in a base that is a power of two. -/
def ofBase? (base : Nat) (cs : List Char) : Option Toml := do
  let digits ← digits? (fun c => (Text.Hex.value? c).any (· < base)) cs
  let values ← digits.mapM Text.Hex.value?
  ofInt? (values.foldl (fun n d => n * base + d) 0 : Nat)

/-- A whole number. -/
def ofInteger? (cs : List Char) : Option Toml :=
  match cs with
  | '0' :: 'x' :: cs => ofBase? 16 cs
  | '0' :: 'o' :: cs => ofBase? 8 cs
  | '0' :: 'b' :: cs => ofBase? 2 cs
  | cs => do
    let (negative, cs) := takeSign cs
    let digits ← wholeDigits? cs
    let n := Text.Numeral.value digits
    ofInt? (if negative then -n else n)

/-! ## Floats -/

/-- Whether a decimal lies past the greatest float, or rounds past it. -/
def isPastFloats (significand : Nat) (exponent : Int) : Bool :=
  let least := Nat.pow 2 1024 - Nat.pow 2 970
  let length : Int := (Nat.toDigits 10 significand).length
  if significand = 0 ∨ length + exponent < 300 then false
  else if length + exponent > 320 then true
  else match exponent with
    | .ofNat e => least ≤ significand * Nat.pow 10 e
    | .negSucc e => least * Nat.pow 10 (e + 1) ≤ significand

/-- The exponent after its letter. -/
def exponent? (cs : List Char) : Option Int := do
  let (negative, cs) := takeSign cs
  let digits ← digits? Char.isDigit cs
  let n := Text.Numeral.value digits
  some (if negative then -n else n)

/-- A float: a whole part with a fraction, an exponent or both, or one of the two words for what is no number. A float
past the greatest one is refused, one below the least is not. -/
def ofFloat? (cs : List Char) : Option Toml := do
  let (negative, cs) := takeSign cs
  if cs = ['i', 'n', 'f'] ∨ cs = ['n', 'a', 'n'] then some float
  else
    let (mantissa, power) := cs.span fun c => c != 'e' && c != 'E'
    let (whole, fraction) := mantissa.span (· != '.')
    if power.isEmpty ∧ fraction.isEmpty then none
    else
      let whole ← wholeDigits? whole
      let fraction ← if fraction.isEmpty then some [] else digits? Char.isDigit (fraction.drop 1)
      let exponent ← if power.isEmpty then some 0 else exponent? (power.drop 1)
      let past := isPastFloats (Text.Numeral.value (whole ++ fraction)) (exponent - fraction.length)
      if past ∧ ¬negative then none else some float

/-! ## Moments -/

/-- The number of so many digits. -/
def fixedNumber? (length : Nat) (cs : List Char) : Option Nat :=
  if cs.length = length then Text.Numeral.toNat? cs else none

/-- The number of two digits, up to a greatest one. -/
def upTo? (greatest : Nat) (cs : List Char) : Option Nat := (fixedNumber? 2 cs).filter (· ≤ greatest)

/-- The days of a month. -/
def daysOf (year month : Nat) : Nat :=
  if month = 2 then if year % 4 = 0 ∧ (year % 100 ≠ 0 ∨ year % 400 = 0) then 29 else 28
  else if month = 4 ∨ month = 6 ∨ month = 9 ∨ month = 11 then 30
  else 31

/-- Whether a word is a day: year, month and day. -/
def isDay (cs : List Char) : Bool :=
  match Text.cutAt '-' cs with
  | [year, month, day] =>
    match fixedNumber? 4 year, fixedNumber? 2 month, fixedNumber? 2 day with
    | some year, some month, some day => 1 ≤ month && month ≤ 12 && 1 ≤ day && day ≤ daysOf year month
    | _, _, _ => false
  | _ => false

/-- Whether a word is a time of day: hour, minute and second, a leap second included, with any fraction. -/
def isTime (cs : List Char) : Bool :=
  match Text.cutAt ':' cs with
  | [hour, minute, second] =>
    let (second, fraction) := second.span (· != '.')
    (upTo? 23 hour).isSome && (upTo? 59 minute).isSome && (upTo? 60 second).isSome &&
      (fraction.isEmpty || (Text.Numeral.toNat? (fraction.drop 1)).isSome)
  | _ => false

/-- Whether a word is a distance from universal time. -/
def isOffset (cs : List Char) : Bool :=
  match cs with
  | [c] => c == 'Z' || c == 'z'
  | c :: cs =>
    (c == '+' || c == '-') && match Text.cutAt ':' cs with
      | [hour, minute] => (upTo? 23 hour).isSome && (upTo? 59 minute).isSome
      | _ => false
  | [] => false

/-- Whether a word is a time of day with or without a distance from universal time. -/
def isTimeOrOffsetTime (cs : List Char) : Bool :=
  let (time, offset) := cs.span fun c => c.isDigit || c == ':' || c == '.'
  isTime time && (offset.isEmpty || isOffset offset)

/-- Whether a word is a moment: a day, a time of day, or both in one word. -/
def isMoment (cs : List Char) : Bool :=
  let (day, rest) := cs.span fun c => c != 'T' && c != 't'
  match rest with
  | [] => isDay cs || isTime cs
  | _ :: time => isDay day && isTimeOrOffsetTime time

/-- The value that a word is. -/
def ofWord? (cs : List Char) : Option Toml :=
  if cs = ['t', 'r', 'u', 'e'] then some (boolean true)
  else if cs = ['f', 'a', 'l', 's', 'e'] then some (boolean false)
  else if isMoment cs then some moment
  else (ofInteger? cs).or (ofFloat? cs)

end DatabaseBroker.Toml
