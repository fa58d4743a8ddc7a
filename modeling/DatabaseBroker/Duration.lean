import DatabaseBroker.Text.Blank
import DatabaseBroker.Text.Numeral

/-!
# Durations

A duration is a count of milliseconds. `Duration.parse?` reads what a settings file may hold: a number of milliseconds
(`750ms`), seconds (`5s` or `5`) or minutes (`2m`). `Duration.text` names a duration in the largest unit that needs no
leading zero: `250ms`, `1.5s`, `60.001s`.
-/

namespace DatabaseBroker

/-- A length of time. -/
structure Duration where
  milliseconds : Nat
deriving DecidableEq

namespace Duration

/-- A number of whole seconds. -/
def ofSeconds (n : Nat) : Duration := ⟨n * 1000⟩

/-- The text before an ending, if the text ends so. -/
def dropEnding? (ending cs : List Char) : Option (List Char) :=
  if ending.isSuffixOf cs then some (cs.take (cs.length - ending.length)) else none

/-- The duration that a text stands for: a number of the unit that it ends with, or of seconds. The number is a word, and so are
the seconds that a number of minutes makes: they count modulo 2^64. -/
def parse? (s : String) : Option Duration :=
  let cs := Text.trimChars s.toList
  let number (cs : List Char) : Option Nat := (Text.Numeral.toUInt64? cs).map UInt64.toNat
  match dropEnding? ['m', 's'] cs with
  | some rest => (number rest).map Duration.mk
  | none =>
    match dropEnding? ['s'] cs with
    | some rest => (number rest).map ofSeconds
    | none =>
      match dropEnding? ['m'] cs with
      | some rest => (Text.Numeral.toUInt64? rest).map fun n => ofSeconds (n * 60).toNat
      | none => (number cs).map ofSeconds

/-- A duration as a number of milliseconds with its unit. -/
def inMilliseconds (d : Duration) : String := toString d.milliseconds ++ "ms"

/-- The three decimals of a fraction of a thousand, without the zeros at the end. -/
def thousandths (n : Nat) : List Char :=
  let digits := Nat.toDigits 10 (1000 + n)
  ((digits.drop 1).reverse.dropWhile (· = '0')).reverse

/-- A duration in words: seconds from one second on, milliseconds below, and no time at all in nanoseconds. -/
def text (d : Duration) : String :=
  if d.milliseconds = 0 then "0ns"
  else if d.milliseconds < 1000 then d.inMilliseconds
  else
    let fraction := thousandths (d.milliseconds % 1000)
    toString (d.milliseconds / 1000) ++ (if fraction.isEmpty then "" else "." ++ String.ofList fraction) ++ "s"

end Duration

end DatabaseBroker
