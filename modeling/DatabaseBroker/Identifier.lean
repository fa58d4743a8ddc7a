import DatabaseBroker.Digest.Sha256
import DatabaseBroker.Text.Hex

/-!
# Identifiers

A new record is named by its kind and sixteen hexadecimal digits, drawn from a seed, the time and a running number. The
digits are the first eight bytes of a digest, so identifiers repeat only if digests do.
-/

namespace DatabaseBroker.Identifier

/-- A byte as two hexadecimal digits. -/
def byteDigits (b : UInt8) : List Char := [Text.Hex.lower (b.toNat / 16), Text.Hex.lower (b.toNat % 16)]

/-- The bytes of a number, least significant first. -/
def littleEndian (length n : Nat) : List UInt8 := (Digest.bigEndian length n).reverse

/-- What an identifier is drawn from: the seed, the nanoseconds since the epoch, and how many were drawn before. -/
structure Source where
  seed : String
  nanoseconds : Nat
  drawn : Nat
deriving DecidableEq

/-- The digits of an identifier. -/
def tail (s : Source) : List Char :=
  let message := s.seed.toUTF8.data.toList ++ littleEndian 16 s.nanoseconds ++ littleEndian 8 s.drawn
  ((Digest.sha256 message).take 8).flatMap byteDigits

/-- An identifier of a kind. -/
def draw (kind : String) (s : Source) : String := kind ++ "-" ++ String.ofList (tail s)

/-- Identifiers of a kind are one exactly when their digits are. -/
theorem draw_inj {kind : String} {s t : Source} : draw kind s = draw kind t ↔ tail s = tail t := by
  simp [draw, String.ofList_inj]

end DatabaseBroker.Identifier
