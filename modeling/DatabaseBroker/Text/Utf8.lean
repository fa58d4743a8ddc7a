/-!
# UTF-8

Bytes as characters. A sequence that is no character is replaced, each longest beginning of one by itself, or makes the
whole row unreadable.
-/

namespace DatabaseBroker.Text.Utf8

/-- The bytes of a text. -/
def bytes (s : String) : List Nat := s.toUTF8.data.toList.map UInt8.toNat

/-- What the bytes after a leading byte must be like: the ranges they stand in. -/
def followers (lead : Nat) : Option (List (Nat × Nat)) :=
  let tail := (0x80, 0xBF)
  if lead < 0x80 then some []
  else if 0xC2 ≤ lead ∧ lead ≤ 0xDF then some [tail]
  else if lead = 0xE0 then some [(0xA0, 0xBF), tail]
  else if lead = 0xED then some [(0x80, 0x9F), tail]
  else if 0xE1 ≤ lead ∧ lead ≤ 0xEF then some [tail, tail]
  else if lead = 0xF0 then some [(0x90, 0xBF), tail, tail]
  else if 0xF1 ≤ lead ∧ lead ≤ 0xF3 then some [tail, tail, tail]
  else if lead = 0xF4 then some [(0x80, 0x8F), tail, tail]
  else none

/-- How many bytes in a row stand in their ranges. -/
def matching : List (Nat × Nat) → List Nat → Nat
  | (low, high) :: ranges, b :: bs => if low ≤ b ∧ b ≤ high then matching ranges bs + 1 else 0
  | _, _ => 0

/-- The code that a leading byte begins. -/
def leadBits (lead : Nat) : Nat :=
  if lead < 0x80 then lead else if lead < 0xE0 then lead % 0x20 else if lead < 0xF0 then lead % 0x10 else lead % 0x08

/-- The character at the head of a row of bytes, or none if there is none, and how many bytes follow the leading one. -/
def decodeHead (lead : Nat) (rest : List Nat) : Option Char × Nat :=
  match followers lead with
  | none => (none, 0)
  | some ranges =>
    let n := matching ranges rest
    if n = ranges.length then
      (some (Char.ofNat ((rest.take n).foldl (fun code b => code * 64 + b % 64) (leadBits lead))), n)
    else (none, n)

/-- The characters of a row of bytes, none where there is none. -/
def decode : List Nat → List (Option Char)
  | [] => []
  | lead :: rest =>
    let (c, n) := decodeHead lead rest
    c :: decode (rest.drop n)
termination_by bs => bs.length
decreasing_by simp only [List.length_drop, List.length_cons]; omega

/-- The text of a row of bytes, if all of it is characters. -/
def text? (bs : List Nat) : Option String := ((decode bs).mapM id).map String.ofList

/-- The text of a row of bytes, with a replacement character for what is none. -/
def lossyText (bs : List Nat) : String := String.ofList ((decode bs).map (·.getD '\uFFFD'))

end DatabaseBroker.Text.Utf8
