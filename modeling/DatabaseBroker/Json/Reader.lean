import DatabaseBroker.Json.Document
import DatabaseBroker.Text.Hex
import DatabaseBroker.Text.Numeral

/-!
# Reading JSON text

The grammar of RFC 8259 and nothing more: no comments, no trailing commas, no leading zeros or plus signs, no raw control
characters. `Document.read` reads one document from a text and says whether only white space follows it. A container
inside 127 others is kept as `deep`.

A whole number in the range of a 64-bit word is an integer, save `-0`; any other number is a float by
`Binary64.ofDecimal?`. Of a significand only the leading digits that fit an unsigned word count, and the others of the
whole part are zeros.
-/

namespace DatabaseBroker.Document

/-- The rest of a text, or none when the text stopped being JSON. -/
abbrev Rest := Option (List Char)

/-- The deepest nesting of containers that is read. -/
def maxNesting : Nat := 127

/-- White space between the tokens of JSON. -/
def isSpace (c : Char) : Bool := c == ' ' || c == '\n' || c == '\t' || c == '\r'

/-- What follows the blanks at the front. -/
def skipSpace (cs : List Char) : List Char := cs.dropWhile isSpace

/-! ## Numbers -/

/-- The greatest unsigned word. -/
def maxWord : Nat := 0xFFFFFFFFFFFFFFFF

/-- The significand and the power of ten that a row of digits adds up to. -/
structure Scaled where
  significand : Nat
  exponent : Int

/-- Adds the digits of a whole part: after the first digit that no longer fits a word, each stands for a zero. -/
def Scaled.addWhole (s : Scaled) : List Char → Scaled
  | [] => s
  | c :: cs =>
    let next := s.significand * 10 + Text.Numeral.digitValue c
    if next ≤ maxWord then addWhole ⟨next, s.exponent⟩ cs
    else ⟨s.significand, s.exponent + (cs.length + 1 : Nat)⟩

/-- Adds the digits of a fraction: the first that no longer fits a word and those after it are dropped. -/
def Scaled.addFraction (s : Scaled) : List Char → Scaled
  | [] => s
  | c :: cs =>
    let next := s.significand * 10 + Text.Numeral.digitValue c
    if next ≤ maxWord then addFraction ⟨next, s.exponent - 1⟩ cs else s

/-- The exponents that are taken at their value; one past them means zero or no number at all. -/
def maxExponent : Nat := 0x7FFFFFFF

/-- Applies a written exponent. -/
def Scaled.shift (s : Scaled) (negative : Bool) (digits : List Char) : Scaled :=
  let e := Text.Numeral.value digits
  let clamped := min (max (if negative then s.exponent - e else s.exponent + e) (-0x80000000)) maxExponent
  if e ≤ maxExponent then ⟨s.significand, clamped⟩
  else if negative then ⟨0, 0⟩ else ⟨s.significand, maxExponent⟩

/-- The float of a sign and a scaled significand. -/
def ofFloat (negative : Bool) (s : Scaled) : Document :=
  match Binary64.ofDecimal? negative s.significand s.exponent with
  | some x => number (.float x)
  | none => unreadable

/-- The number of a sign and the digits of a whole part. -/
def ofWhole (negative : Bool) (digits : List Char) : Document :=
  let n := Text.Numeral.value digits
  if negative then
    if n = 0 then number (.float (.zero true))
    else if h : n ≤ 0x8000000000000000 then number (.integer (-n) (by omega))
    else ofFloat true (Scaled.addWhole ⟨0, 0⟩ digits)
  else
    if h : n < 0x10000000000000000 then number (.integer n (by omega))
    else ofFloat false (Scaled.addWhole ⟨0, 0⟩ digits)

/-- The digits at the head of a text, and what follows them. -/
def spanDigits (cs : List Char) : List Char × List Char := cs.span Char.isDigit

/-- Reads an exponent, if one is written, and ends the number. -/
def readExponent (s : Scaled) (cs : List Char) : Option (Scaled × List Char) :=
  match cs with
  | c :: rest =>
    if c = 'e' ∨ c = 'E' then
      let (down, rest) := match rest with
        | '+' :: r => (false, r)
        | '-' :: r => (true, r)
        | r => (false, r)
      let (digits, rest) := spanDigits rest
      if digits.isEmpty then none else some (s.shift down digits, rest)
    else some (s, cs)
  | [] => some (s, [])

/-- Reads a number after its sign. -/
def readNumber (negative : Bool) (cs : List Char) : Document × Rest :=
  let (whole, rest) := spanDigits cs
  if whole.isEmpty ∨ (whole.head? = some '0' ∧ whole.length ≠ 1) then (broken, none)
  else
    let scaled := Scaled.addWhole ⟨0, 0⟩ whole
    match rest with
    | '.' :: rest =>
      let (fraction, rest) := spanDigits rest
      if fraction.isEmpty then (broken, none)
      else match readExponent (scaled.addFraction fraction) rest with
        | some (s, rest) => (ofFloat negative s, some rest)
        | none => (broken, none)
    | c :: _ =>
      if c = 'e' ∨ c = 'E' then
        match readExponent scaled rest with
        | some (s, rest) => (ofFloat negative s, some rest)
        | none => (broken, none)
      else (ofWhole negative whole, some rest)
    | [] => (ofWhole negative whole, some [])

/-! ## Texts -/

/-- Reads four hexadecimal digits. -/
def readHex4 : List Char → Option (Nat × List Char)
  | a :: b :: c :: d :: rest => do
    let a ← Text.Hex.value? a
    let b ← Text.Hex.value? b
    let c ← Text.Hex.value? c
    let d ← Text.Hex.value? d
    pure (((a * 16 + b) * 16 + c) * 16 + d, rest)
  | _ => none

/-- The character that a letter after a backslash stands for. -/
def escapeOf? : Char → Option Char
  | '"' => some '"'
  | '\\' => some '\\'
  | '/' => some '/'
  | 'b' => some '\x08'
  | 'f' => some '\x0c'
  | 'n' => some '\n'
  | 'r' => some '\r'
  | 't' => some '\t'
  | _ => none

/-- A text read up to its closing quote: its characters, or none when it holds half of a surrogate pair. -/
structure Quoted where
  chars : Option (List Char)
  rest : List Char

/-- Puts a character before the text. -/
def Quoted.cons (c : Char) (q : Quoted) : Quoted := ⟨q.chars.map (c :: ·), q.rest⟩

/-- Reads a text after its opening quote. The fuel bounds the characters read. -/
def readQuoted : Nat → List Char → Option Quoted
  | 0, _ => none
  | _ + 1, [] => none
  | fuel + 1, c :: cs =>
    if c = '"' then some ⟨some [], cs⟩
    else if c.toNat < 0x20 then none
    else if c ≠ '\\' then (readQuoted fuel cs).map (.cons c)
    else match cs with
      | 'u' :: cs => do
        let (unit, cs) ← readHex4 cs
        if 0xD800 ≤ unit ∧ unit ≤ 0xDBFF then
          match cs with
          | '\\' :: 'u' :: cs' =>
            let (low, cs') ← readHex4 cs'
            if 0xDC00 ≤ low ∧ low ≤ 0xDFFF then
              (readQuoted fuel cs').map (.cons (Char.ofNat (0x10000 + (unit - 0xD800) * 0x400 + (low - 0xDC00))))
            else (readQuoted fuel cs').map fun q => ⟨none, q.rest⟩
          | _ => (readQuoted fuel cs).map fun q => ⟨none, q.rest⟩
        else if 0xDC00 ≤ unit ∧ unit ≤ 0xDFFF then (readQuoted fuel cs).map fun q => ⟨none, q.rest⟩
        else (readQuoted fuel cs).map (.cons (Char.ofNat unit))
      | e :: cs => do
        let c ← escapeOf? e
        (readQuoted fuel cs).map (.cons c)
      | [] => none

/-- Reads a key after its opening quote; half of a surrogate pair breaks it. -/
def readKey (cs : List Char) : Option (String × List Char) := do
  let q ← readQuoted (cs.length + 1) cs
  let chars ← q.chars
  pure (String.ofList chars, q.rest)

/-- Reads a text value after its opening quote. -/
def readText (cs : List Char) : Document × Rest :=
  match readQuoted (cs.length + 1) cs with
  | some ⟨some chars, rest⟩ => (string (String.ofList chars), some rest)
  | some ⟨none, rest⟩ => (unreadable, some rest)
  | none => (broken, none)

/-- Reads the rest of a word. -/
def readWord (word : List Char) (value : Document) (cs : List Char) : Document × Rest :=
  if word.isPrefixOf cs then (value, some (cs.drop word.length)) else (broken, none)

/-! ## Values -/

/-- An array inside `level` containers. -/
def arrayAt (level : Nat) (items : List Document) (complete : Bool) : Document :=
  if level < maxNesting then array items complete else deep complete

/-- An object inside `level` containers. -/
def objectAt (level : Nat) (members : List (String × Document)) (complete : Bool) : Document :=
  if level < maxNesting then object members complete else deep complete

mutual

/-- Reads a value inside `level` containers. The fuel bounds the characters read. -/
def readValue : Nat → Nat → List Char → Document × Rest
  | 0, _, _ => (broken, none)
  | fuel + 1, level, cs =>
    match skipSpace cs with
    | '{' :: cs =>
      match skipSpace cs with
      | '}' :: cs => (objectAt level [] true, some cs)
      | cs =>
        let (members, rest) := readMembers fuel (level + 1) cs
        (objectAt level members rest.isSome, rest)
    | '[' :: cs =>
      match skipSpace cs with
      | ']' :: cs => (arrayAt level [] true, some cs)
      | cs =>
        let (items, rest) := readItems fuel (level + 1) cs
        (arrayAt level items rest.isSome, rest)
    | '"' :: cs => readText cs
    | '-' :: cs => readNumber true cs
    | 't' :: cs => readWord ['r', 'u', 'e'] (bool true) cs
    | 'f' :: cs => readWord ['a', 'l', 's', 'e'] (bool false) cs
    | 'n' :: cs => readWord ['u', 'l', 'l'] null cs
    | c :: cs => if c.isDigit then readNumber false (c :: cs) else (broken, none)
    | [] => (broken, none)

/-- Reads items up to the closing bracket. -/
def readItems : Nat → Nat → List Char → List Document × Rest
  | 0, _, _ => ([], none)
  | fuel + 1, level, cs =>
    match readValue fuel level cs with
    | (d, none) => ([d], none)
    | (d, some cs) =>
      match skipSpace cs with
      | ']' :: cs => ([d], some cs)
      | ',' :: cs =>
        let (ds, rest) := readItems fuel level cs
        (d :: ds, rest)
      | _ => ([d], none)

/-- Reads members up to the closing brace. -/
def readMembers : Nat → Nat → List Char → List (String × Document) × Rest
  | 0, _, _ => ([], none)
  | fuel + 1, level, cs =>
    match skipSpace cs with
    | '"' :: cs =>
      match readKey cs with
      | none => ([], none)
      | some (key, cs) =>
        match skipSpace cs with
        | ':' :: cs =>
          match readValue fuel level cs with
          | (d, none) => ([(key, d)], none)
          | (d, some cs) =>
            match skipSpace cs with
            | '}' :: cs => ([(key, d)], some cs)
            | ',' :: cs =>
              let (ms, rest) := readMembers fuel level cs
              ((key, d) :: ms, rest)
            | _ => ([(key, d)], none)
        | _ => ([(key, broken)], none)
    | _ => ([], none)

end

/-- Reads a text as one document, and says whether only white space follows it. -/
def read (s : String) : Document × Bool :=
  let cs := s.toList
  match readValue (2 * cs.length + 2) 0 cs with
  | (d, some rest) => (d, (skipSpace rest).isEmpty)
  | (d, none) => (d, false)

end DatabaseBroker.Document

namespace DatabaseBroker.Json

/-- The value that a text denotes. -/
def read? (s : String) : Option Json :=
  match Document.read s with
  | (d, true) => d.toJson?
  | (_, false) => none

end DatabaseBroker.Json
