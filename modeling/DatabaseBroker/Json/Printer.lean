import DatabaseBroker.Json
import DatabaseBroker.Binary64.Shortest
import DatabaseBroker.Text.Hex

/-!
# Printing JSON text

Values as compact JSON: no white space, members in the order of the object. Of a text only the quote, the backslash and
the control characters are escaped. A float always shows a point or an exponent: it is positional while its first digit
stands between the fifth place after the point and the sixteenth before it, and scientific outside.
-/

namespace DatabaseBroker.Json

/-- A character as it stands inside quotes. -/
def escape (c : Char) : List Char :=
  if c = '"' then ['\\', '"']
  else if c = '\\' then ['\\', '\\']
  else if c = '\x08' then ['\\', 'b']
  else if c = '\x0c' then ['\\', 'f']
  else if c = '\n' then ['\\', 'n']
  else if c = '\r' then ['\\', 'r']
  else if c = '\t' then ['\\', 't']
  else if c.toNat < 0x20 then ['\\', 'u', '0', '0', Text.Hex.lower (c.toNat / 16), Text.Hex.lower (c.toNat % 16)]
  else [c]

/-- A text in quotes. -/
def quote (s : String) : List Char := '"' :: s.toList.flatMap escape ++ ['"']

/-- The least and the greatest place of the first digit, counted from the point, at which a float is positional. -/
def positionalRange : Int × Int := (-4, 16)

/-- A decimal with a point or an exponent. -/
def decimalText (d : Decimal) : List Char :=
  let digits := Nat.toDigits 10 d.significand
  let point : Int := digits.length + d.exponent
  if 0 ≤ d.exponent ∧ point ≤ positionalRange.2 then
    digits ++ List.replicate d.exponent.toNat '0' ++ ['.', '0']
  else if 0 < point ∧ point ≤ positionalRange.2 then
    digits.take point.toNat ++ '.' :: digits.drop point.toNat
  else if positionalRange.1 ≤ point ∧ point ≤ 0 then
    '0' :: '.' :: List.replicate (-point).toNat '0' ++ digits
  else
    let exponent := 'e' :: (toString (point - 1)).toList
    match digits with
    | [d] => d :: exponent
    | d :: rest => d :: '.' :: rest ++ exponent
    | [] => exponent

/-- A whole number. -/
def integerText (n : Int) : List Char :=
  match n with
  | .ofNat n => Nat.toDigits 10 n
  | .negSucc n => '-' :: Nat.toDigits 10 (n + 1)

/-- A float: the shortest decimal that rounds to it. -/
def floatText (x : Binary64) : List Char :=
  let text := decimalText (Binary64.shortest x.place)
  if x.negative then '-' :: text else text

/-- A number. -/
def numberText : JsonNumber → List Char
  | .integer n _ => integerText n
  | .float x => floatText x

mutual

/-- The characters of a value. -/
def text : Json → List Char
  | null => ['n', 'u', 'l', 'l']
  | bool true => ['t', 'r', 'u', 'e']
  | bool false => ['f', 'a', 'l', 's', 'e']
  | number n => numberText n
  | string s => quote s
  | array items => '[' :: itemsText items
  | object members => '\x7b' :: membersText members

/-- The rest of an array: its items, joined by commas, and the closing bracket. -/
def itemsText : List Json → List Char
  | [] => [']']
  | [j] => j.text ++ [']']
  | j :: rest => j.text ++ ',' :: itemsText rest

/-- The rest of an object: its members, joined by commas, and the closing brace. -/
def membersText : List (String × Json) → List Char
  | [] => ['\x7d']
  | [(k, j)] => quote k ++ ':' :: j.text ++ ['\x7d']
  | (k, j) :: rest => quote k ++ ':' :: j.text ++ ',' :: membersText rest

end

/-- A value as compact JSON text. -/
def compact (j : Json) : String := String.ofList j.text

end DatabaseBroker.Json
