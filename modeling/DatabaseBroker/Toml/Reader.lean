import DatabaseBroker.Toml.Quoted
import DatabaseBroker.Toml.Word

/-!
# Reading settings files

The grammar of TOML 1.0. `Toml.read?` reads a text as statements, one a line, and carries them out; it answers none when
the text breaks the grammar or defines something twice. Containers may stand in fewer than eighty others, and a key has
fewer than eighty parts.
-/

namespace DatabaseBroker.Toml

/-- Containers inside so many others, and keys of so many parts, are refused. -/
def nestingLimit : Nat := 80

/-- A character that may stand in a comment. -/
def isCommentChar (c : Char) : Bool := !isControl c

/-- Skips white space, ends of lines and comments. A comment that ends before its line does stops it. -/
def skipRemarks (cs : List Char) : List Char :=
  match cs with
  | '\r' :: '\n' :: cs => skipRemarks cs
  | '#' :: cs => skipRemarks (cs.dropWhile isCommentChar)
  | c :: cs => if isGap c || c == '\n' then skipRemarks cs else c :: cs
  | [] => []
termination_by cs.length
decreasing_by
  all_goals simp only [List.length_cons]
  · omega
  · have := (List.dropWhile_sublist isCommentChar (l := cs)).length_le
    omega
  · omega

/-- What follows the line, if nothing but a comment is left of it. -/
def endLine? (cs : List Char) : Option (List Char) :=
  let cs := match skipGap cs with
    | '#' :: cs => cs.dropWhile isCommentChar
    | cs => cs
  if cs.isEmpty then some [] else afterLine? cs

/-! ## Keys -/

/-- A character of a key without quotes. -/
def isBareChar (c : Char) : Bool := c.isAlphanum || c == '_' || c == '-'

/-- Reads one part of a key: quoted on one line, or bare. -/
def readKeyPart (cs : List Char) : Option (String × List Char) :=
  match quotingAt? cs with
  | some q => readQuoted { q with multiline := false } cs
  | none =>
    let (bare, rest) := cs.span isBareChar
    if bare.isEmpty then none else some (String.ofList bare, rest)

/-- Reads the parts of a key, joined by points, and the white space around them. The fuel bounds the characters read. -/
def readKeyParts : Nat → List Char → Option (List String × List Char)
  | 0, _ => none
  | fuel + 1, cs => do
    let (part, cs) ← readKeyPart (skipGap cs)
    match skipGap cs with
    | '.' :: cs => do
      let (parts, cs) ← readKeyParts fuel cs
      some (part :: parts, cs)
    | cs => some ([part], cs)

/-- Reads a key. -/
def readKey (cs : List Char) : Option (DottedKey × List Char) := do
  let (parts, cs) ← readKeyParts (cs.length + 1) cs
  let last ← parts.getLast?
  if parts.length < nestingLimit then some (⟨parts.dropLast, last⟩, cs) else none

/-! ## Values -/

/-- A character of a word. -/
def isWordChar (c : Char) : Bool := isBareChar c || c == '+' || c == '.' || c == ':'

/-- Reads a word. A time of day may follow a day after a blank. -/
def readWord (cs : List Char) : Option (Toml × List Char) := do
  let (word, rest) := cs.span isWordChar
  let value ← ofWord? word
  match rest with
  | ' ' :: c :: after =>
    if isDay word && c.isDigit then
      let (time, rest) := (c :: after).span isWordChar
      if isTimeOrOffsetTime time then some (moment, rest) else none
    else some (value, rest)
  | rest => some (value, rest)

mutual

/-- Reads a value inside `level` containers. The fuel bounds the characters read. -/
def readValue : Nat → Nat → List Char → Option (Toml × List Char)
  | 0, _, _ => none
  | fuel + 1, level, cs =>
    match quotingAt? cs with
    | some q => do
      let (s, rest) ← readQuoted q cs
      some (text s, rest)
    | none =>
      match cs with
      | '[' :: cs =>
        if level + 1 < nestingLimit then do
          let (items, rest) ← readItems fuel (level + 1) (skipRemarks cs)
          some (array items, rest)
        else none
      | '\x7b' :: cs =>
        if level + 1 < nestingLimit then
          match skipGap cs with
          | '\x7d' :: rest => some (table .inline [], rest)
          | cs => do
            let (pairs, rest) ← readPairs fuel (level + 1) cs
            let value ← ofPairs pairs
            some (value, rest)
        else none
      | cs => readWord cs

/-- Reads items up to the closing bracket; a comma may stand before it. -/
def readItems : Nat → Nat → List Char → Option (List Toml × List Char)
  | 0, _, _ => none
  | _ + 1, _, ']' :: cs => some ([], cs)
  | fuel + 1, level, cs => do
    let (item, cs) ← readValue fuel level cs
    match skipRemarks cs with
    | ']' :: cs => some ([item], cs)
    | ',' :: cs => do
      let (items, cs) ← readItems fuel level (skipRemarks cs)
      some (item :: items, cs)
    | _ => none

/-- Reads pairs up to the closing brace. -/
def readPairs : Nat → Nat → List Char → Option (List (DottedKey × Toml) × List Char)
  | 0, _, _ => none
  | fuel + 1, level, cs => do
    let (pair, cs) ← readPair fuel level cs
    match skipGap cs with
    | '\x7d' :: cs => some ([pair], cs)
    | ',' :: cs => do
      let (pairs, cs) ← readPairs fuel level cs
      some (pair :: pairs, cs)
    | _ => none

/-- Reads a key, an equals sign and a value. -/
def readPair : Nat → Nat → List Char → Option ((DottedKey × Toml) × List Char)
  | 0, _, _ => none
  | fuel + 1, level, cs => do
    let (key, cs) ← readKey cs
    match cs with
    | '=' :: cs => do
      let (value, cs) ← readValue fuel level (skipGap cs)
      some ((key, value), cs)
    | _ => none

end

/-! ## Statements -/

/-- Reads a statement up to the end of its line. -/
def readStatement (cs : List Char) : Option (Statement × List Char) :=
  match cs with
  | '[' :: '[' :: cs => do
    let (key, cs) ← readKey cs
    match cs with
    | ']' :: ']' :: cs => some (.element key, cs)
    | _ => none
  | '[' :: cs => do
    let (key, cs) ← readKey cs
    match cs with
    | ']' :: cs => some (.header key, cs)
    | _ => none
  | cs => do
    let ((key, value), cs) ← readPair (3 * cs.length + 3) 0 cs
    some (.pair key value, cs)

/-- Reads the statements of a file. The fuel bounds the characters read. -/
def readStatements : Nat → List Char → Option (List Statement)
  | 0, _ => none
  | fuel + 1, cs =>
    match skipRemarks cs with
    | [] => some []
    | cs => do
      let (statement, cs) ← readStatement cs
      let cs ← endLine? cs
      let statements ← readStatements fuel cs
      some (statement :: statements)

/-- Reads a file as its table. A byte order mark may stand before it. -/
def read? (s : String) : Option Toml := do
  let cs := match s.toList with
    | '\uFEFF' :: cs => cs
    | cs => cs
  let statements ← readStatements (cs.length + 1) cs
  ofStatements statements

end DatabaseBroker.Toml
