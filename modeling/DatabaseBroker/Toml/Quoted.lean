import DatabaseBroker.Text.Hex

/-!
# Quoted text of a settings file

A text stands between double quotes, with escapes, or between single quotes, as it is; and between one mark on one line
or between three over several lines. `readQuoted` reads the four kinds. `write` chooses the first of them that shows the
text as it is, and falls back to escapes.
-/

namespace DatabaseBroker.Toml

/-- A way to put a text in quotes. -/
structure Quoting where
  /-- Double quotes, between which a backslash begins an escape. -/
  escapes : Bool
  multiline : Bool
deriving DecidableEq

namespace Quoting

/-- The mark that opens and ends a text. -/
def mark (q : Quoting) : Char := if q.escapes then '"' else '\x27'

/-- The marks around the text. -/
def marks (q : Quoting) : List Char := List.replicate (if q.multiline then 3 else 1) q.mark

end Quoting

/-- White space inside a line. -/
def isGap (c : Char) : Bool := c == ' ' || c == '\t'

/-- What follows the blanks at the front of a line. -/
def skipGap (cs : List Char) : List Char := cs.dropWhile isGap

/-- What follows the end of a line, if the line ends here. -/
def afterLine? : List Char → Option (List Char)
  | '\n' :: cs => some cs
  | '\r' :: '\n' :: cs => some cs
  | _ => none

/-- A character that has no place in a text as it is. -/
def isControl (c : Char) : Bool := (c.toNat < 0x20 && c != '\t') || c.toNat == 0x7F

/-! ## Reading -/

/-- Skips white space and ends of lines. -/
def skipLines (cs : List Char) : List Char :=
  match cs with
  | '\r' :: '\n' :: cs => skipLines cs
  | c :: cs => if isGap c || c == '\n' then skipLines cs else c :: cs
  | [] => []

/-- Skipping lines does not lengthen the text. -/
theorem length_skipLines_le (cs : List Char) : (skipLines cs).length ≤ cs.length := by
  fun_induction skipLines cs with
  | case1 cs ih => simp only [List.length_cons]; omega
  | case2 c cs _ _ ih => simp only [List.length_cons]; omega
  | case3 => exact Nat.le_refl _
  | case4 => exact Nat.le_refl _

/-- What follows the end of a line is shorter. -/
theorem length_afterLine {cs rest : List Char} (h : afterLine? cs = some rest) : rest.length < cs.length := by
  unfold afterLine? at h
  split at h
  · cases h; simp
  · cases h; simp only [List.length_cons]; omega
  · cases h

/-- A step through quoted text: more of it, or its end. -/
inductive Piece where
  | more (chars : List Char)
  | last (chars : List Char)
deriving DecidableEq

/-- What marks stand for: over several lines one or two in a row are part of the text, three end it, and up to two more
before the end are part of it. -/
def readMarks (q : Quoting) (cs : List Char) : Piece × List Char :=
  let run := (cs.takeWhile (· == q.mark)).length
  if !q.multiline then (.last [], cs.drop 1)
  else if run < 3 then (.more (List.replicate run q.mark), cs.drop run)
  else
    let kept := min (run - 3) 2
    (.last (List.replicate kept q.mark), cs.drop (kept + 3))

/-- Reads the character with a code of so many hexadecimal digits. -/
def readCode (digits : Nat) (cs : List Char) : Option (Char × List Char) := do
  let values ← (cs.take digits).mapM Text.Hex.value?
  let code := values.foldl (fun n d => n * 16 + d) 0
  if values.length = digits ∧ code.isValidChar then some (Char.ofNat code, cs.drop digits) else none

/-- The character that a letter after a backslash stands for. -/
def escapeOf? : Char → Option Char
  | '"' => some '"'
  | '\\' => some '\\'
  | 'b' => some '\x08'
  | 't' => some '\t'
  | 'n' => some '\n'
  | 'f' => some '\x0c'
  | 'r' => some '\r'
  | _ => none

/-- Reads what follows a backslash. -/
def readEscape : List Char → Option (Char × List Char)
  | [] => none
  | c :: cs =>
    if c = 'u' then readCode 4 cs
    else if c = 'U' then readCode 8 cs
    else (escapeOf? c).map (·, cs)

/-- Reads on in quoted text. A backslash at the end of a line takes the white space after it along. -/
def readPiece (q : Quoting) : List Char → Option (Piece × List Char)
  | [] => none
  | c :: cs =>
    if c = q.mark then some (readMarks q (c :: cs))
    else if c = '\\' ∧ q.escapes = true then
      match if q.multiline then afterLine? (skipGap cs) else none with
      | some rest => some (.more [], skipLines rest)
      | none => (readEscape cs).map fun (e, rest) => (.more [e], rest)
    else if !isControl c then some (.more [c], cs)
    else if q.multiline then (afterLine? (c :: cs)).map fun rest => (.more ['\n'], rest)
    else none

/-- What follows an escape is shorter. -/
theorem length_readEscape {cs rest : List Char} {c : Char} (h : readEscape cs = some (c, rest)) :
    rest.length < cs.length := by
  have code {n : Nat} {cs : List Char} (h : readCode n cs = some (c, rest)) : rest.length ≤ cs.length := by
    simp only [readCode, Option.bind_eq_bind, Option.bind_eq_some_iff] at h
    obtain ⟨_, _, h⟩ := h
    split at h
    · cases h; simp
    · cases h
  cases cs with
  | nil => cases h
  | cons d cs =>
    simp only [readEscape] at h
    rw [List.length_cons]
    split at h
    · exact Nat.lt_succ_of_le (code h)
    · split at h
      · exact Nat.lt_succ_of_le (code h)
      · obtain ⟨_, _, h⟩ := Option.map_eq_some_iff.mp h
        cases h
        exact Nat.lt_succ_self _

/-- What follows marks is no longer than what followed the first. -/
theorem length_readMarks (q : Quoting) (cs : List Char) : (readMarks q (q.mark :: cs)).2.length ≤ cs.length := by
  have hrun : 1 ≤ ((q.mark :: cs).takeWhile (· == q.mark)).length := by simp
  unfold readMarks
  generalize ((q.mark :: cs).takeWhile (· == q.mark)).length = run at hrun
  simp only
  split
  · simp
  · split
    · simp only [List.length_drop, List.length_cons]; omega
    · simp only [List.length_drop, List.length_cons]; omega

/-- Every step takes something off the text. -/
theorem length_readPiece {q : Quoting} {cs rest : List Char} {p : Piece} (h : readPiece q cs = some (p, rest)) :
    rest.length < cs.length := by
  cases cs with
  | nil => cases h
  | cons c cs =>
    simp only [readPiece] at h
    split at h
    · rename_i hc
      have := length_readMarks q cs
      rw [← hc, Option.some.inj h] at this
      exact Nat.lt_succ_of_le this
    · split at h
      · split at h
        · rename_i after hafter
          cases h
          split at hafter
          · have h₁ := length_afterLine hafter
            have h₂ := length_skipLines_le after
            have h₃ := (List.dropWhile_sublist isGap (l := cs)).length_le
            simp only [skipGap] at h₁
            simp only [List.length_cons]
            omega
          · cases hafter
        · obtain ⟨⟨e, r⟩, he, h⟩ := Option.map_eq_some_iff.mp h
          cases h
          have := length_readEscape he
          simp only [List.length_cons]
          omega
      · split at h
        · cases h
          exact Nat.lt_succ_self _
        · split at h
          · obtain ⟨r, hr, h⟩ := Option.map_eq_some_iff.mp h
            cases h
            exact length_afterLine hr
          · cases h

/-- Reads quoted text up to its end. -/
def readBody (q : Quoting) (cs : List Char) : Option (List Char × List Char) :=
  match _step : readPiece q cs with
  | none => none
  | some (.last chars, rest) => some (chars, rest)
  | some (.more chars, rest) => (readBody q rest).map fun (more, rest) => (chars ++ more, rest)
termination_by cs.length
decreasing_by exact length_readPiece _step

/-- The kind of text that begins here. -/
def quotingAt? (cs : List Char) : Option Quoting :=
  let tripled (mark : Char) : Bool := [mark, mark, mark].isPrefixOf cs
  match cs with
  | c :: _ =>
    if c = '"' then some ⟨true, tripled '"'⟩
    else if c = '\x27' then some ⟨false, tripled '\x27'⟩
    else none
  | [] => none

/-- Reads a quoted text. A line that ends right after three marks is no part of it. -/
def readQuoted (q : Quoting) (cs : List Char) : Option (String × List Char) := do
  let cs := cs.drop q.marks.length
  let (chars, rest) ← readBody q (if q.multiline then (afterLine? cs).getD cs else cs)
  some (String.ofList chars, rest)

/-! ## Writing -/

/-- The most marks in a row, after `run` of them. -/
def longestRun (mark : Char) (run : Nat) : List Char → Nat
  | [] => run
  | c :: cs => if c = mark then longestRun mark (run + 1) cs else max run (longestRun mark 0 cs)

/-- How a text is put in quotes: as it is where a kind of quotes allows it, on one line and between double quotes where
it can. -/
def Quoting.of (cs : List Char) : Quoting :=
  let controls := cs.any fun c => isControl c && c != '\n'
  let lines := cs.contains '\n'
  let backslash := cs.contains '\\'
  let doubles := longestRun '"' 0 cs
  let singles := longestRun '\x27' 0 cs
  if !controls && !backslash && !lines && doubles == 0 then ⟨true, false⟩
  else if !controls && !lines && singles == 0 then ⟨false, false⟩
  else if !controls && !backslash && doubles ≤ 2 then ⟨true, true⟩
  else if !controls && singles ≤ 2 then ⟨false, true⟩
  else ⟨true, lines⟩

/-- A character between double quotes, where it is no double quote; the end of a line stands as it is over several
lines. -/
def escape (multiline : Bool) (c : Char) : List Char :=
  if c = '\\' then ['\\', '\\']
  else if c = '\x08' then ['\\', 'b']
  else if c = '\t' then ['\\', 't']
  else if c = '\n' then if multiline then ['\n'] else ['\\', 'n']
  else if c = '\x0c' then ['\\', 'f']
  else if c = '\r' then ['\\', 'r']
  else if isControl c then ['\\', 'u', '0', '0', Text.Hex.upper (c.toNat / 16), Text.Hex.upper (c.toNat % 16)]
  else [c]

/-- The characters of a text between double quotes: after `run` double quotes in a row, of which two may stand over
several lines. -/
def escaped (multiline : Bool) (run : Nat) : List Char → List Char
  | [] => []
  | c :: cs =>
    if c = '"' then
      if multiline = true ∧ run < 2 then '"' :: escaped multiline (run + 1) cs
      else '\\' :: '"' :: escaped multiline 0 cs
    else escape multiline c ++ escaped multiline 0 cs

/-- A text in quotes. Over several lines it begins on the line after the marks. -/
def write (s : String) : List Char :=
  let q := Quoting.of s.toList
  q.marks ++ (if q.multiline && s.toList.contains '\n' then ['\n'] else []) ++
    (if q.escapes then escaped q.multiline 0 s.toList else s.toList) ++ q.marks

end DatabaseBroker.Toml
