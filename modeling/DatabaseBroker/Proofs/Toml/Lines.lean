import DatabaseBroker.Proofs.Json.NumberTexts
import DatabaseBroker.Proofs.Text.Ends
import DatabaseBroker.Proofs.Toml.Quotation
import DatabaseBroker.Toml.Reader
import Mathlib.Data.List.Forall2

/-!
# Lines of a settings file read back

A line sets a text or a whole number under a key, or opens a section. `Says` says what a line adds to the statements of the file that it
stands at the front of; a file of such lines is read as their statements, one after another (`readStatements_flatten`).
-/

namespace DatabaseBroker.Toml

variable {cs rest : List Char}

/-! ## Keys -/

/-- A digit may stand in a key without quotes and in a word. -/
theorem isBareChar_of_isDigit {c : Char} (h : c.isDigit = true) : isBareChar c = true := by
  simp [isBareChar, Char.isAlphanum, h]

/-- What begins anything else than a key without quotes may not stand in one. -/
theorem isBareChar_ne {c mark : Char} (h : isBareChar c = true) (hmark : isBareChar mark = false) : c ≠ mark := by
  rintro rfl
  rw [hmark] at h
  cases h

/-- What begins a key without quotes does not begin quotes. -/
theorem quotingAt?_of_bare {c : Char} (h : isBareChar c = true) (cs : List Char) : quotingAt? (c :: cs) = none := by
  have hdouble : c ≠ '"' := isBareChar_ne h (by decide)
  have hsingle : c ≠ '\x27' := isBareChar_ne h (by decide)
  simp [quotingAt?, hdouble, hsingle]

/-- A character that is no white space is not skipped. -/
theorem skipGap_cons {c : Char} (h : isGap c = false) (cs : List Char) : skipGap (c :: cs) = c :: cs := by
  rw [skipGap, List.dropWhile_cons_of_neg (by simp [h])]

/-- A key without quotes. -/
structure Bare (key : List Char) : Prop where
  nonempty : key ≠ []
  chars : ∀ c ∈ key, isBareChar c = true

/-- A key without quotes can be told from its characters. -/
instance (key : List Char) : Decidable (Bare key) :=
  decidable_of_iff (key ≠ [] ∧ key.all isBareChar = true)
    ⟨fun h => ⟨h.1, List.all_eq_true.mp h.2⟩, fun h => ⟨h.nonempty, List.all_eq_true.mpr h.chars⟩⟩

/-- A character that neither is white space nor begins a comment is not skipped. -/
theorem skipRemarks_cons {c : Char} (hgap : isGap c = false) (hc : c ∉ ['\n', '\r', '#']) (cs : List Char) :
    skipRemarks (c :: cs) = c :: cs := by
  simp only [List.mem_cons, List.not_mem_nil, or_false, not_or] at hc
  obtain ⟨hline, hreturn, hcomment⟩ := hc
  unfold skipRemarks
  split
  · rename_i heq
    exact absurd (List.cons.inj heq).1 hreturn
  · rename_i heq
    exact absurd (List.cons.inj heq).1 hcomment
  · rename_i heq
    obtain ⟨rfl, rfl⟩ := List.cons.inj heq
    simp [hgap, hline]
  · rename_i heq
    cases heq

/-- An empty line is skipped. -/
theorem skipRemarks_line (cs : List Char) : skipRemarks ('\n' :: cs) = skipRemarks cs := by
  conv => lhs; unfold skipRemarks
  rfl

/-- A key without quotes begins with a character that neither is white space nor begins a comment. -/
theorem Bare.exists_cons {key : List Char} (h : Bare key) :
    ∃ c cs, key = c :: cs ∧ isBareChar c = true ∧ isGap c = false ∧ c ∉ ['\n', '\r', '#'] := by
  obtain ⟨c, cs, rfl⟩ := List.exists_cons_of_ne_nil h.nonempty
  have hc := h.chars c List.mem_cons_self
  have hspace : c ≠ ' ' := isBareChar_ne hc (by decide)
  have htab : c ≠ '\t' := isBareChar_ne hc (by decide)
  refine ⟨c, cs, rfl, hc, ?_, ?_⟩
  · simp [isGap, hspace, htab]
  · simp only [List.mem_cons, List.not_mem_nil, or_false, not_or]
    exact ⟨isBareChar_ne hc (by decide), isBareChar_ne hc (by decide), isBareChar_ne hc (by decide)⟩

theorem Bare.skipGap {key : List Char} (h : Bare key) (rest : List Char) : skipGap (key ++ rest) = key ++ rest := by
  obtain ⟨c, cs, rfl, -, hgap, -⟩ := h.exists_cons
  exact skipGap_cons hgap _

theorem Bare.skipRemarks {key : List Char} (h : Bare key) (rest : List Char) : skipRemarks (key ++ rest) = key ++ rest := by
  obtain ⟨c, cs, rfl, -, hgap, hremark⟩ := h.exists_cons
  exact skipRemarks_cons hgap hremark _

/-- A key without quotes is read up to the mark that follows it. -/
theorem readKey_bare {key : List Char} (h : Bare key) (mark : Char) (rest : List Char) (hmark : isBareChar mark = false)
    (hrest : (skipGap (mark :: rest)).head? ≠ some '.') :
    readKey (key ++ mark :: rest) = some (⟨[], String.ofList key⟩, skipGap (mark :: rest)) := by
  have hspan : (key ++ mark :: rest).span isBareChar = (key, mark :: rest) := Text.span_append_cons h.chars hmark rest
  have hpart : readKeyPart (key ++ mark :: rest) = some (String.ofList key, mark :: rest) := by
    have hquoting : quotingAt? (key ++ mark :: rest) = none := by
      obtain ⟨c, key, rfl⟩ := List.exists_cons_of_ne_nil h.nonempty
      exact quotingAt?_of_bare (h.chars c List.mem_cons_self) _
    rw [readKeyPart, hquoting]
    simp only [hspan, List.isEmpty_iff, if_neg h.nonempty]
  have hparts : readKeyParts ((key ++ mark :: rest).length + 1) (key ++ mark :: rest) =
      some ([String.ofList key], skipGap (mark :: rest)) := by
    unfold readKeyParts
    simp only [h.skipGap, hpart, Option.bind_eq_bind, Option.bind_some]
    split
    · rename_i heq
      exact absurd (by rw [heq]; rfl) hrest
    · rfl
  rw [readKey, hparts]
  simp [nestingLimit]

/-! ## Words -/

/-- Digits are no moment: nothing parts them. -/
theorem isMoment_of_isDigit (h : ∀ c ∈ cs, c.isDigit = true) : isMoment cs = false := by
  have hletters : ∀ c ∈ cs, (c != 'T' && c != 't') = true := by
    intro c hc
    have hT : c ≠ 'T' := fun heq => absurd (h c hc) (by rw [heq]; decide)
    have ht : c ≠ 't' := fun heq => absurd (h c hc) (by rw [heq]; decide)
    simp [hT, ht]
  have hspan : cs.span (fun c => c != 'T' && c != 't') = (cs, []) := by
    rw [List.span_eq_takeWhile_dropWhile, List.takeWhile_eq_self_iff.mpr hletters, List.dropWhile_eq_nil_iff.mpr hletters]
  have hday : '-' ∉ cs := Decimal.not_mem_of_isDigit rfl h
  have htime : ':' ∉ cs := Decimal.not_mem_of_isDigit rfl h
  rw [isMoment, hspan]
  simp [isDay, isTime, Text.cutAt_of_not_mem hday, Text.cutAt_of_not_mem htime]

/-- Digits are all digits, with no underscore between them. -/
theorem digits?_of_isDigit (hne : cs ≠ []) (h : ∀ c ∈ cs, c.isDigit = true) : digits? Char.isDigit cs = some cs := by
  have hall : cs.all Char.isDigit = true := List.all_eq_true.mpr h
  rw [digits?, Text.cutAt_of_not_mem (Decimal.not_mem_of_isDigit rfl h)]
  simpa [hne] using hall

/-- A natural number below 2^63 is in the range of integers. -/
theorem natCast_inRange {n : Nat} (h : n < 0x8000000000000000) : -0x8000000000000000 ≤ (n : Int) ∧ (n : Int) < 0x8000000000000000 := by
  omega

theorem ofInt?_natCast {n : Nat} (h : n < 0x8000000000000000) : ofInt? n = some (integer n (natCast_inRange h)) :=
  dif_pos (natCast_inRange h)

/-- A numeral is the word of its number, if that is in range. -/
theorem ofWord?_ofNat {n : Nat} (h : n < 0x8000000000000000) :
    ofWord? (Text.Numeral.ofNat n) = some (integer n (natCast_inRange h)) := by
  have hplain : Document.Plain (Text.Numeral.ofNat n) := Document.plain_toDigits n
  have hvalue : Text.Numeral.value (Text.Numeral.ofNat n) = n := Json.value_toDigits n
  generalize Text.Numeral.ofNat n = ds at hplain hvalue
  obtain ⟨hdigits, hne, hunpadded⟩ := hplain
  have hword : ∀ c : Char, c.isDigit = false → c ∉ ds := fun c hc => Decimal.not_mem_of_isDigit hc hdigits
  have hsign : takeSign ds = (false, ds) := by
    unfold takeSign
    split
    · exact absurd List.mem_cons_self (hword '-' (by decide))
    · exact absurd List.mem_cons_self (hword '+' (by decide))
    · rfl
  have hwhole : wholeDigits? ds = some ds := by
    rw [wholeDigits?, if_neg, digits?_of_isDigit hne hdigits]
    rintro ⟨hzero, hlong⟩
    obtain ⟨rest, rfl⟩ := List.head?_eq_some_iff.mp hzero
    have hlength := hunpadded hzero
    rw [List.length_cons] at hlength
    exact hlong (by rw [List.length_eq_zero_iff.mp (show rest.length = 0 by omega)])
  have hinteger : ofInteger? ds = some (integer n (natCast_inRange h)) := by
    unfold ofInteger?
    split
    · exact absurd (List.mem_cons_of_mem _ List.mem_cons_self) (hword 'x' (by decide))
    · exact absurd (List.mem_cons_of_mem _ List.mem_cons_self) (hword 'o' (by decide))
    · exact absurd (List.mem_cons_of_mem _ List.mem_cons_self) (hword 'b' (by decide))
    · rw [hsign]
      show (wholeDigits? ds).bind (fun digits => ofInt? (Text.Numeral.value digits)) = _
      rw [hwhole, Option.bind_some, hvalue]
      exact ofInt?_natCast h
  have htrue : ds ≠ ['t', 'r', 'u', 'e'] := by
    rintro rfl
    exact hword 't' (by decide) List.mem_cons_self
  have hfalse : ds ≠ ['f', 'a', 'l', 's', 'e'] := by
    rintro rfl
    exact hword 'f' (by decide) List.mem_cons_self
  rw [ofWord?, if_neg htrue, if_neg hfalse, isMoment_of_isDigit hdigits, if_neg Bool.false_ne_true, hinteger]
  rfl

/-! ## Values -/

/-- What begins with quotes is read as a text. -/
theorem readValue_quoted {q : Quoting} {s : String} (hquoting : quotingAt? cs = some q) (hread : readQuoted q cs = some (s, rest))
    (fuel level : Nat) : readValue (fuel + 1) level cs = some (text s, rest) := by
  unfold readValue
  simp [hquoting, hread]

/-- What begins like a key without quotes is read as a word. -/
theorem readValue_word {c : Char} (hc : isBareChar c = true) (fuel level : Nat) (cs : List Char) :
    readValue (fuel + 1) level (c :: cs) = readWord (c :: cs) := by
  unfold readValue
  rw [quotingAt?_of_bare hc]
  simp only
  split
  · rename_i heq
    exact absurd (List.cons.inj heq).1 (isBareChar_ne hc (by decide))
  · rename_i heq
    exact absurd (List.cons.inj heq).1 (isBareChar_ne hc (by decide))
  · rfl

/-- At the end of a line, the characters are read as a value. -/
structure Shown (shown : List Char) (value : Toml) : Prop where
  begins : ∀ rest, skipGap (shown ++ rest) = shown ++ rest
  reads : ∀ fuel level rest, readValue (fuel + 1) level (shown ++ '\n' :: rest) = some (value, '\n' :: rest)

/-- A text in quotes is read as the text. -/
theorem shown_write (s : String) : Shown (write s) (text s) where
  begins rest := by
    have hgap : isGap (Quoting.of s.toList).mark = false := by
      unfold Quoting.mark
      split <;> rfl
    unfold write Quoting.marks
    rw [List.append_assoc, List.append_assoc, List.append_assoc]
    cases (Quoting.of s.toList).multiline <;> exact skipGap_cons hgap _
  reads fuel level rest := by
    have hmark : ('\n' :: rest).head? ≠ some (Quoting.of s.toList).mark := by
      unfold Quoting.mark
      split <;> simp
    obtain ⟨hquoting, hread⟩ := readQuoted_write s hmark
    exact readValue_quoted hquoting hread fuel level

/-- A numeral is read as its number. -/
theorem shown_ofNat {n : Nat} (h : n < 0x8000000000000000) : Shown (Text.Numeral.ofNat n) (integer n (natCast_inRange h)) := by
  have hword := ofWord?_ofNat h
  have hplain : Document.Plain (Text.Numeral.ofNat n) := Document.plain_toDigits n
  generalize Text.Numeral.ofNat n = ds at hplain hword
  have hbare : Bare ds := ⟨hplain.nonempty, fun c hc => isBareChar_of_isDigit (hplain.digits c hc)⟩
  refine ⟨hbare.skipGap, fun fuel level rest => ?_⟩
  have hchars : ∀ c ∈ ds, isWordChar c = true := by
    intro c hc
    simp [isWordChar, hbare.chars c hc]
  have hspan : (ds ++ '\n' :: rest).span isWordChar = (ds, '\n' :: rest) := Text.span_append_cons hchars (by decide) rest
  have hread : readWord (ds ++ '\n' :: rest) = some (integer n (natCast_inRange h), '\n' :: rest) := by
    rw [readWord, hspan]
    simp [hword]
  obtain ⟨c, ds, rfl⟩ := List.exists_cons_of_ne_nil hplain.nonempty
  rw [List.cons_append] at hread ⊢
  rw [readValue_word (hbare.chars c List.mem_cons_self), hread]

/-! ## Lines -/

/-- What the characters add to the statements of the file that they stand at the front of. -/
def Says (shown : List Char) (statement : Statement) : Prop :=
  ∀ fuel rest, readStatements (fuel + 1) (shown ++ rest) = (readStatements fuel rest).map (statement :: ·)

/-- What says something is not empty. -/
theorem Says.ne_nil {shown : List Char} {statement : Statement} (h : Says shown statement) : shown ≠ [] := by
  rintro rfl
  have hempty := h 0 []
  simp [readStatements, skipRemarks] at hempty

/-- A file is read line by line. -/
theorem readStatements_flatten {lines : List (List Char)} {statements : List Statement} (h : List.Forall₂ Says lines statements)
    {fuel : Nat} (hfuel : lines.flatten.length < fuel) : readStatements fuel lines.flatten = some statements := by
  induction h generalizing fuel with
  | nil =>
    obtain ⟨fuel, rfl⟩ := Nat.exists_eq_succ_of_ne_zero (Nat.ne_of_gt hfuel)
    simp [readStatements, skipRemarks]
  | @cons shown statement lines statements hsays _ ih =>
    have hpos := List.length_pos_iff.mpr hsays.ne_nil
    rw [List.flatten_cons, List.length_append] at hfuel
    obtain ⟨fuel, rfl⟩ := Nat.exists_eq_succ_of_ne_zero (Nat.ne_of_gt (Nat.zero_lt_of_lt hfuel))
    rw [List.flatten_cons, hsays, ih (by omega)]
    rfl

/-- A file of lines is read as the table of their statements. -/
theorem read?_of_lines {s : String} {lines : List (List Char)} {statements : List Statement} (h : List.Forall₂ Says lines statements)
    (hs : s.toList = lines.flatten) (hmark : lines.flatten.head? ≠ some '\uFEFF') : read? s = ofStatements statements := by
  have hread := readStatements_flatten h (Nat.lt_succ_self _)
  rw [← hs] at hread hmark
  unfold read?
  split
  · rename_i heq
    exact absurd (by rw [heq]; rfl) hmark
  · show (readStatements s.toList.length.succ s.toList).bind ofStatements = _
    rw [hread, Option.bind_some]

/-- A statement is read at the front of a file, if it begins there or on the next line and its own line ends behind it. -/
theorem says_of_read {shown : List Char} {statement : Statement} (begun : List Char) (hne : begun ≠ [])
    (hskip : ∀ rest, skipRemarks (shown ++ rest) = begun ++ rest)
    (hread : ∀ rest, readStatement (begun ++ rest) = some (statement, '\n' :: rest)) : Says shown statement := by
  intro fuel rest
  have hstatement := hread rest
  obtain ⟨c, cs, rfl⟩ := List.exists_cons_of_ne_nil hne
  have hended : endLine? ('\n' :: rest) = some rest := rfl
  rw [List.cons_append] at hstatement
  rw [readStatements, hskip rest, List.cons_append]
  simp [hstatement, hended, Option.map_eq_bind]

/-- A line sets a value under a key. -/
theorem says_pair {key shown : List Char} {value : Toml} (hkey : Bare key) (hvalue : Shown shown value) :
    Says (key ++ [' ', '=', ' '] ++ shown ++ ['\n']) (.pair ⟨[], String.ofList key⟩ value) := by
  have hline : ∀ rest, key ++ [' ', '=', ' '] ++ shown ++ ['\n'] ++ rest = key ++ ' ' :: '=' :: ' ' :: (shown ++ '\n' :: rest) := by
    intro rest
    simp
  refine says_of_read (key ++ [' ', '=', ' '] ++ shown ++ ['\n']) (by simp) (fun rest => ?_) (fun rest => ?_)
  · rw [hline, hkey.skipRemarks]
  · have hequals : skipGap (' ' :: '=' :: ' ' :: (shown ++ '\n' :: rest)) = '=' :: ' ' :: (shown ++ '\n' :: rest) := rfl
    have hblank : skipGap (' ' :: (shown ++ '\n' :: rest)) = shown ++ '\n' :: rest := hvalue.begins _
    have hread := readKey_bare hkey ' ' ('=' :: ' ' :: (shown ++ '\n' :: rest)) (by decide) (by rw [hequals]; simp)
    rw [hequals] at hread
    have hpair : ∀ fuel, readPair (fuel + 2) 0 (key ++ ' ' :: '=' :: ' ' :: (shown ++ '\n' :: rest)) =
        some ((⟨[], String.ofList key⟩, value), '\n' :: rest) := by
      intro fuel
      unfold readPair
      simp [hread, hblank, hvalue.reads]
    rw [hline]
    obtain ⟨c, key, rfl, hc, -⟩ := hkey.exists_cons
    have hopen : c ≠ '[' := isBareChar_ne hc (by decide)
    rw [List.cons_append] at hpair ⊢
    unfold readStatement
    split
    · rename_i heq
      exact absurd (List.cons.inj heq).1 hopen
    · rename_i heq
      exact absurd (List.cons.inj heq).1 hopen
    · simp [hpair]

/-- A header opens a section behind an empty line. -/
theorem says_header {name : List Char} (hname : Bare name) :
    Says ('\n' :: '[' :: name ++ [']', '\n']) (.header ⟨[], String.ofList name⟩) := by
  refine says_of_read ('[' :: name ++ [']', '\n']) (by simp) (fun rest => ?_) (fun rest => ?_)
  · rw [List.cons_append, List.cons_append, skipRemarks_line]
    exact skipRemarks_cons (by decide) (by decide) _
  · have hclosed : skipGap (']' :: '\n' :: rest) = ']' :: '\n' :: rest := rfl
    have hread := readKey_bare hname ']' ('\n' :: rest) (by decide) (by rw [hclosed]; simp)
    rw [hclosed] at hread
    have hline : '[' :: name ++ [']', '\n'] ++ rest = '[' :: (name ++ ']' :: '\n' :: rest) := by
      simp
    rw [hline]
    unfold readStatement
    split
    · rename_i heq
      -- a header of two brackets has none of them in its name
      obtain ⟨c, cs, rfl, hc, -⟩ := hname.exists_cons
      exact absurd (List.cons.inj (List.cons.inj heq).2).1 (isBareChar_ne hc (by decide))
    · rename_i heq
      rw [← (List.cons.inj heq).2, hread]
      rfl
    · rename_i heq
      exact absurd rfl (heq _)

end DatabaseBroker.Toml
