import DatabaseBroker.Toml.Quoted
import Mathlib.Data.List.TakeWhile

/-!
# Quoted text reads back

Every text that is written in quotes is read as itself (`readQuoted_write`), whichever kind of quotes it was written in. `Shows` says which
characters between the marks stand for which text. What needs care are the marks themselves: over several lines up to two of them in a row
stand for themselves, so a reader takes them in runs, and a run at the end of the text runs into the marks that end it.
-/

namespace DatabaseBroker.Toml

/-! ## Reading step by step -/

section Steps

variable {q : Quoting} {cs rest chars : List Char}

/-- A text is read step by step: a step ends it, or goes on with what follows. -/
theorem readBody_eq (q : Quoting) (cs : List Char) :
    readBody q cs = match readPiece q cs with
      | none => none
      | some (.last chars, rest) => some (chars, rest)
      | some (.more chars, rest) => (readBody q rest).map fun (more, rest) => (chars ++ more, rest) := by
  rw [readBody]
  split
  · rename_i hstep
    rw [hstep]
  · rename_i hstep
    rw [hstep]
  · rename_i hstep
    rw [hstep]

theorem readBody_of_more (h : readPiece q cs = some (.more chars, rest)) :
    readBody q cs = (readBody q rest).map fun (more, rest) => (chars ++ more, rest) := by
  rw [readBody_eq, h]

theorem readBody_of_last (h : readPiece q cs = some (.last chars, rest)) : readBody q cs = some (chars, rest) := by
  rw [readBody_eq, h]

/-- The marks in front of a text that does not begin with one. -/
theorem takeWhile_marks (n : Nat) (h : rest.head? ≠ some q.mark) :
    ((List.replicate n q.mark ++ rest).takeWhile (· == q.mark)).length = n := by
  rw [List.takeWhile_append_of_pos fun c hc => by simpa using List.eq_of_mem_replicate hc]
  cases rest with
  | nil => simp
  | cons c rest =>
    have hc : c ≠ q.mark := fun hc => h (by rw [hc]; rfl)
    simp [hc]

/-- One or two marks over several lines stand for themselves. -/
theorem readPiece_marks (hq : q.multiline = true) {n : Nat} (hpos : 0 < n) (hn : n ≤ 2) (h : rest.head? ≠ some q.mark) :
    readPiece q (List.replicate n q.mark ++ rest) = some (.more (List.replicate n q.mark), rest) := by
  obtain ⟨n, rfl⟩ := Nat.exists_eq_succ_of_ne_zero (Nat.ne_of_gt hpos)
  have hrun := takeWhile_marks (n + 1) h
  rw [List.replicate_succ, List.cons_append] at hrun ⊢
  rw [readPiece, if_pos rfl, readMarks, hrun]
  have hlt : n + 1 < 3 := by omega
  simp [hq, hlt, List.replicate_succ]

/-- The most marks in a row that stand for themselves. -/
def Quoting.runLimit (q : Quoting) : Nat := if q.multiline then 2 else 0

theorem Quoting.runLimit_of_multiline (hq : q.multiline = true) : q.runLimit = 2 := if_pos hq

theorem Quoting.runLimit_of_line (hq : q.multiline = false) : q.runLimit = 0 := by
  rw [runLimit, hq]
  rfl

/-- One mark more than that ends a text. -/
theorem Quoting.marks_eq (q : Quoting) : q.marks = List.replicate (q.runLimit + 1) q.mark := by
  unfold marks runLimit
  cases q.multiline <;> rfl

/-- The marks that end a text, with as many marks of the text in front of them as may stand there. -/
theorem readPiece_end {n : Nat} (hn : n ≤ q.runLimit) (h : rest.head? ≠ some q.mark) :
    readPiece q (List.replicate n q.mark ++ (q.marks ++ rest)) = some (.last (List.replicate n q.mark), rest) := by
  have hall : List.replicate n q.mark ++ (q.marks ++ rest) = List.replicate (n + q.runLimit + 1) q.mark ++ rest := by
    rw [q.marks_eq, ← List.append_assoc, List.replicate_append_replicate, Nat.add_assoc]
  have hrun := takeWhile_marks (n + q.runLimit + 1) h
  rw [hall]
  rw [List.replicate_succ, List.cons_append] at hrun ⊢
  rw [readPiece, if_pos rfl, readMarks, hrun]
  cases hmulti : q.multiline with
  | false =>
    have hlimit := Quoting.runLimit_of_line hmulti
    obtain rfl : n = 0 := by omega
    simp [hlimit]
  | true =>
    rw [Quoting.runLimit_of_multiline hmulti] at hn ⊢
    have hlt : ¬ n + 2 + 1 < 3 := by omega
    have hkept : min (n + 2 + 1 - 3) 2 = n := by omega
    simp only [Bool.not_true, Bool.false_eq_true, if_false, hlt, hkept]
    rw [← List.cons_append, ← List.replicate_succ, List.drop_append_of_le_length (by simp), List.drop_replicate]
    simp

end Steps

/-! ## What stands for a text -/

/-- After `run` marks in a row, the characters stand for a text. -/
inductive Shows (q : Quoting) : Nat → List Char → List Char → Prop where
  | done (run : Nat) : Shows q run [] []
  /-- A mark that stands for itself. -/
  | mark {run : Nat} {shown cs : List Char} : q.multiline = true → run < 2 → Shows q (run + 1) shown cs →
      Shows q run (q.mark :: shown) (q.mark :: cs)
  /-- Characters that are read as one. -/
  | piece {run : Nat} {piece shown cs : List Char} {c : Char} : (∀ rest, readPiece q (piece ++ rest) = some (.more [c], rest)) →
      (∀ rest, (piece ++ rest).head? ≠ some q.mark) → Shows q 0 shown cs → Shows q run (piece ++ shown) (c :: cs)

/-- What stands for a text is read as the text, up to the marks that end it. -/
theorem readBody_of_shows {q : Quoting} {run : Nat} {shown cs rest : List Char} (h : Shows q run shown cs)
    (hrun : run ≤ q.runLimit) (hrest : rest.head? ≠ some q.mark) :
    readBody q (List.replicate run q.mark ++ (shown ++ (q.marks ++ rest))) = some (List.replicate run q.mark ++ cs, rest) := by
  induction h with
  | done run =>
    rw [List.nil_append, List.append_nil]
    exact readBody_of_last (readPiece_end hrun hrest)
  | @mark run shown cs hmulti hlt _ ih =>
    have hmore := ih (by rw [Quoting.runLimit_of_multiline hmulti]; omega)
    have hfront : ∀ l : List Char, List.replicate run q.mark ++ q.mark :: l = List.replicate (run + 1) q.mark ++ l := by
      intro l
      rw [List.replicate_succ', List.append_assoc, List.singleton_append]
    rw [List.cons_append, hfront, hfront]
    exact hmore
  | @piece run piece shown cs c hread hhead _ ih =>
    have hmore := ih (Nat.zero_le _)
    rw [List.replicate_zero, List.nil_append, List.nil_append] at hmore
    have hpiece : readBody q (piece ++ (shown ++ (q.marks ++ rest))) = some (c :: cs, rest) := by
      rw [readBody_of_more (hread _), hmore]
      rfl
    rw [List.append_assoc]
    cases run with
    | zero => simpa using hpiece
    | succ n =>
      -- the marks before the piece are read in one step
      have hmulti : q.multiline = true := by
        cases hq : q.multiline with
        | true => rfl
        | false =>
          rw [Quoting.runLimit_of_line hq] at hrun
          omega
      rw [Quoting.runLimit_of_multiline hmulti] at hrun
      rw [readBody_of_more (readPiece_marks hmulti (Nat.succ_pos n) hrun (hhead _)), hpiece]
      rfl

/-- It does not begin with a mark on one line. -/
theorem Shows.head? {q : Quoting} {shown cs rest : List Char} (h : Shows q 0 shown cs) (hq : q.multiline = false)
    (hne : shown ≠ []) : (shown ++ rest).head? ≠ some q.mark := by
  cases h with
  | done => exact absurd rfl hne
  | mark hmulti => rw [hq] at hmulti; cases hmulti
  | piece _ hhead _ =>
    rw [List.append_assoc]
    exact hhead _

/-! ## One character -/

section Characters

variable {q : Quoting} {c : Char}

/-- A character that stands for itself. -/
theorem readPiece_plain (hmark : c ≠ q.mark) (hescape : q.escapes = true → c ≠ '\\') (hcontrol : isControl c = false)
    (rest : List Char) : readPiece q (c :: rest) = some (.more [c], rest) := by
  have hback : ¬ (c = '\\' ∧ q.escapes = true) := fun h => hescape h.2 h.1
  rw [readPiece, if_neg hmark, if_neg hback]
  simp [hcontrol]

/-- No mark is where a line ends. -/
theorem afterLine?_mark (q : Quoting) (cs : List Char) : afterLine? (q.mark :: cs) = none := by
  unfold Quoting.mark
  split <;> rfl

/-- The end of a line is read as such over several lines. -/
theorem readPiece_afterLine (hq : q.multiline = true) {cs rest : List Char} (h : afterLine? cs = some rest) :
    readPiece q cs = some (.more ['\n'], rest) := by
  cases cs with
  | nil => cases h
  | cons c cs =>
    have hmark : c ≠ q.mark := by
      rintro rfl
      rw [afterLine?_mark] at h
      cases h
    have hc : c = '\n' ∨ c = '\r' := by
      unfold afterLine? at h
      split at h
      · rename_i heq
        exact .inl (List.cons.inj heq).1
      · rename_i heq
        exact .inr (List.cons.inj heq).1
      · cases h
    have hback : ¬ (c = '\\' ∧ q.escapes = true) := by
      rintro ⟨rfl, -⟩
      rcases hc with hc | hc <;> cases hc
    have hcontrol : isControl c = true := by
      rcases hc with rfl | rfl <;> decide
    rw [readPiece, if_neg hmark, if_neg hback]
    simp [hcontrol, hq, h]

/-- Behind a backslash an escape is read, if neither a gap nor the end of a line is there. -/
theorem readPiece_backslash (multiline : Bool) (hgap : isGap c = false) (hline : c ≠ '\n') (hreturn : c ≠ '\r') (rest : List Char) :
    readPiece ⟨true, multiline⟩ ('\\' :: c :: rest) = (readEscape (c :: rest)).map fun (e, rest) => (.more [e], rest) := by
  have hmark : '\\' ≠ (Quoting.mk true multiline).mark := by
    show '\\' ≠ '"'
    decide
  have hskip : skipGap (c :: rest) = c :: rest := by
    simp [skipGap, hgap]
  have hafter : afterLine? (c :: rest) = none := by
    unfold afterLine?
    split
    · rename_i heq
      exact absurd (List.cons.inj heq).1 hline
    · rename_i heq
      exact absurd (List.cons.inj heq).1 hreturn
    · rfl
  rw [readPiece, if_neg hmark, if_pos ⟨rfl, rfl⟩, hskip, hafter, ite_self]

/-- A code of four digits, of which the first two are zero. -/
theorem readCode_upper (hc : c.toNat < 256) (rest : List Char) :
    readCode 4 ('0' :: '0' :: Text.Hex.upper (c.toNat / 16) :: Text.Hex.upper (c.toNat % 16) :: rest) = some (c, rest) := by
  have hzero : Text.Hex.value? '0' = some 0 := by decide
  have hhigh : Text.Hex.value? (Text.Hex.upper (c.toNat / 16)) = some (c.toNat / 16) := Text.Hex.value?_upper (by omega)
  have hlow : Text.Hex.value? (Text.Hex.upper (c.toNat % 16)) = some (c.toNat % 16) := Text.Hex.value?_upper (by omega)
  have hcode : (0 * 16 + 0) * 16 + 0 = 0 := by decide
  have hnumber : c.toNat / 16 * 16 + c.toNat % 16 = c.toNat := by omega
  have hvalid : c.toNat.isValidChar := c.valid
  simp [readCode, hzero, hhigh, hlow, hnumber, hvalid, Char.ofNat_toNat]

/-- What a character is written as between double quotes is read as the character. -/
theorem readPiece_escape (multiline : Bool) (hc : c ≠ '"') (rest : List Char) :
    readPiece ⟨true, multiline⟩ (escape multiline c ++ rest) = some (.more [c], rest) := by
  unfold escape
  split
  · subst c
    exact readPiece_backslash multiline (by decide) (by decide) (by decide) rest
  split
  · subst c
    exact readPiece_backslash multiline (by decide) (by decide) (by decide) rest
  split
  · subst c
    exact readPiece_backslash multiline (by decide) (by decide) (by decide) rest
  split
  · subst c
    cases multiline with
    | true => exact readPiece_afterLine rfl rfl
    | false => exact readPiece_backslash false (by decide) (by decide) (by decide) rest
  split
  · subst c
    exact readPiece_backslash multiline (by decide) (by decide) (by decide) rest
  split
  · subst c
    exact readPiece_backslash multiline (by decide) (by decide) (by decide) rest
  split
  · rename_i hcontrol
    have hlow : c.toNat < 256 := by
      simp only [isControl, Bool.or_eq_true, Bool.and_eq_true, decide_eq_true_eq, beq_iff_eq] at hcontrol
      omega
    have hbackslash := readPiece_backslash (c := 'u') multiline (by decide) (by decide) (by decide)
      ('0' :: '0' :: Text.Hex.upper (c.toNat / 16) :: Text.Hex.upper (c.toNat % 16) :: rest)
    rw [readEscape, if_pos rfl, readCode_upper hlow] at hbackslash
    exact hbackslash
  · rename_i hback _ _ _ _ _ hcontrol
    exact readPiece_plain hc (fun _ => hback) (by simpa using hcontrol) rest

/-- It does not begin with a mark. -/
theorem head?_escape (multiline : Bool) (hc : c ≠ '"') (rest : List Char) :
    (escape multiline c ++ rest).head? ≠ some '"' := by
  unfold escape
  repeat' split
  all_goals simp [hc]

end Characters

/-! ## Whole texts -/

/-- Every text is shown by its characters between double quotes. -/
theorem shows_escaped (multiline : Bool) (run : Nat) (cs : List Char) :
    Shows ⟨true, multiline⟩ run (escaped multiline run cs) cs := by
  induction cs generalizing run with
  | nil => exact .done run
  | cons c cs ih =>
    unfold escaped
    split
    · rename_i hc
      subst c
      split
      · rename_i hmark
        exact .mark hmark.1 hmark.2 (ih (run + 1))
      · have hread : ∀ rest, readPiece ⟨true, multiline⟩ (['\\', '"'] ++ rest) = some (.more ['"'], rest) := by
          intro rest
          exact readPiece_backslash multiline (by decide) (by decide) (by decide) rest
        exact .piece hread (fun _ => by simp [Quoting.mark]) (ih 0)
    · rename_i hc
      exact .piece (readPiece_escape multiline hc) (head?_escape multiline hc) (ih 0)

/-- The longest run is no shorter than the one in front. -/
theorem le_longestRun (mark : Char) (run : Nat) (cs : List Char) : run ≤ longestRun mark run cs := by
  induction cs generalizing run with
  | nil => exact Nat.le_refl run
  | cons c cs ih =>
    unfold longestRun
    split
    · have := ih (run + 1)
      omega
    · exact Nat.le_max_left _ _

/-- A text is shown by itself where no escapes are read, its marks stand in runs that are short enough and it has no other control
characters than ends of lines, and those over several lines only. -/
theorem shows_itself {q : Quoting} (hq : q.escapes = false) {cs : List Char} {run : Nat}
    (hcs : ∀ c ∈ cs, isControl c = false ∨ c = '\n' ∧ q.multiline = true)
    (hrun : longestRun q.mark run cs ≤ q.runLimit) : Shows q run cs cs := by
  induction cs generalizing run with
  | nil => exact .done run
  | cons c cs ih =>
    have hrest : ∀ c ∈ cs, isControl c = false ∨ c = '\n' ∧ q.multiline = true :=
      fun c hc => hcs c (List.mem_cons_of_mem _ hc)
    unfold longestRun at hrun
    split at hrun
    · rename_i hmark
      have hlong := (le_longestRun q.mark (run + 1) cs).trans hrun
      rw [hmark]
      cases hmulti : q.multiline with
      | false =>
        rw [Quoting.runLimit_of_line hmulti] at hlong
        omega
      | true =>
        rw [Quoting.runLimit_of_multiline hmulti] at hlong
        exact .mark hmulti (by omega) (ih hrest hrun)
    · rename_i hmark
      have hread : ∀ rest, readPiece q ([c] ++ rest) = some (.more [c], rest) := by
        intro rest
        rcases hcs c List.mem_cons_self with hplain | ⟨rfl, hmulti⟩
        · exact readPiece_plain hmark (fun hescape => by rw [hq] at hescape; cases hescape) hplain rest
        · exact readPiece_afterLine hmulti rfl
      exact .piece hread (fun rest => by simpa using hmark) (ih hrest ((Nat.le_max_right _ _).trans hrun))

/-! ## Written texts -/

section Written

variable {q : Quoting} {shown cs rest : List Char}

/-- The kind of quotes is seen from the marks, if on one line no more than two of them stand at the front. -/
theorem quotingAt?_marks (h : q.multiline = false → ¬ [q.mark, q.mark] <+: rest) : quotingAt? (q.marks ++ rest) = some q := by
  obtain ⟨escapes, multiline⟩ := q
  cases multiline with
  | true => cases escapes <;> simp [quotingAt?, Quoting.marks, Quoting.mark]
  | false =>
    have hpair := h rfl
    rw [← List.isPrefixOf_iff_prefix, Bool.not_eq_true] at hpair
    cases escapes <;> simpa [quotingAt?, Quoting.marks, Quoting.mark] using hpair

/-- On one line a text in quotes does not begin with three marks. -/
theorem Shows.not_tripled (h : Shows q 0 shown cs) (hq : q.multiline = false) (hrest : rest.head? ≠ some q.mark) :
    ¬ [q.mark, q.mark] <+: shown ++ (q.marks ++ rest) := by
  rintro ⟨after, hafter⟩
  by_cases hne : shown = []
  · subst hne
    have hone : q.marks = [q.mark] := by
      simp [Quoting.marks, hq]
    rw [hone] at hafter
    obtain ⟨-, hafter⟩ := List.cons.inj hafter
    rw [List.append_eq, List.append_eq, List.nil_append] at hafter
    rw [← hafter] at hrest
    exact hrest rfl
  · have hhead : (shown ++ (q.marks ++ rest)).head? ≠ some q.mark := h.head? hq hne
    exact hhead (by rw [← hafter]; rfl)

/-- A text without the end of a line does not begin with one. -/
theorem Shows.afterLine? (h : Shows q 0 shown cs) (hq : q.multiline = true) (hcs : '\n' ∉ cs) :
    afterLine? (shown ++ (q.marks ++ rest)) = none := by
  cases h with
  | done =>
    have hthree : q.marks = [q.mark, q.mark, q.mark] := by
      simp [Quoting.marks, hq, List.replicate]
    rw [hthree]
    exact afterLine?_mark q _
  | mark => exact afterLine?_mark q _
  | piece hread =>
    rw [Option.eq_none_iff_forall_ne_some]
    intro after hafter
    -- what begins with the end of a line is read as one
    have hline := readPiece_afterLine hq hafter
    rw [List.append_assoc, hread] at hline
    cases hline
    exact hcs List.mem_cons_self

/-- What stands for a text between marks is read as the text; over several lines the first of them may be left empty, and is if the text
has the end of a line. -/
theorem readQuoted_of_shows (h : Shows q 0 shown cs) (hrest : rest.head? ≠ some q.mark) :
    readQuoted q (q.marks ++ ((if q.multiline && cs.contains '\n' then ['\n'] else []) ++ (shown ++ (q.marks ++ rest)))) =
      some (String.ofList cs, rest) := by
  have hbody := readBody_of_shows h (Nat.zero_le _) hrest
  rw [List.replicate_zero, List.nil_append, List.nil_append] at hbody
  rw [readQuoted, List.drop_left]
  cases hmulti : q.multiline with
  | false => simp [hbody]
  | true =>
    by_cases hlines : '\n' ∈ cs
    · simp [hlines, Toml.afterLine?, hbody]
    · simp [hlines, h.afterLine? hmulti hlines, hbody]

/-- The two ways in which a text is shown as it is: on one line without a mark, or over several with two marks in a row at most. -/
theorem Quoting.of_raw (h : (Quoting.of cs).escapes = false) :
    (∀ c ∈ cs, isControl c = true → c = '\n') ∧
      (Quoting.of cs = ⟨false, false⟩ ∧ '\n' ∉ cs ∧ longestRun '\x27' 0 cs = 0 ∨
        Quoting.of cs = ⟨false, true⟩ ∧ longestRun '\x27' 0 cs ≤ 2) := by
  unfold Quoting.of at h ⊢
  simp only at h ⊢
  split_ifs at h ⊢ with _ hline _ hlines
  · simp only [Bool.and_eq_true, Bool.not_eq_true', List.any_eq_false, beq_iff_eq, List.contains_eq_mem, decide_eq_false_iff_not] at hline
    obtain ⟨⟨hcontrols, hends⟩, hsingles⟩ := hline
    exact ⟨fun c hc hcontrol => by simpa [hcontrol] using hcontrols c hc, .inl ⟨rfl, hends, hsingles⟩⟩
  · simp only [Bool.and_eq_true, Bool.not_eq_true', List.any_eq_false, decide_eq_true_eq] at hlines
    obtain ⟨hcontrols, hsingles⟩ := hlines
    exact ⟨fun c hc hcontrol => by simpa [hcontrol] using hcontrols c hc, .inr ⟨rfl, hsingles⟩⟩

/-- The characters that are written between the marks stand for the text. -/
theorem shows_of (cs : List Char) :
    Shows (Quoting.of cs) 0 (if (Quoting.of cs).escapes then escaped (Quoting.of cs).multiline 0 cs else cs) cs := by
  cases hescapes : (Quoting.of cs).escapes with
  | true =>
    obtain ⟨multiline, hq⟩ : ∃ multiline, Quoting.of cs = ⟨true, multiline⟩ :=
      ⟨(Quoting.of cs).multiline, by rw [← hescapes]⟩
    rw [hq]
    exact shows_escaped multiline 0 cs
  | false =>
    obtain ⟨hcontrols, ⟨hq, hends, hsingles⟩ | ⟨hq, hsingles⟩⟩ := Quoting.of_raw hescapes
    · rw [hq]
      refine shows_itself rfl (fun c hc => .inl ?_) (Nat.le_of_eq hsingles)
      rw [Bool.eq_false_iff]
      intro hcontrol
      exact hends (hcontrols c hc hcontrol ▸ hc)
    · rw [hq]
      refine shows_itself rfl (fun c hc => ?_) hsingles
      cases hcontrol : isControl c with
      | false => exact .inl rfl
      | true => exact .inr ⟨hcontrols c hc hcontrol, rfl⟩

end Written

/-- A text in quotes is read as the text, if no mark follows. -/
theorem readQuoted_write (s : String) {rest : List Char} (hrest : rest.head? ≠ some (Quoting.of s.toList).mark) :
    quotingAt? (write s ++ rest) = some (Quoting.of s.toList) ∧
      readQuoted (Quoting.of s.toList) (write s ++ rest) = some (s, rest) := by
  have hshows := shows_of s.toList
  have hread := readQuoted_of_shows hshows hrest
  rw [String.ofList_toList] at hread
  unfold write
  simp only [List.append_assoc]
  refine ⟨quotingAt?_marks fun hsingle => ?_, hread⟩
  rw [hsingle, Bool.false_and, if_neg Bool.false_ne_true, List.nil_append, ← hsingle]
  exact hshows.not_tripled hsingle hrest

end DatabaseBroker.Toml
