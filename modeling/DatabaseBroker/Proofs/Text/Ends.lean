import DatabaseBroker.Text.Blank
import Mathlib.Data.List.DropRight
import Mathlib.Data.List.TakeDrop
import Mathlib.Data.List.TakeWhile

/-!
# Ends of a text

Readers split characters off the front of a text up to a mark (`span_append_cons`). Trimming takes white space off both ends and nothing else:
trimming again changes nothing (`trimChars_trimChars`), and what is no white space stays (`mem_trimChars_iff`).
-/

namespace DatabaseBroker.Text

/-- Characters of a kind are split off in front of the first that is of another kind. -/
theorem span_append_cons {p : Char → Bool} {cs : List Char} (hcs : ∀ c ∈ cs, p c = true) {c : Char} (hc : p c = false) (rest : List Char) :
    (cs ++ c :: rest).span p = (cs, c :: rest) := by
  rw [List.span_eq_takeWhile_dropWhile, List.takeWhile_append_of_pos hcs, List.dropWhile_append_of_pos hcs]
  simp [hc]

/-- Nothing is left to trim off what is trimmed. -/
theorem trimChars_trimChars (cs : List Char) : trimChars (trimChars cs) = trimChars cs := by
  have hright : ∀ l : List Char, (l.reverse.dropWhile isBlankChar).reverse = l.rdropWhile isBlankChar := fun _ => rfl
  have hleft : (trimChars cs).dropWhile isBlankChar = trimChars cs := by
    rw [trimChars, hright]
    -- what is left begins as the text does behind its leading white space
    obtain ⟨rest, hrest⟩ := List.rdropWhile_prefix isBlankChar (cs.dropWhile isBlankChar)
    cases hkept : (cs.dropWhile isBlankChar).rdropWhile isBlankChar with
    | nil => rfl
    | cons c kept =>
      have hc := List.head?_dropWhile_not isBlankChar cs
      rw [← hrest, hkept] at hc
      exact List.dropWhile_cons_of_neg (by simpa using hc)
  rw [trimChars, hleft, hright, trimChars, hright, List.rdropWhile_idempotent]

/-- What is trimmed is part of what was there. -/
theorem mem_of_mem_trimChars {c : Char} {cs : List Char} (h : c ∈ trimChars cs) : c ∈ cs :=
  (List.dropWhile_sublist _).mem (List.mem_reverse.mp ((List.dropWhile_sublist _).mem (List.mem_reverse.mp h)))

/-- Behind white space at the front there is what is no white space. -/
theorem mem_dropBlank_iff {c : Char} (hc : isBlankChar c = false) {cs : List Char} : c ∈ cs.dropWhile isBlankChar ↔ c ∈ cs := by
  constructor
  · intro h
    exact (List.dropWhile_sublist isBlankChar).mem h
  · intro h
    rw [← List.takeWhile_append_dropWhile (p := isBlankChar) (l := cs)] at h
    rcases List.mem_append.mp h with hfront | hrest
    · rw [List.mem_takeWhile_imp hfront] at hc
      cases hc
    · exact hrest

/-- What is no white space is never trimmed off. -/
theorem mem_trimChars_iff {c : Char} (hc : isBlankChar c = false) {cs : List Char} : c ∈ trimChars cs ↔ c ∈ cs := by
  rw [trimChars, List.mem_reverse, mem_dropBlank_iff hc, List.mem_reverse, mem_dropBlank_iff hc]

/-- Nothing is left of white space, and of nothing else. -/
theorem trimChars_eq_nil_iff {cs : List Char} : trimChars cs = [] ↔ cs.all isBlankChar = true := by
  rw [List.all_eq_true]
  constructor
  · intro h c hc
    by_contra hblank
    have hkept := (mem_trimChars_iff (by simpa using hblank)).mpr hc
    rw [h] at hkept
    cases hkept
  · intro h
    rw [trimChars, List.dropWhile_eq_nil_iff.mpr h]
    rfl

/-- A digit is no white space. -/
theorem isBlankChar_of_isDigit {c : Char} (h : c.isDigit = true) : isBlankChar c = false := by
  have hcode : 48 ≤ c.toNat ∧ c.toNat ≤ 57 := by
    simpa [Char.isDigit, UInt32.le_iff_toNat_le] using h
  simp only [isBlankChar, Bool.or_eq_false_iff, Bool.and_eq_false_iff, decide_eq_false_iff_not, beq_eq_false_iff_ne]
  omega

/-- Nothing is trimmed off a text without white space. -/
theorem trimChars_of_not_blank {cs : List Char} (h : ∀ c ∈ cs, isBlankChar c = false) : trimChars cs = cs := by
  have hkept : ∀ l : List Char, (∀ c ∈ l, isBlankChar c = false) → l.dropWhile isBlankChar = l := by
    intro l hl
    cases l with
    | nil => rfl
    | cons c l => exact List.dropWhile_cons_of_neg (by simp [hl c List.mem_cons_self])
  rw [trimChars, hkept cs h, hkept cs.reverse fun c hc => h c (List.mem_reverse.mp hc), List.reverse_reverse]

end DatabaseBroker.Text
