import DatabaseBroker.Label
import DatabaseBroker.Proofs.Text.Ends

/-!
# Labels kept as text

A rule keeps each of its labels as one text. What `Label.parse?` reads from a text is trimmed (`Label.parse?_eq_some`), and trimming it
again changes nothing, so the text of a label that was read is read as the same label (`Label.parse?_text`).
-/

namespace DatabaseBroker

namespace Label

/-- A text is cut at its first equals sign, and both parts are trimmed. -/
theorem parse?_of_cut {s : String} {key value : List Char} (hs : s.toList = key ++ '=' :: value) (hkey : '=' ∉ key) :
    parse? s =
      if (Text.trimChars key).isEmpty || (Text.trimChars value).isEmpty || (Text.trimChars value).contains '=' then none
      else some ⟨String.ofList (Text.trimChars key), String.ofList (Text.trimChars value)⟩ := by
  have hbefore : ∀ c ∈ key, (c != '=') = true := by
    intro c hc
    simp only [bne_iff_ne, ne_eq]
    rintro rfl
    exact hkey hc
  have hcut : s.toList.span (· != '=') = (key, '=' :: value) := by
    rw [hs]
    exact Text.span_append_cons hbefore (by decide) value
  rw [parse?, hcut]
  rfl

/-- What is read from a text: it has an equals sign, and its label is what is left when the parts around the first one are trimmed. -/
theorem parse?_eq_some {s : String} {l : Label} (h : parse? s = some l) :
    ∃ key value, s.toList = key ++ '=' :: value ∧ '=' ∉ key ∧
      l = ⟨String.ofList (Text.trimChars key), String.ofList (Text.trimChars value)⟩ ∧
      (Text.trimChars key).isEmpty = false ∧ (Text.trimChars value).isEmpty = false ∧ (Text.trimChars value).contains '=' = false := by
  unfold parse? at h
  split at h
  · rename_i key value hspan
    rw [List.span_eq_takeWhile_dropWhile, Prod.mk.injEq] at hspan
    dsimp only at h
    split at h
    · cases h
    · rename_i hparts
      cases h
      simp only [Bool.or_eq_true, not_or, Bool.not_eq_true] at hparts
      refine ⟨key, value, ?_, fun hmem => ?_, rfl, hparts.1.1, hparts.1.2, hparts.2⟩
      · rw [← hspan.1, ← hspan.2, List.takeWhile_append_dropWhile]
      · have hne := List.mem_takeWhile_imp (p := (· != '=')) (hspan.1 ▸ hmem)
        simp at hne
  · cases h

/-- A label that was read from a text is what its own text stands for: a rule that is kept as text applies by the same labels. -/
theorem parse?_text {raw : String} {l : Label} (h : parse? raw = some l) : parse? l.text = some l := by
  obtain ⟨key, value, -, hkey, rfl, hnamed, hvalued, hequals⟩ := parse?_eq_some h
  have htext : (text ⟨String.ofList (Text.trimChars key), String.ofList (Text.trimChars value)⟩).toList =
      Text.trimChars key ++ '=' :: Text.trimChars value := by
    simp [text]
  rw [parse?_of_cut htext fun hmem => hkey (Text.mem_of_mem_trimChars hmem), Text.trimChars_trimChars, Text.trimChars_trimChars,
    hnamed, hvalued, hequals]
  rfl

end Label

end DatabaseBroker
