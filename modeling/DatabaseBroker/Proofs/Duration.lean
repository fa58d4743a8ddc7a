import DatabaseBroker.Duration
import DatabaseBroker.Proofs.Json.Numerals
import DatabaseBroker.Proofs.Text.Ends

/-!
# Durations written in milliseconds

A duration is written in milliseconds, whatever unit it was read in. It is read back if the number of its milliseconds fits a word, and is no
duration any more if not (`Duration.parse?_inMilliseconds`): one that was given in seconds or minutes may be either.
-/

namespace DatabaseBroker

namespace Text.Numeral

/-- The numeral of a number is read as a word if the number fits one. -/
theorem map_toUInt64?_ofNat (n : Nat) : (toUInt64? (ofNat n)).map UInt64.toNat = if n < UInt64.size then some n else none := by
  by_cases h : n < UInt64.size
  · have hword : (UInt64.ofNatLT n h).toNat = n := UInt64.toNat_ofNatLT
    have hread := toUInt64?_ofNat (UInt64.ofNatLT n h)
    rw [hword] at hread
    rw [hread, Option.map_some, hword, if_pos h]
  · have hsign : '+' ∉ ofNat n := Decimal.not_mem_of_isDigit rfl (Json.isDigit_toDigits n)
    have hhead : (ofNat n).head? ≠ some '+' := fun heq => hsign (List.mem_of_head? heq)
    rw [toUInt64?, if_neg hhead, toNat?_ofNat, if_neg h]
    simp [h]

end Text.Numeral

namespace Duration

/-- The text before an ending is got back from both. -/
theorem dropEnding?_append (ending cs : List Char) : dropEnding? ending (cs ++ ending) = some cs := by
  have hends : ending.isSuffixOf (cs ++ ending) = true := List.isSuffixOf_iff_suffix.mpr (List.suffix_append cs ending)
  rw [dropEnding?, if_pos hends, List.length_append, Nat.add_sub_cancel, List.take_left]

/-- A duration that is written in milliseconds is read as what it is, if their number fits a word, and as no duration if not. -/
theorem parse?_inMilliseconds (d : Duration) : parse? d.inMilliseconds = if d.milliseconds < UInt64.size then some d else none := by
  have htext : d.inMilliseconds.toList = Text.Numeral.ofNat d.milliseconds ++ ['m', 's'] := by
    simp [inMilliseconds, Text.Numeral.ofNat]
  have hunit : ['m', 's'].all (fun c => !Text.isBlankChar c) = true := by decide
  have hblank : ∀ c ∈ Text.Numeral.ofNat d.milliseconds ++ ['m', 's'], Text.isBlankChar c = false := by
    intro c hc
    rcases List.mem_append.mp hc with hc | hc
    · exact Text.isBlankChar_of_isDigit (Json.isDigit_toDigits d.milliseconds c hc)
    · simpa using List.all_eq_true.mp hunit c hc
  rw [parse?, htext, Text.trimChars_of_not_blank hblank, dropEnding?_append]
  simp only
  rw [Text.Numeral.map_toUInt64?_ofNat]
  split <;> rfl

end Duration

end DatabaseBroker
