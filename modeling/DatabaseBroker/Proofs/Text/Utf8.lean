import DatabaseBroker.Text.Utf8
import Mathlib.Data.Char
import Mathlib.Data.String.Basic

/-!
# The order of UTF-8

The bytes of a text stand in the order of its characters: one text is below another exactly when its bytes are (`bytes_lt_iff`), and
begins with another exactly when its bytes do (`bytes_isPrefix_iff`). Both come from the same fact about two characters
(`charBytes_append_lt`): the bytes of the lesser one are the lesser at the first place where they differ, and there is such a place
whatever comes after, so the bytes of no character begin with those of another.
-/

namespace DatabaseBroker.Text.Utf8

/-- The bytes of a character. -/
def charBytes (c : Char) : List Nat := (String.utf8EncodeChar c).map UInt8.toNat

theorem bytes_eq (s : String) : bytes s = s.toList.flatMap charBytes := by
  have hbytes : s.toUTF8.data.toList = s.toList.flatMap String.utf8EncodeChar := by
    rw [String.toUTF8_eq_toByteArray, ← String.ofList_toList (s := s), String.toByteArray_ofList]
    simp [List.utf8Encode]
  rw [bytes, hbytes, List.map_flatMap]
  rfl

/-- The bytes of a character: its code in digits of base 64, with marks that tell the first byte and the number of those after it. -/
theorem charBytes_eq (c : Char) : charBytes c =
    if c.toNat < 0x80 then [c.toNat]
    else if c.toNat < 0x800 then [0xC0 + c.toNat / 64, 0x80 + c.toNat % 64]
    else if c.toNat < 0x10000 then [0xE0 + c.toNat / 64 / 64, 0x80 + c.toNat / 64 % 64, 0x80 + c.toNat % 64]
    else [0xF0 + c.toNat / 64 / 64 / 64, 0x80 + c.toNat / 64 / 64 % 64, 0x80 + c.toNat / 64 % 64, 0x80 + c.toNat % 64] := by
  have hvalid : c.toNat < 0x110000 := by
    have := c.valid
    simp only [UInt32.isValidChar, Nat.isValidChar] at this
    simp only [Char.toNat]
    omega
  unfold charBytes String.utf8EncodeChar
  simp only [Char.toNat] at hvalid ⊢
  generalize c.val.toNat = n at hvalid ⊢
  split_ifs <;> simp only [List.map_cons, List.map_nil, UInt8.toNat_ofNat', List.cons.injEq, and_true] <;> omega

/-- Of two characters the lesser has the lesser bytes, whatever comes after them. -/
theorem charBytes_append_lt {c d : Char} (h : c < d) (r r' : List Nat) : charBytes c ++ r < charBytes d ++ r' := by
  have hlt : c.toNat < d.toNat := h
  rw [charBytes_eq, charBytes_eq]
  -- The first byte tells how many there are, so two characters with different numbers of bytes differ there.
  split_ifs <;> simp only [List.cons_append, List.nil_append, List.cons_lt_cons_iff] <;> omega

theorem charBytes_ne_nil (c : Char) : charBytes c ≠ [] := by
  rw [charBytes_eq]
  split_ifs <;> exact List.cons_ne_nil _ _

/-- Different characters have different bytes, whatever comes after them. -/
theorem eq_of_charBytes_append_eq {c d : Char} {r r' : List Nat} (h : charBytes c ++ r = charBytes d ++ r') : c = d := by
  rcases lt_trichotomy c d with hlt | heq | hlt
  · have hbytes := charBytes_append_lt hlt r r'
    rw [h] at hbytes
    exact absurd hbytes (List.lt_irrefl _)
  · exact heq
  · have hbytes := charBytes_append_lt hlt r' r
    rw [h] at hbytes
    exact absurd hbytes (List.lt_irrefl _)

/-- A text that is below another has the lesser bytes. -/
theorem flatMap_charBytes_lt {cs ds : List Char} (h : cs < ds) : cs.flatMap charBytes < ds.flatMap charBytes := by
  induction cs generalizing ds with
  | nil =>
    cases ds with
    | nil => exact absurd h (List.lt_irrefl _)
    | cons d ds =>
      obtain ⟨b, rest, hb⟩ := List.exists_cons_of_ne_nil (charBytes_ne_nil d)
      rw [List.flatMap_nil, List.flatMap_cons, hb]
      exact List.nil_lt_cons _ _
  | cons c cs ih =>
    cases ds with
    | nil => exact absurd h (List.not_lt_nil _)
    | cons d ds =>
      rw [List.flatMap_cons, List.flatMap_cons]
      rcases List.cons_lt_cons_iff.mp h with hlt | ⟨rfl, hlt⟩
      · exact charBytes_append_lt hlt _ _
      · exact List.append_left_lt (ih hlt)

/-- The bytes of texts are in the order of the texts. -/
theorem bytes_lt_iff {s t : String} : bytes s < bytes t ↔ s < t := by
  have hmono : ∀ {s t : String}, s < t → bytes s < bytes t := by
    intro s t h
    rw [bytes_eq, bytes_eq]
    exact flatMap_charBytes_lt (String.lt_iff.mp h)
  refine ⟨fun h => ?_, hmono⟩
  rcases lt_trichotomy s t with hlt | rfl | hlt
  · exact hlt
  · exact absurd h (List.lt_irrefl _)
  · exact absurd (hmono hlt) (List.lt_asymm h)

theorem flatMap_charBytes_isPrefix {cs ds : List Char} (h : cs.flatMap charBytes <+: ds.flatMap charBytes) : cs <+: ds := by
  induction cs generalizing ds with
  | nil => exact List.nil_prefix
  | cons c cs ih =>
    obtain ⟨rest, hrest⟩ := h
    rw [List.flatMap_cons, List.append_assoc] at hrest
    cases ds with
    | nil => exact absurd (List.append_eq_nil_iff.mp hrest).1 (charBytes_ne_nil c)
    | cons d ds =>
      rw [List.flatMap_cons] at hrest
      obtain rfl := eq_of_charBytes_append_eq hrest
      exact (List.prefix_cons_inj c).mpr (ih ⟨rest, List.append_cancel_left hrest⟩)

/-- A text begins with another exactly when its bytes begin with the other's. -/
theorem bytes_isPrefix_iff {s t : String} : bytes s <+: bytes t ↔ s.toList <+: t.toList := by
  rw [bytes_eq, bytes_eq]
  refine ⟨flatMap_charBytes_isPrefix, ?_⟩
  rintro ⟨rest, hrest⟩
  rw [← hrest, List.flatMap_append]
  exact List.prefix_append _ _

end DatabaseBroker.Text.Utf8
