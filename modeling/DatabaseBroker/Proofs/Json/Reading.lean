import DatabaseBroker.Proofs.Json.Nesting
import DatabaseBroker.Proofs.Json.NumberTexts

/-!
# What is printed is read

The text of a value is read as the value's own document, with each float as what its own text denotes: a string is read up to its
closing quote, a number up to what ends it, a container up to its bracket. `Covers` says this of the three readers that call each other,
for all texts that are no longer than the fuel: a step takes one unit of fuel and at least one character. The reader has fuel for all
characters, so only the nesting limits what is read back (`read_compact`).
-/

namespace DatabaseBroker.Document

open Json (escape quote Ends itemsText membersText itemsRest membersRest)

variable {fuel level : Nat} {r : List Char}

/-! ## Quoted text -/

/-- A character that is written by its number is read by it. -/
theorem readHex4_lower {n : Nat} (hn : n < 32) (cs : List Char) :
    readHex4 ('0' :: '0' :: Text.Hex.lower (n / 16) :: Text.Hex.lower (n % 16) :: cs) = some (n, cs) := by
  have hzero : Text.Hex.value? '0' = some 0 := rfl
  have hhigh : Text.Hex.value? (Text.Hex.lower (n / 16)) = some (n / 16) := Text.Hex.value?_lower (by omega)
  have hlow : Text.Hex.value? (Text.Hex.lower (n % 16)) = some (n % 16) := Text.Hex.value?_lower (by omega)
  simp only [readHex4, hzero, hhigh, hlow, Option.bind_eq_bind, Option.bind_some, Option.pure_def, Option.some.injEq,
    Prod.mk.injEq, and_true]
  omega

/-- A character is read from the way it is written. -/
theorem readQuoted_escape (fuel : Nat) (c : Char) (cs : List Char) :
    readQuoted (fuel + 1) (escape c ++ cs) = (readQuoted fuel cs).map (.cons c) := by
  unfold escape
  split
  · subst c
    rfl
  split
  · subst c
    rfl
  split
  · subst c
    rfl
  split
  · subst c
    rfl
  split
  · subst c
    rfl
  split
  · subst c
    rfl
  split
  · subst c
    rfl
  split
  · rename_i hlow
    have hunit : ¬ (0xD800 ≤ c.toNat ∧ c.toNat ≤ 0xDBFF) ∧ ¬ (0xDC00 ≤ c.toNat ∧ c.toNat ≤ 0xDFFF) := by omega
    show readQuoted (fuel + 1) ('\\' :: 'u' :: '0' :: '0' :: Text.Hex.lower (c.toNat / 16) ::
      Text.Hex.lower (c.toNat % 16) :: cs) = _
    simp [readQuoted, readHex4_lower hlow, hunit.1, hunit.2]
  · rename_i hquote hslash _ _ _ _ _ hlow
    simp [readQuoted, hquote, hslash, hlow]

/-- A text is read from the way it is written, up to its closing quote. -/
theorem readQuoted_quote {s : List Char} (hfuel : s.length < fuel) :
    readQuoted fuel (s.flatMap escape ++ '"' :: r) = some ⟨some s, r⟩ := by
  obtain ⟨fuel, rfl⟩ : ∃ n, fuel = n + 1 := ⟨fuel - 1, by omega⟩
  induction s generalizing fuel with
  | nil => rfl
  | cons c rest ih =>
    rw [List.length_cons] at hfuel
    obtain ⟨fuel, rfl⟩ : ∃ n, fuel = n + 1 := ⟨fuel - 1, by omega⟩
    rw [List.flatMap_cons, List.append_assoc, readQuoted_escape, ih fuel (by omega)]
    rfl

theorem length_le_length_quote (s r : List Char) : s.length < (s.flatMap escape ++ '"' :: r).length + 1 := by
  have hescape : ∀ c, 1 ≤ (escape c).length := fun c => by
    have h := Json.escaped c
    generalize escape c = l at h
    cases h <;> simp
  have hlength : s.length ≤ (s.flatMap escape).length := by
    induction s with
    | nil => exact Nat.le_refl _
    | cons c rest ih =>
      have hc := hescape c
      rw [List.flatMap_cons, List.length_append, List.length_cons]
      omega
  rw [List.length_append]
  omega

theorem readText_quote (s : String) : readText (s.toList.flatMap escape ++ '"' :: r) = (string s, some r) := by
  rw [readText, readQuoted_quote (length_le_length_quote _ r)]
  simp

theorem readKey_quote (s : String) : readKey (s.toList.flatMap escape ++ '"' :: r) = some (s, r) := by
  rw [readKey, readQuoted_quote (length_le_length_quote _ r)]
  simp

/-! ## Values -/

/-- The text of a value begins with no white space and no closing bracket. -/
theorem head_text (j : Json) : ∃ c cs, j.text = c :: cs ∧ isSpace c = false ∧ c ≠ ']' := by
  cases j with
  | null => exact ⟨_, _, rfl, rfl, by decide⟩
  | bool b => cases b <;> exact ⟨_, _, rfl, rfl, by decide⟩
  | number n =>
    obtain ⟨c, cs, h⟩ := List.exists_cons_of_ne_nil (Json.numberText_ne_nil n)
    refine ⟨c, cs, h, ?_⟩
    rcases Json.numberText_chars (h ▸ List.mem_cons_self : c ∈ Json.numberText n) with hc | rfl | rfl | rfl
    · have hother : ∀ d : Char, d.isDigit = false → c ≠ d := by
        rintro d hd rfl
        rw [hc] at hd
        cases hd
      simp [isSpace, hother ' ' rfl, hother '\n' rfl, hother '\t' rfl, hother '\r' rfl, hother ']' rfl]
    all_goals exact ⟨rfl, by decide⟩
  | string s => exact ⟨_, _, rfl, rfl, by decide⟩
  | array items => exact ⟨_, _, rfl, rfl, by decide⟩
  | object members => exact ⟨_, _, rfl, rfl, by decide⟩

theorem skipSpace_of_not {c : Char} (h : isSpace c = false) (cs : List Char) : skipSpace (c :: cs) = c :: cs :=
  List.dropWhile_cons_of_neg (by simp [h])

/-- Before a value there is nothing to skip. -/
theorem skipSpace_text (j : Json) (r : List Char) : skipSpace (j.text ++ r) = j.text ++ r := by
  obtain ⟨c, cs, htext, hspace, -⟩ := head_text j
  rw [htext, List.cons_append, skipSpace_of_not hspace]

theorem text_length_pos (j : Json) : 0 < j.text.length := by
  obtain ⟨c, cs, htext, -, -⟩ := head_text j
  simp [htext]

theorem nesting_array_pos (items : List Json) : 0 < (Json.array items).nesting := Nat.succ_pos _

theorem nesting_object_pos (members : List (String × Json)) : 0 < (Json.object members).nesting := Nat.succ_pos _

/-- An array that is not closed at once. -/
theorem readValue_array {cs : List Char} (hspace : skipSpace cs = cs) (hopen : ∀ rest, cs ≠ ']' :: rest) :
    readValue (fuel + 1) level ('[' :: cs) =
      (arrayAt level (readItems fuel (level + 1) cs).1 (readItems fuel (level + 1) cs).2.isSome,
        (readItems fuel (level + 1) cs).2) := by
  have hskip : skipSpace ('[' :: cs) = '[' :: cs := skipSpace_of_not rfl cs
  simp only [readValue, hskip, hspace]

/-- An object that is not closed at once. -/
theorem readValue_object {cs : List Char} (hopen : cs.head? = some '"') :
    readValue (fuel + 1) level ('\x7b' :: cs) =
      (objectAt level (readMembers fuel (level + 1) cs).1 (readMembers fuel (level + 1) cs).2.isSome,
        (readMembers fuel (level + 1) cs).2) := by
  obtain ⟨rest, rfl⟩ := List.head?_eq_some_iff.mp hopen
  rfl

section Members

variable {k : String} {cs rest : List Char} {d : Document}

/-- The last member of an object. -/
theorem readMembers_last (hvalue : readValue fuel level cs = (d, some ('\x7d' :: rest))) :
    readMembers (fuel + 1) level ('"' :: (k.toList.flatMap escape ++ '"' :: ':' :: cs)) = ([(k, d)], some rest) := by
  have hskip : ∀ tail, skipSpace ('"' :: tail) = '"' :: tail := skipSpace_of_not rfl
  have hcolon : ∀ tail, skipSpace (':' :: tail) = ':' :: tail := skipSpace_of_not rfl
  have hclose : skipSpace ('\x7d' :: rest) = '\x7d' :: rest := skipSpace_of_not rfl rest
  simp only [readMembers, hskip, readKey_quote, hcolon, hvalue, hclose]

/-- A member that others follow. -/
theorem readMembers_next (hvalue : readValue fuel level cs = (d, some (',' :: rest))) :
    readMembers (fuel + 1) level ('"' :: (k.toList.flatMap escape ++ '"' :: ':' :: cs)) =
      ((k, d) :: (readMembers fuel level rest).1, (readMembers fuel level rest).2) := by
  have hskip : ∀ tail, skipSpace ('"' :: tail) = '"' :: tail := skipSpace_of_not rfl
  have hcolon : ∀ tail, skipSpace (':' :: tail) = ':' :: tail := skipSpace_of_not rfl
  have hcomma : skipSpace (',' :: rest) = ',' :: rest := skipSpace_of_not rfl rest
  simp only [readMembers, hskip, readKey_quote, hcolon, hvalue, hcomma]

end Members

theorem head?_membersText (k : String) (j : Json) (rest : List (String × Json)) (r : List Char) :
    (membersText ((k, j) :: rest) ++ r).head? = some '"' := by
  rw [Json.membersText_cons]
  rfl

/-- Fuel that covers the texts that are no longer: each is read as the document of what the value reads back as. -/
structure Covers (fuel : Nat) : Prop where
  value {j : Json} {level : Nat} {r : List Char} (hlength : j.text.length ≤ fuel) (hlevel : level + j.nesting ≤ maxNesting)
    (hr : Ends r) : readValue fuel level (j.text ++ r) = (ofJson j.reread, some r)
  items {j : Json} {rest : List Json} {level : Nat} {r : List Char} (hlength : (itemsText (j :: rest)).length ≤ fuel)
    (hlevel : ∀ i ∈ j :: rest, level + i.nesting ≤ maxNesting) :
    readItems fuel level (itemsText (j :: rest) ++ r) = (ofItems (Json.rereadItems (j :: rest)), some r)
  members {k : String} {j : Json} {rest : List (String × Json)} {level : Nat} {r : List Char}
    (hlength : (membersText ((k, j) :: rest)).length ≤ fuel) (hlevel : ∀ e ∈ (k, j) :: rest, level + e.2.nesting ≤ maxNesting) :
    readMembers fuel level (membersText ((k, j) :: rest) ++ r) = (ofMembers (Json.rereadMembers ((k, j) :: rest)), some r)

namespace Covers

/-- A value takes one unit of fuel more than what stands in it. -/
theorem value_succ (h : Covers fuel) (j : Json) (hlength : j.text.length ≤ fuel + 1) (hlevel : level + j.nesting ≤ maxNesting)
    (hr : Ends r) : readValue (fuel + 1) level (j.text ++ r) = (ofJson j.reread, some r) := by
  cases j with
  | null => rfl
  | bool b => cases b <;> rfl
  | number n => exact readValue_numberText n hr
  | string s =>
    show readText ((s.toList.flatMap escape ++ ['"']) ++ r) = _
    rw [List.append_assoc]
    exact readText_quote s
  | array items =>
    obtain ⟨n, hn⟩ : ∃ n, maxNesting = level + (n + 1) := ⟨maxNesting - level - 1, by have := nesting_array_pos items; omega⟩
    have hdeep := Json.nesting_array_le_iff.mp (show (Json.array items).nesting ≤ n + 1 by omega)
    have hkept : level < maxNesting := by omega
    cases items with
    | nil =>
      show (arrayAt level [] true, some r) = _
      rw [arrayAt, if_pos hkept]
      rfl
    | cons i rest =>
      have hspace : skipSpace (itemsText (i :: rest) ++ r) = itemsText (i :: rest) ++ r := by
        rw [Json.itemsText_cons, List.append_assoc, skipSpace_text]
      refine (readValue_array hspace (Json.itemsText_cons_ne i rest r)).trans ?_
      rw [h.items (Nat.le_of_succ_le_succ hlength) fun j hj => by have := hdeep j hj; omega, arrayAt, if_pos hkept]
      rfl
  | object members =>
    obtain ⟨n, hn⟩ : ∃ n, maxNesting = level + (n + 1) := ⟨maxNesting - level - 1, by have := nesting_object_pos members; omega⟩
    have hdeep := Json.nesting_object_le_iff.mp (show (Json.object members).nesting ≤ n + 1 by omega)
    have hkept : level < maxNesting := by omega
    match members with
    | [] =>
      show (objectAt level [] true, some r) = _
      rw [objectAt, if_pos hkept]
      rfl
    | (k, i) :: rest =>
      refine (readValue_object (head?_membersText k i rest r)).trans ?_
      rw [h.members (Nat.le_of_succ_le_succ hlength) fun e he => by have := hdeep e he; omega, objectAt, if_pos hkept]
      rfl

/-- Items are read one after another, up to the bracket. -/
theorem items_succ (h : Covers fuel) (j : Json) (rest : List Json) (hlength : (itemsText (j :: rest)).length ≤ fuel + 1)
    (hlevel : ∀ i ∈ j :: rest, level + i.nesting ≤ maxNesting) :
    readItems (fuel + 1) level (itemsText (j :: rest) ++ r) = (ofItems (Json.rereadItems (j :: rest)), some r) := by
  have hpos := text_length_pos j
  rw [Json.itemsText_cons, List.length_append] at hlength
  have hrest : 1 ≤ (itemsRest rest).length := by cases rest <;> simp [itemsRest]
  rw [Json.itemsText_cons, List.append_assoc, readItems,
    h.value (by omega) (hlevel j List.mem_cons_self) (Json.ends_itemsRest rest r)]
  cases rest with
  | nil => rfl
  | cons i rest =>
    rw [itemsRest, List.length_cons] at hlength
    show (ofJson j.reread :: (readItems fuel level (itemsText (i :: rest) ++ r)).1,
      (readItems fuel level (itemsText (i :: rest) ++ r)).2) = _
    rw [h.items (by omega) fun i' hi' => hlevel i' (List.mem_cons_of_mem _ hi')]
    rfl

/-- So are members, up to the brace. -/
theorem members_succ (h : Covers fuel) (k : String) (j : Json) (rest : List (String × Json))
    (hlength : (membersText ((k, j) :: rest)).length ≤ fuel + 1) (hlevel : ∀ e ∈ (k, j) :: rest, level + e.2.nesting ≤ maxNesting) :
    readMembers (fuel + 1) level (membersText ((k, j) :: rest) ++ r) =
      (ofMembers (Json.rereadMembers ((k, j) :: rest)), some r) := by
  have hpos := text_length_pos j
  rw [Json.membersText_cons, List.length_append, List.length_cons, List.length_append] at hlength
  have hrest : 1 ≤ (membersRest rest).length := by cases rest <;> simp [membersRest]
  have htext : membersText ((k, j) :: rest) ++ r =
      '"' :: (k.toList.flatMap escape ++ '"' :: ':' :: (j.text ++ (membersRest rest ++ r))) := by
    simp [Json.membersText_cons, quote]
  have hj : readValue fuel level (j.text ++ (membersRest rest ++ r)) = (ofJson j.reread, some (membersRest rest ++ r)) :=
    h.value (by omega) (hlevel (k, j) List.mem_cons_self) (Json.ends_membersRest rest r)
  rw [htext]
  cases rest with
  | nil => exact readMembers_last hj
  | cons e rest =>
    obtain ⟨k', i⟩ := e
    rw [membersRest, List.length_cons] at hlength
    have hmembers : readMembers fuel level (membersText ((k', i) :: rest) ++ r) =
        (ofMembers (Json.rereadMembers ((k', i) :: rest)), some r) :=
      h.members (by omega) fun e he => hlevel e (List.mem_cons_of_mem _ he)
    exact (readMembers_next hj).trans (hmembers ▸ rfl)

end Covers

/-- Any fuel covers the texts that are no longer. -/
theorem covers (fuel : Nat) : Covers fuel := by
  induction fuel with
  | zero =>
    have hempty : ∀ j : Json, ¬ j.text.length ≤ 0 := fun j => Nat.not_le_of_lt (text_length_pos j)
    refine ⟨fun {j _ _} hlength _ _ => absurd hlength (hempty j), fun {j rest _ _} hlength _ => ?_, fun {k j rest _ _} hlength _ => ?_⟩
    · rw [Json.itemsText_cons, List.length_append] at hlength
      exact absurd (Nat.le_of_add_right_le hlength) (hempty j)
    · rw [Json.membersText_cons, List.length_append, List.length_cons] at hlength
      omega
  | succ fuel ih => exact ⟨ih.value_succ _, ih.items_succ _ _, ih.members_succ _ _ _⟩

/-- The compact text of a value that is not nested too deep is read as the document of what the value reads back as. -/
theorem read_compact {j : Json} (h : j.nesting ≤ maxNesting) : read j.compact = (ofJson j.reread, true) := by
  have hread : readValue (2 * j.text.length + 2) 0 (j.text ++ []) = (ofJson j.reread, some []) :=
    (covers _).value (by omega) (by omega) (by simp [Ends])
  rw [List.append_nil] at hread
  simp only [read, Json.compact, String.toList_ofList, hread]
  rfl

end DatabaseBroker.Document
