import DatabaseBroker.Proofs.Json.Spelling

/-!
# Inside and outside of quotes

Reading a text from the left, each place is outside of quotes, inside, or behind a backslash inside. The text of a value leads
from outside to outside, and no slash stands outside or behind a backslash (`walk_text`). So the slash before a value is the
first slash that could be one: a value does not end in a slash and another value (`slash_text_inj`), since reading the other
value from inside, where it would begin, would end inside.
-/

namespace DatabaseBroker.Json

/-- Where a character stands. -/
inductive Place where
  | outside
  | inside
  | marked
deriving DecidableEq

namespace Place

/-- The place behind a character, if the character may stand in a place. -/
def next : Place → Char → Option Place
  | outside, c => if c = '"' then some inside else if c = '\\' ∨ c = '/' then none else some outside
  | inside, c => if c = '"' then some outside else if c = '\\' then some marked else some inside
  | marked, c => if c = '/' then none else some inside

/-- The place behind a row of characters. -/
def walk (p : Place) (l : List Char) : Option Place := l.foldlM next p

theorem walk_cons (p : Place) (c : Char) (l : List Char) : p.walk (c :: l) = (p.next c).bind (·.walk l) := rfl

theorem walk_append (p : Place) (l l' : List Char) : p.walk (l ++ l') = (p.walk l).bind (·.walk l') :=
  List.foldlM_append ..

/-- Rows that lead from outside to outside lead there one after the other. -/
theorem walk_outside_append {l l' : List Char} (h : outside.walk l = some outside) (h' : outside.walk l' = some outside) :
    outside.walk (l ++ l') = some outside := by
  rw [walk_append, h, Option.bind_some, h']

/-! ## The text of a value -/

/-- A character inside quotes leads from inside to inside. -/
theorem walk_escape (c : Char) : inside.walk (escape c) = some inside := by
  have he := escaped c
  generalize escape c = l at he
  cases he with
  | plain hquote hslash => simp [walk, next, hquote, hslash]
  | mark hmark hslash hc => simp [walk, next, hslash]
  | number hlow =>
    have hdigit : ∀ n < 16, Text.Hex.lower n ≠ '"' ∧ Text.Hex.lower n ≠ '\\' := by decide
    have hhigh := hdigit (c.toNat / 16) (by omega)
    have hrem := hdigit (c.toNat % 16) (by omega)
    simp [walk, next, hhigh, hrem]

/-- A text in quotes leads from outside to outside. -/
theorem walk_quote (s : String) : outside.walk (quote s) = some outside := by
  have hbody : ∀ l : List Char, inside.walk (l.flatMap escape) = some inside := by
    intro l
    induction l with
    | nil => rfl
    | cons c rest ih => rw [List.flatMap_cons, walk_append, walk_escape, Option.bind_some, ih]
  have hopen : outside.next '"' = some inside := by decide
  have hclose : inside.walk ['"'] = some outside := by decide
  rw [quote, List.cons_append, walk_cons, hopen, Option.bind_some, walk_append, hbody, Option.bind_some, hclose]

/-- A number leads from outside to outside. -/
theorem walk_numberText (n : JsonNumber) : outside.walk (numberText n) = some outside := by
  have hstay : ∀ l : List Char, (∀ c ∈ l, NumberChar c) → outside.walk l = some outside := by
    intro l hl
    induction l with
    | nil => rfl
    | cons c rest ih =>
      have hc : outside.next c = some outside := by
        rcases hl c (List.mem_cons_self ..) with hdigit | rfl | rfl | rfl
        · have hne : ∀ d : Char, d.isDigit = false → c ≠ d := by
            rintro d hd rfl
            rw [hdigit] at hd
            cases hd
          simp [next, hne]
        · decide
        · decide
        · decide
      rw [walk_cons, hc, Option.bind_some, ih fun d hd => hl d (List.mem_cons_of_mem _ hd)]
  exact hstay _ fun c hc => numberText_chars hc

mutual

/-- The text of a value leads from outside to outside. -/
theorem walk_text (j : Json) : outside.walk j.text = some outside := by
  cases j with
  | null => decide
  | bool b => cases b <;> decide
  | number n => exact walk_numberText n
  | string s => exact walk_quote s
  | array items => exact walk_outside_append (l := ['[']) (by decide) (walk_itemsText items)
  | object members => exact walk_outside_append (l := ['\x7b']) (by decide) (walk_membersText members)

/-- So does the rest of an array. -/
theorem walk_itemsText (l : List Json) : outside.walk (itemsText l) = some outside := by
  match l with
  | [] => decide
  | [j] => exact walk_outside_append (walk_text j) (by decide)
  | j :: j' :: rest =>
    exact walk_outside_append (walk_text j) (walk_outside_append (l := [',']) (by decide) (walk_itemsText (j' :: rest)))

/-- So does the rest of an object. -/
theorem walk_membersText (l : List (String × Json)) : outside.walk (membersText l) = some outside := by
  match l with
  | [] => decide
  | (k, j) :: rest =>
    rw [membersText_cons]
    refine walk_outside_append (walk_quote k) (walk_outside_append (l := [':']) (by decide) ?_)
    refine walk_outside_append (walk_text j) ?_
    match rest with
    | [] => decide
    | e :: rest => exact walk_outside_append (l := [',']) (by decide) (walk_membersText (e :: rest))

end

/-! ## A slash before a value -/

/-- Of two places one is inside and the other outside. -/
def Opposite (p q : Place) : Prop := (p = outside ∧ q = inside) ∨ (p = inside ∧ q = outside)

/-- Where no backslash may stand outside, readings from opposite places stay opposite. -/
theorem opposite_walk {l : List Char} {p q p' q' : Place} (h : Opposite p q) (hp : p.walk l = some p')
    (hq : q.walk l = some q') : Opposite p' q' := by
  induction l generalizing p q with
  | nil =>
    cases hp
    cases hq
    exact h
  | cons c rest ih =>
    rw [walk_cons] at hp hq
    obtain ⟨p₁, hp₁, hp⟩ := Option.bind_eq_some_iff.mp hp
    obtain ⟨q₁, hq₁, hq⟩ := Option.bind_eq_some_iff.mp hq
    refine ih ?_ hp hq
    have hstep : ∀ {p q : Place}, outside.next c = some p → inside.next c = some q → Opposite p q := by
      intro p q hp hq
      simp only [next] at hp hq
      grind [Opposite]
    rcases h with ⟨rfl, rfl⟩ | ⟨rfl, rfl⟩
    · exact hstep hp₁ hq₁
    · rcases hstep hq₁ hp₁ with h | h
      · exact Or.inr h.symm
      · exact Or.inl h.symm

/-- A value does not end in a slash and another value. -/
theorem text_ne_append_slash (j j' : Json) (l : List Char) : j.text ≠ l ++ '/' :: j'.text := by
  intro h
  have hwalk := walk_text j
  rw [h, walk_append] at hwalk
  obtain ⟨p, -, hp⟩ := Option.bind_eq_some_iff.mp hwalk
  rw [walk_cons] at hp
  obtain ⟨q, hslash, hq⟩ := Option.bind_eq_some_iff.mp hp
  have hinside : q = inside := by
    cases p <;> simp [next] at hslash
    exact hslash.symm
  subst hinside
  rcases opposite_walk (Or.inl ⟨rfl, rfl⟩) (walk_text j') hq with ⟨-, h⟩ | ⟨h, -⟩
  · cases h
  · cases h

end Place

/-- What stands before a slash and a value, and the text of the value, are told by the whole. -/
theorem slash_text_inj {l l' : List Char} {j j' : Json} (h : l ++ '/' :: j.text = l' ++ '/' :: j'.text) :
    l = l' ∧ j.text = j'.text := by
  have hsuffix : ∀ {j j' : Json} {l : List Char}, '/' :: j.text = l ++ '/' :: j'.text → l = [] := by
    intro j j' l h
    cases l with
    | nil => rfl
    | cons c rest => exact absurd (List.cons.inj h).2 (Place.text_ne_append_slash j j' rest)
  rcases List.append_eq_append_iff.mp h with ⟨rest, rfl, hrest⟩ | ⟨rest, rfl, hrest⟩
  · obtain rfl := hsuffix hrest
    exact ⟨(List.append_nil l).symm, (List.cons.inj hrest).2⟩
  · obtain rfl := hsuffix hrest
    exact ⟨List.append_nil l', (List.cons.inj hrest).2.symm⟩

end DatabaseBroker.Json
