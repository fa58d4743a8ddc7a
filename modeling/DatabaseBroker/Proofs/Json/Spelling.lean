import DatabaseBroker.Json.Printer
import DatabaseBroker.Text.Numeral
import Mathlib.Data.List.Basic

/-!
# The text of a value tells the value

A value is read off the front of a text in one way only: when two values with something behind them are the same text, they
are spelled alike and the same stands behind them (`text_append_inj`). `Alike` compares everything but numbers as it is, and
numbers by their text.
-/

namespace DatabaseBroker.Json

/-! ## Quoted text -/

/-- Different small numbers have different digits. -/
theorem lower_injective {m n : Nat} (hm : m < 16) (hn : n < 16) (h : Text.Hex.lower m = Text.Hex.lower n) : m = n := by
  have := congrArg Text.Hex.value? h
  rwa [Text.Hex.value?_lower hm, Text.Hex.value?_lower hn, Option.some.injEq] at this

/-- The character that a mark after a backslash stands for. -/
def marked (d : Char) : Char :=
  if d = 'b' then '\x08' else if d = 'f' then '\x0c' else if d = 'n' then '\n' else if d = 'r' then '\r'
  else if d = 't' then '\t' else d

/-- How a character is written inside quotes: as itself, by a mark behind a backslash, or by its number. -/
inductive Escaped (c : Char) : List Char → Prop where
  | plain (hquote : c ≠ '"') (hslash : c ≠ '\\') : Escaped c [c]
  | mark {d : Char} (hmark : d ≠ 'u') (hslash : d ≠ '/') (hc : marked d = c) : Escaped c ['\\', d]
  | number (hlow : c.toNat < 32) :
      Escaped c ['\\', 'u', '0', '0', Text.Hex.lower (c.toNat / 16), Text.Hex.lower (c.toNat % 16)]

/-- Every character is written in one of these ways. -/
theorem escaped (c : Char) : Escaped c (escape c) := by
  unfold escape
  split
  · exact .mark (by decide) (by decide) (by subst c; decide)
  split
  · exact .mark (by decide) (by decide) (by subst c; decide)
  split
  · exact .mark (by decide) (by decide) (by subst c; decide)
  split
  · exact .mark (by decide) (by decide) (by subst c; decide)
  split
  · exact .mark (by decide) (by decide) (by subst c; decide)
  split
  · exact .mark (by decide) (by decide) (by subst c; decide)
  split
  · exact .mark (by decide) (by decide) (by subst c; decide)
  split
  · exact .number (by assumption)
  · exact .plain (by assumption) (by assumption)

/-- A character is read off the front of quoted text in one way. -/
theorem escape_append_inj {c c' : Char} {r r' : List Char} (h : escape c ++ r = escape c' ++ r') : c = c' ∧ r = r' := by
  have he := escaped c
  have he' := escaped c'
  revert h
  generalize escape c = l at he
  generalize escape c' = l' at he'
  intro h
  cases he with
  | plain hquote hslash =>
    cases he' with
    | plain hquote' hslash' => simpa using h
    | mark => simp [hslash] at h
    | number => simp [hslash] at h
  | mark hmark hmarkslash hc =>
    cases he' with
    | plain hquote' hslash' => simp [Ne.symm hslash'] at h
    | mark hmark' hmarkslash' hc' =>
      simp only [List.cons_append, List.nil_append, List.cons.injEq, true_and] at h
      exact ⟨by rw [← hc, ← hc', h.1], h.2⟩
    | number => simp [hmark] at h
  | number hlow =>
    cases he' with
    | plain hquote' hslash' => simp [Ne.symm hslash'] at h
    | mark hmark' _ _ => simp [Ne.symm hmark'] at h
    | number hlow' =>
      simp only [List.cons_append, List.nil_append, List.cons.injEq, true_and] at h
      obtain ⟨hhigh, hrest⟩ := h
      have hhigh := lower_injective (by omega) (by omega) hhigh
      have hrem := lower_injective (by omega) (by omega) hrest.1
      have hnat : c.toNat = c'.toNat := by omega
      exact ⟨Char.toNat_inj.mp hnat, hrest.2⟩

/-- A text in quotes is read off the front in one way. -/
theorem quote_append_inj {s s' : String} {r r' : List Char} (h : quote s ++ r = quote s' ++ r') : s = s' ∧ r = r' := by
  have hbody : ∀ (l l' : List Char), l.flatMap escape ++ '"' :: r = l'.flatMap escape ++ '"' :: r' → l = l' ∧ r = r' := by
    intro l
    induction l with
    | nil =>
      intro l' h
      cases l' with
      | nil => simpa using h
      | cons c' rest' =>
        have he := escaped c'
        simp only [List.flatMap_cons, List.flatMap_nil, List.nil_append, List.append_assoc] at h
        generalize escape c' = e at h he
        cases he with
        | plain hquote => exact absurd (List.cons.inj h).1.symm hquote
        | mark => cases h
        | number => cases h
    | cons c rest ih =>
      intro l' h
      cases l' with
      | nil =>
        have he := escaped c
        simp only [List.flatMap_cons, List.flatMap_nil, List.nil_append, List.append_assoc] at h
        generalize escape c = e at h he
        cases he with
        | plain hquote => exact absurd (List.cons.inj h).1 hquote
        | mark => cases h
        | number => cases h
      | cons c' rest' =>
        simp only [List.flatMap_cons, List.append_assoc] at h
        obtain ⟨rfl, hrest⟩ := escape_append_inj h
        obtain ⟨rfl, hr⟩ := ih rest' hrest
        exact ⟨rfl, hr⟩
  simp only [quote, List.cons_append, List.append_assoc, List.cons.injEq, true_and] at h
  obtain ⟨hs, hr⟩ := hbody _ _ h
  exact ⟨String.toList_inj.mp hs, hr⟩
/-! ## Numbers -/

/-- A character that a number is made of. -/
def NumberChar (c : Char) : Prop := c.isDigit = true ∨ c = '-' ∨ c = '.' ∨ c = 'e'

/-- Natural numbers are made of digits. -/
theorem numberChar_toDigits {n : Nat} {c : Char} (h : c ∈ Nat.toDigits 10 n) : NumberChar c :=
  Or.inl (List.all_eq_true.mp (Text.Numeral.digits_and_value_ofNat n).1 c h)

/-- Whole numbers are made of digits and a sign. -/
theorem numberChar_toString {n : Int} {c : Char} (h : c ∈ (toString n).toList) : NumberChar c := by
  cases n with
  | ofNat n =>
    have h : c ∈ (Nat.repr n).toList := h
    simp only [Nat.repr, String.toList_ofList] at h
    exact numberChar_toDigits h
  | negSucc n =>
    have h : c ∈ ("-" ++ Nat.repr (n + 1)).toList := h
    simp only [String.toList_append, List.mem_append, Nat.repr, String.toList_ofList] at h
    rcases h with h | h
    · exact Or.inr (Or.inl (by simpa using h))
    · exact numberChar_toDigits h

/-- Decimals are made of digits, a point, an exponent and its sign. -/
theorem numberChar_decimalText {d : Decimal} {c : Char} (h : c ∈ decimalText d) : NumberChar c := by
  have hzero : NumberChar '0' := Or.inl (by decide)
  have hpoint : NumberChar '.' := Or.inr (Or.inr (Or.inl rfl))
  have hdigits : ∀ c ∈ Nat.toDigits 10 d.significand, NumberChar c := fun c h => numberChar_toDigits h
  have hexp : ∀ (n : Int), ∀ c ∈ 'e' :: (toString n).toList, NumberChar c := by
    intro n c h
    rcases List.mem_cons.mp h with rfl | h
    · exact Or.inr (Or.inr (Or.inr rfl))
    · exact numberChar_toString h
  unfold decimalText at h
  dsimp only at h
  split at h
  · simp only [List.mem_append, List.mem_replicate, List.mem_cons, List.not_mem_nil, or_false] at h
    rcases h with (h | ⟨-, rfl⟩) | rfl | rfl
    · exact hdigits c h
    · exact hzero
    · exact hpoint
    · exact hzero
  split at h
  · simp only [List.mem_append, List.mem_cons] at h
    rcases h with h | rfl | h
    · exact hdigits c (List.mem_of_mem_take h)
    · exact hpoint
    · exact hdigits c (List.mem_of_mem_drop h)
  split at h
  · simp only [List.mem_append, List.mem_replicate, List.mem_cons] at h
    rcases h with (rfl | rfl | ⟨-, rfl⟩) | h
    · exact hzero
    · exact hpoint
    · exact hzero
    · exact hdigits c h
  · generalize Nat.toDigits 10 d.significand = digits at h hdigits
    split at h
    · rcases List.mem_cons.mp h with rfl | h
      · exact hdigits c (by simp)
      · exact hexp _ c h
    · simp only [List.cons_append, List.mem_cons, List.mem_append] at h
      rcases h with rfl | rfl | h | h
      · exact hdigits c (by simp)
      · exact hpoint
      · exact hdigits c (by simp [h])
      · exact hexp _ c (List.mem_cons.mpr h)
    · exact hexp _ c h

/-- A decimal is not written as nothing. -/
theorem decimalText_ne_nil (d : Decimal) : decimalText d ≠ [] := by
  unfold decimalText
  dsimp only
  split
  · simp
  split
  · simp
  split
  · simp
  · split <;> simp

/-- Numbers are made of their characters only. -/
theorem numberText_chars {n : JsonNumber} {c : Char} (h : c ∈ numberText n) : NumberChar c := by
  have hminus : NumberChar '-' := Or.inr (Or.inl rfl)
  cases n with
  | integer n _ =>
    cases n with
    | ofNat n => exact numberChar_toDigits h
    | negSucc n =>
      rcases List.mem_cons.mp h with rfl | h
      · exact hminus
      · exact numberChar_toDigits h
  | float x =>
    simp only [numberText, floatText] at h
    split at h
    · rcases List.mem_cons.mp h with rfl | h
      · exact hminus
      · exact numberChar_decimalText h
    · exact numberChar_decimalText h

/-- A number is not written as nothing. -/
theorem numberText_ne_nil (n : JsonNumber) : numberText n ≠ [] := by
  cases n with
  | integer n _ =>
    cases n with
    | ofNat n => exact Text.Numeral.ofNat_ne_nil n
    | negSucc n => exact List.cons_ne_nil _ _
  | float x =>
    simp only [numberText, floatText]
    split
    · exact List.cons_ne_nil _ _
    · exact decimalText_ne_nil _


/-! ## Values -/

mutual

/-- Two values that are spelled alike: the same but for numbers, which have the same text. -/
def Alike : Json → Json → Prop
  | null, null => True
  | bool a, bool b => a = b
  | number m, number n => numberText m = numberText n
  | string s, string t => s = t
  | array items, array items' => AlikeItems items items'
  | object members, object members' => AlikeMembers members members'
  | _, _ => False

/-- `Alike` item by item. -/
def AlikeItems : List Json → List Json → Prop
  | [], [] => True
  | j :: rest, j' :: rest' => Alike j j' ∧ AlikeItems rest rest'
  | _, _ => False

/-- `Alike` member by member, with equal keys. -/
def AlikeMembers : List (String × Json) → List (String × Json) → Prop
  | [], [] => True
  | (k, j) :: rest, (k', j') :: rest' => k = k' ∧ Alike j j' ∧ AlikeMembers rest rest'
  | _, _ => False

end

/-- The end of a value: the end of the text, or what stands after an item or a member. -/
def Ends (r : List Char) : Prop := ∀ c ∈ r.head?, c = ',' ∨ c = ']' ∨ c = '\x7d'

/-- The kind of a value. -/
inductive Kind where
  | null | bool | number | string | array | object
deriving DecidableEq

/-- The kind of a value. -/
def kind : Json → Kind
  | .null => .null
  | .bool _ => .bool
  | .number _ => .number
  | .string _ => .string
  | .array _ => .array
  | .object _ => .object

/-- The kind that the first character of a value tells. -/
def kindOf? (c : Char) : Option Kind :=
  if c = 'n' then some .null else if c = 't' ∨ c = 'f' then some .bool else if c = '"' then some .string
  else if c = '[' then some .array else if c = '\x7b' then some .object
  else if c = ',' ∨ c = ']' ∨ c = '\x7d' then none else some .number

/-- A character of a number tells a number. -/
theorem kindOf?_numberChar {c : Char} (h : NumberChar c) : kindOf? c = some .number := by
  rcases h with h | rfl | rfl | rfl
  · have hne : ∀ d : Char, d.isDigit = false → c ≠ d := by
      rintro d hd rfl
      rw [h] at hd
      cases hd
    simp [kindOf?, hne]
  · decide
  · decide
  · decide

/-- The first character of a value tells its kind. -/
theorem kindOf?_text (j : Json) : ∃ c rest, j.text = c :: rest ∧ kindOf? c = some j.kind := by
  cases j with
  | null => exact ⟨_, _, rfl, by decide⟩
  | bool b => cases b <;> exact ⟨_, _, rfl, by decide⟩
  | number n =>
    obtain ⟨c, rest, h⟩ := List.exists_cons_of_ne_nil (numberText_ne_nil n)
    exact ⟨c, rest, h, kindOf?_numberChar (numberText_chars (h ▸ List.mem_cons_self ..))⟩
  | string s => exact ⟨_, _, rfl, rfl⟩
  | array items => exact ⟨_, _, rfl, rfl⟩
  | object members => exact ⟨_, _, rfl, rfl⟩

/-- Values that are the front of one text are of one kind. -/
theorem kind_eq_of_text {j j' : Json} {r r' : List Char} (h : j.text ++ r = j'.text ++ r') : j.kind = j'.kind := by
  obtain ⟨c, rest, hj, hc⟩ := kindOf?_text j
  obtain ⟨c', rest', hj', hc'⟩ := kindOf?_text j'
  rw [hj, hj', List.cons_append, List.cons_append, List.cons.injEq] at h
  rw [h.1, hc'] at hc
  exact (Option.some.inj hc).symm

/-- What ends a value is no part of a number. -/
theorem not_numberChar_of_ends {r : List Char} (h : Ends r) {c : Char} (hc : c ∈ r.head?) : ¬ NumberChar c := by
  intro hn
  have hkind := kindOf?_numberChar hn
  rcases h c hc with rfl | rfl | rfl <;> exact absurd hkind (by decide)

/-- Two rows of characters of one class, with others behind them, are the same when the whole is. -/
theorem span_inj {p : Char → Prop} {l l' r r' : List Char} (hl : ∀ c ∈ l, p c) (hl' : ∀ c ∈ l', p c)
    (hr : ∀ c ∈ r.head?, ¬ p c) (hr' : ∀ c ∈ r'.head?, ¬ p c) (h : l ++ r = l' ++ r') : l = l' ∧ r = r' := by
  induction l generalizing l' with
  | nil =>
    cases l' with
    | nil => exact ⟨rfl, h⟩
    | cons c' rest' =>
      rw [List.nil_append, List.cons_append] at h
      exact absurd (hl' c' (List.mem_cons_self ..)) (hr c' (by rw [h]; rfl))
  | cons c rest ih =>
    cases l' with
    | nil =>
      rw [List.nil_append, List.cons_append] at h
      exact absurd (hl c (List.mem_cons_self ..)) (hr' c (by rw [← h]; rfl))
    | cons c' rest' =>
      rw [List.cons_append, List.cons_append, List.cons.injEq] at h
      obtain ⟨rfl, h⟩ := h
      obtain ⟨rfl, hr⟩ := ih (fun d hd => hl d (List.mem_cons_of_mem _ hd)) (fun d hd => hl' d (List.mem_cons_of_mem _ hd)) h
      exact ⟨rfl, hr⟩

/-- What follows an item. -/
def itemsRest : List Json → List Char
  | [] => [']']
  | j :: rest => ',' :: itemsText (j :: rest)

/-- What follows a member. -/
def membersRest : List (String × Json) → List Char
  | [] => ['\x7d']
  | e :: rest => ',' :: membersText (e :: rest)

theorem itemsText_cons (j : Json) (rest : List Json) : itemsText (j :: rest) = j.text ++ itemsRest rest := by
  cases rest <;> rfl

theorem membersText_cons (k : String) (j : Json) (rest : List (String × Json)) :
    membersText ((k, j) :: rest) = quote k ++ ':' :: (j.text ++ membersRest rest) := by
  cases rest <;> simp [membersText, membersRest]

theorem ends_itemsRest (l : List Json) (r : List Char) : Ends (itemsRest l ++ r) := by
  cases l <;> simp [Ends, itemsRest]

theorem ends_membersRest (l : List (String × Json)) (r : List Char) : Ends (membersRest l ++ r) := by
  cases l <;> simp [Ends, membersRest]

/-- An array with items does not end at once. -/
theorem itemsText_cons_ne (j : Json) (rest : List Json) (r r' : List Char) :
    itemsText (j :: rest) ++ r ≠ ']' :: r' := by
  intro h
  obtain ⟨c, l, hj, hc⟩ := kindOf?_text j
  rw [itemsText_cons, hj] at h
  have hnone : kindOf? ']' = none := by decide
  rw [(List.cons.inj h).1, hnone] at hc
  cases hc

/-! ## Reading off the front -/

mutual

/-- A value is read off the front of a text in one way. -/
theorem text_append_inj (j j' : Json) {r r' : List Char} (hr : Ends r) (hr' : Ends r')
    (h : j.text ++ r = j'.text ++ r') : j.Alike j' ∧ r = r' := by
  have hkind := kind_eq_of_text h
  cases j with
  | null =>
    cases j' with
    | null => exact ⟨trivial, (List.append_right_inj _).mp h⟩
    | _ => cases hkind
  | bool b =>
    cases j' with
    | bool b' => cases b <;> cases b' <;> simp_all [text, Alike]
    | _ => cases hkind
  | number n =>
    cases j' with
    | number n' =>
      exact span_inj (fun _ hc => numberText_chars hc) (fun _ hc => numberText_chars hc)
        (fun _ hc => not_numberChar_of_ends hr hc) (fun _ hc => not_numberChar_of_ends hr' hc) h
    | _ => cases hkind
  | string s =>
    cases j' with
    | string s' => exact quote_append_inj h
    | _ => cases hkind
  | array items =>
    cases j' with
    | array items' => exact itemsText_append_inj items items' (List.cons.inj h).2
    | _ => cases hkind
  | object members =>
    cases j' with
    | object members' => exact membersText_append_inj members members' (List.cons.inj h).2
    | _ => cases hkind

/-- The rest of an array is read off in one way. -/
theorem itemsText_append_inj (l l' : List Json) {r r' : List Char} (h : itemsText l ++ r = itemsText l' ++ r') :
    AlikeItems l l' ∧ r = r' := by
  match l, l' with
  | [], [] => exact ⟨trivial, (List.cons.inj h).2⟩
  | [], j' :: rest' => exact absurd h.symm (itemsText_cons_ne j' rest' r' r)
  | j :: rest, [] => exact absurd h (itemsText_cons_ne j rest r r')
  | j :: rest, j' :: rest' =>
    rw [itemsText_cons, itemsText_cons, List.append_assoc, List.append_assoc] at h
    obtain ⟨hj, hrest⟩ := text_append_inj j j' (ends_itemsRest rest r) (ends_itemsRest rest' r') h
    match rest, rest' with
    | [], [] => exact ⟨⟨hj, trivial⟩, (List.cons.inj hrest).2⟩
    | [], _ :: _ => simp [itemsRest] at hrest
    | _ :: _, [] => simp [itemsRest] at hrest
    | a :: rest, a' :: rest' =>
      obtain ⟨ha, hr⟩ := itemsText_append_inj (a :: rest) (a' :: rest') (List.cons.inj hrest).2
      exact ⟨⟨hj, ha⟩, hr⟩

/-- The rest of an object is read off in one way. -/
theorem membersText_append_inj (l l' : List (String × Json)) {r r' : List Char}
    (h : membersText l ++ r = membersText l' ++ r') : AlikeMembers l l' ∧ r = r' := by
  match l, l' with
  | [], [] => exact ⟨trivial, (List.cons.inj h).2⟩
  | [], (k', j') :: rest' =>
    rw [membersText_cons] at h
    exact absurd (List.cons.inj h).1 (by decide)
  | (k, j) :: rest, [] =>
    rw [membersText_cons] at h
    exact absurd (List.cons.inj h).1 (by decide)
  | (k, j) :: rest, (k', j') :: rest' =>
    rw [membersText_cons, membersText_cons] at h
    rw [List.append_assoc, List.append_assoc] at h
    obtain ⟨hk, hvalue⟩ := quote_append_inj h
    subst hk
    rw [List.cons_append, List.cons_append, List.append_assoc, List.append_assoc] at hvalue
    obtain ⟨hj, hrest⟩ :=
      text_append_inj j j' (ends_membersRest rest r) (ends_membersRest rest' r') (List.cons.inj hvalue).2
    match rest, rest' with
    | [], [] => exact ⟨⟨rfl, hj, trivial⟩, (List.cons.inj hrest).2⟩
    | [], _ :: _ => simp [membersRest] at hrest
    | _ :: _, [] => simp [membersRest] at hrest
    | a :: rest, a' :: rest' =>
      obtain ⟨ha, hr⟩ := membersText_append_inj (a :: rest) (a' :: rest') (List.cons.inj hrest).2
      exact ⟨⟨rfl, hj, ha⟩, hr⟩

end

end DatabaseBroker.Json
