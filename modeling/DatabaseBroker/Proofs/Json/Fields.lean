import DatabaseBroker.Json.Decoder
import DatabaseBroker.Proofs.Json.Nesting
import Mathlib.Data.List.Forall2

/-!
# Decoding what was encoded

`Decoder.Reads` says what a decoder takes the document of a value for. A record is written as an object of its fields:
`Fields.Writes` says that members are those of a record, field by field in declaration order, and such an object is decoded as the
record (`Fields.Writes.reads`), whatever order its keys come in. In the other direction, a record that is decoded is built from
parts that stand inside its document (`Fields.build_of_decode`), and so are lists and maps (`Decoder.From`).
-/

namespace DatabaseBroker

variable {α β : Type}

/-! ## Decoders -/

namespace Decoder

/-- The decoder takes the document of a value for `a`. -/
def Reads (decode : Decoder α) (j : Json) (a : α) : Prop := decode (Document.ofJson j) = .ok a

theorem reads_string (s : String) : string.Reads (.string s) s := rfl

theorem reads_bool (b : Bool) : bool.Reads (.bool b) b := rfl

theorem reads_uint64 (n : UInt64) : uint64.Reads (.ofUInt64 n) n := by
  simp [Reads, Json.ofUInt64, Document.ofJson, uint64, nat, bind, Except.bind, n.toNat_lt_size]

theorem reads_uint32 (n : UInt32) : uint32.Reads (.ofUInt32 n) n := by
  simp [Reads, Json.ofUInt32, Json.ofUInt64, Document.ofJson, uint32, nat, bind, Except.bind, n.toNat_lt_size]

theorem reads_uint16 (n : UInt16) : uint16.Reads (.ofUInt16 n) n := by
  simp [Reads, Json.ofUInt16, Json.ofUInt64, Document.ofJson, uint16, nat, bind, Except.bind, n.toNat_lt_size]

/-- Any value is read as itself. -/
theorem reads_value {j : Json} (h : j.Denoted) : value.Reads j j := by
  simp only [Reads, value, show (Document.ofJson j).toJson? = some j from h]

theorem reads_variant {ofName : String → Option α} {s : String} {a : α} (h : ofName s = some a) :
    (variant ofName).Reads (.string s) a := by
  simp only [Reads, Document.ofJson, variant, h]

/-- A value that may be absent, which is never written as null when it is there. -/
theorem reads_ofOption {decode : Decoder α} {f : α → Json} (hnull : ∀ a, f a ≠ .null) {o : Option α}
    (h : ∀ a ∈ o, decode.Reads (f a) a) : (nullable decode).Reads (.ofOption f o) o := by
  cases o with
  | none => rfl
  | some a =>
    have ha : decode (Document.ofJson (f a)) = .ok a := h a rfl
    have hsome : nullable decode (Document.ofJson (f a)) = (decode (Document.ofJson (f a))).map some := by
      unfold nullable
      split
      · rename_i heq
        cases hfa : f a <;> simp_all [Document.ofJson]
      · rfl
    simp only [Reads, Json.ofOption, hsome, ha, Except.map]

theorem mapM_ofItems {decode : Decoder α} {f : α → Json} {l : List α} (h : ∀ a ∈ l, decode.Reads (f a) a) :
    (Document.ofItems (l.map f)).mapM decode = .ok l := by
  induction l with
  | nil => rfl
  | cons a rest ih =>
    have ha : decode (Document.ofJson (f a)) = .ok a := h a List.mem_cons_self
    have hrest := ih fun b hb => h b (List.mem_cons_of_mem _ hb)
    simp only [List.map_cons, Document.ofItems, List.mapM_cons, ha, hrest]
    rfl

/-- A list is read item by item. -/
theorem reads_ofList {decode : Decoder α} {f : α → Json} {l : List α} (h : ∀ a ∈ l, decode.Reads (f a) a) :
    (list decode).Reads (.ofList f l) l := by
  simp only [Reads, Json.ofList, Document.ofJson, list, mapM_ofItems h]
  rfl

theorem mapM_ofMembers {decode : Decoder α} {f : α → Json} {l : List (String × α)} (h : ∀ e ∈ l, decode.Reads (f e.2) e.2) :
    (Document.ofMembers (l.map fun e => (e.1, f e.2))).mapM (fun (k, d) => (decode d).map (k, ·)) = .ok l := by
  induction l with
  | nil => rfl
  | cons e rest ih =>
    have he : decode (Document.ofJson (f e.2)) = .ok e.2 := h e List.mem_cons_self
    have hrest := ih fun e' he' => h e' (List.mem_cons_of_mem _ he')
    simp only [List.map_cons, Document.ofMembers, List.mapM_cons, he, hrest]
    rfl

/-- A map is read value by value. -/
theorem reads_ofMap {decode : Decoder α} {f : α → Json} {m : KeyMap α} (h : ∀ e ∈ m.entries, decode.Reads (f e.2) e.2) :
    (map decode).Reads (.ofMap (m.mapValues f)) m := by
  simp only [Reads, Json.ofMap, KeyMap.mapValues, Document.ofJson, map, mapM_ofMembers h]
  exact congrArg Except.ok m.ofList_entries

end Decoder

/-! ## Records that are written -/

namespace Fields

variable {fields : Fields α} {members : List (String × Json)}

/-- The members are those that a record is written as, in declaration order. -/
structure Writes (fields : Fields α) (members : List (String × Json)) (a : α) : Prop where
  /-- Each field has its member, and the member passes the check of the field. -/
  checks : List.Forall₂ (fun check member => check.1 = member.1 ∧ check.2 (Document.ofJson member.2) = .ok ())
    fields.checks members
  /-- Wherever the members stand, they make the record. -/
  build : ∀ slots : String → Slot, (∀ e ∈ members, slots e.1 = .present (Document.ofJson e.2)) → fields.build slots = .ok a

namespace Writes

/-- A field is written as one member. -/
theorem field {name : String} {decode : Decoder α} {absent : Slot → Except Fault α} {j : Json} {a : α} (h : decode.Reads j a) :
    (Fields.field name decode absent).Writes [(name, j)] a where
  checks := .cons ⟨rfl, congrArg (Except.map fun _ => ()) h⟩ .nil
  build slots hslots := by
    simp only [Fields.field, hslots (name, j) List.mem_cons_self]
    exact h

/-- The fields of a record are written one after another. -/
theorem seq {f : Fields (α → β)} {x : Fields α} {members' : List (String × Json)} {g : α → β} {a : α}
    (hf : f.Writes members g) (hx : x.Writes members' a) : (f <*> x).Writes (members ++ members') (g a) where
  checks := List.rel_append hf.checks hx.checks
  build slots hslots := by
    have hg := hf.build slots fun e he => hslots e (List.mem_append_left _ he)
    have ha := hx.build slots fun e he => hslots e (List.mem_append_right _ he)
    show (do let g ← f.build slots; let a ← x.build slots; Except.ok (g a)) = _
    rw [hg, ha]
    rfl

theorem map {x : Fields α} {a : α} (hx : x.Writes members a) (g : α → β) : (g <$> x).Writes members (g a) :=
  seq (f := pure g) ⟨.nil, fun _ _ => rfl⟩ hx

/-- The check of the field that a member is for. -/
theorem find?_checks {checks : List (String × Decoder Unit)}
    (h : List.Forall₂ (fun check member => check.1 = member.1 ∧ check.2 (Document.ofJson member.2) = .ok ()) checks members)
    (hnodup : (members.map (·.1)).Nodup) {e : String × Json} (he : e ∈ members) :
    ∃ check, checks.find? (·.1 = e.1) = some (e.1, check) ∧ check (Document.ofJson e.2) = .ok () := by
  induction h with
  | nil => cases he
  | @cons c member checks members hhead htail ih =>
    obtain ⟨name, check⟩ := c
    obtain ⟨rfl, hcheck⟩ := hhead
    rw [List.map_cons, List.nodup_cons] at hnodup
    rcases List.mem_cons.mp he with rfl | he
    · exact ⟨check, by simp, hcheck⟩
    · obtain ⟨check', hfind, hcheck'⟩ := ih hnodup.2 he
      have hne : member.1 ≠ e.1 := fun heq => hnodup.1 (heq ▸ List.mem_map_of_mem he)
      exact ⟨check', by simpa [hne] using hfind, hcheck'⟩

/-- Members that each pass the check of a field, no two of them of one name, pass together. -/
theorem checkMembers_ofMembers {checks : List (String × Decoder Unit)} {l : List (String × Json)} {seen : List String}
    (hnodup : (l.map (·.1)).Nodup) (hseen : ∀ e ∈ l, e.1 ∉ seen)
    (h : ∀ e ∈ l, ∃ check, checks.find? (·.1 = e.1) = some (e.1, check) ∧ check (Document.ofJson e.2) = .ok ()) :
    checkMembers checks seen (Document.ofMembers l) = .ok () := by
  induction l generalizing seen with
  | nil => rfl
  | cons e rest ih =>
    obtain ⟨check, hfind, hcheck⟩ := h e List.mem_cons_self
    rw [List.map_cons, List.nodup_cons] at hnodup
    have hfirst : seen.contains e.1 = false := by simpa using hseen e List.mem_cons_self
    simp only [Document.ofMembers, checkMembers, hfind, hfirst, hcheck, Bool.false_eq_true, if_false]
    refine ih hnodup.2 (fun e' he' hmem => ?_) fun e' he' => h e' (List.mem_cons_of_mem _ he')
    rcases List.mem_cons.mp hmem with heq | hmem
    · exact hnodup.1 (heq ▸ List.mem_map_of_mem he')
    · exact hseen e' (List.mem_cons_of_mem _ he') hmem

/-- The member of an object for a field, where no two members are of one name. -/
theorem memberSlot_ofMembers {l : List (String × Json)} (hnodup : (l.map (·.1)).Nodup) {e : String × Json} (he : e ∈ l) :
    memberSlot (Document.ofMembers l) e.1 = .present (Document.ofJson e.2) := by
  have hfind : l.find? (·.1 = e.1) = some e := by
    induction l with
    | nil => cases he
    | cons first rest ih =>
      rw [List.map_cons, List.nodup_cons] at hnodup
      rcases List.mem_cons.mp he with rfl | he
      · simp
      · have hne : first.1 ≠ e.1 := fun heq => hnodup.1 (heq ▸ List.mem_map_of_mem he)
        simpa [hne] using ih hnodup.2 he
  rw [memberSlot, Document.ofMembers_eq_map, List.find?_map]
  simp only [Function.comp_def, hfind, Option.map_some]

/-- The members stand under the names of the fields. -/
theorem names {a : α} (h : fields.Writes members a) : members.map (·.1) = fields.checks.map (·.1) := by
  refine (List.forall₂_eq_eq_eq ▸ List.forall₂_map_left_iff.mpr (List.forall₂_map_right_iff.mpr ?_)).symm
  exact h.checks.imp fun _ _ hname => hname.1

/-- An object of the members of a record, in whatever order, is decoded as the record, where no two fields are of one name. -/
theorem decodeWith_members {a : α} (h : fields.Writes members a) (hnodup : (fields.checks.map (·.1)).Nodup) (surplus : Bool)
    {l : List (String × Json)} (hl : (l.map (·.1)).Nodup) (hsame : ∀ e, e ∈ l ↔ e ∈ members) :
    fields.decodeWith surplus (.object (Document.ofMembers l) true) = .ok a := by
  rw [← h.names] at hnodup
  have hcheck : checkMembers fields.checks [] (Document.ofMembers l) = .ok () :=
    checkMembers_ofMembers hl (by simp) fun e he => find?_checks h.checks hnodup ((hsame e).mp he)
  have hbuild := h.build (memberSlot (Document.ofMembers l)) fun e he => memberSlot_ofMembers hl ((hsame e).mpr he)
  simp only [decodeWith, hcheck, bind, Except.bind]
  exact hbuild

/-- The object of a record is decoded as the record, where no two fields are of one name. -/
theorem reads {a : α} (h : fields.Writes members a) (hnodup : (fields.checks.map (·.1)).Nodup) :
    fields.decode.Reads (.ofMembers members) a := by
  have hkeys : (members.map (·.1)).Nodup := h.names ▸ hnodup
  refine h.decodeWith_members hnodup false (KeyMap.nodup_keys (KeyMap.ofList members)) fun e => ?_
  rw [← KeyMap.get?_eq_some_iff, KeyMap.get?_ofList_iff hkeys]

/-- So is an object of its members in declaration order. -/
theorem reads_object {a : α} (h : fields.Writes members a) (hnodup : (fields.checks.map (·.1)).Nodup) (surplus : Bool) :
    (fields.decodeWith surplus).Reads (.object members) a :=
  h.decodeWith_members hnodup surplus (h.names ▸ hnodup) fun _ => Iff.rfl

end Writes

end Fields

/-! ## Parts of documents -/

namespace Decoder

variable {decode : Decoder α} {n : Nat}

/-- The value was decoded from a document that is nested less than `n` deep. -/
def From (decode : Decoder α) (n : Nat) (a : α) : Prop := ∃ d, d.nesting < n ∧ decode d = .ok a

theorem from_value {j : Json} (h : value.From n j) : j.Denoted ∧ j.nesting < n := by
  obtain ⟨d, hd, hj⟩ := h
  unfold value at hj
  split at hj
  · rename_i heq
    cases hj
    exact ⟨Document.denoted_of_toJson? heq, (Document.nesting_of_toJson? heq).trans_lt hd⟩
  · cases hj

/-- What is not null was decoded as such. -/
theorem from_nullable {a : α} (h : (nullable decode).From n (some a)) : decode.From n a := by
  obtain ⟨d, hd, ha⟩ := h
  unfold nullable at ha
  split at ha
  · cases ha
  · cases hdecode : decode d with
    | error e =>
      rw [hdecode] at ha
      cases ha
    | ok b =>
      rw [hdecode] at ha
      cases ha
      exact ⟨d, hd, hdecode⟩

theorem exists_of_mapM {γ : Type} {f : γ → Except Fault α} {l : List γ} {l' : List α} (h : l.mapM f = .ok l') :
    ∀ a ∈ l', ∃ c ∈ l, f c = .ok a := by
  induction l generalizing l' with
  | nil =>
    cases h
    simp
  | cons c rest ih =>
    rw [List.mapM_cons] at h
    cases hc : f c with
    | error e =>
      rw [hc] at h
      cases h
    | ok b =>
      cases hrest : rest.mapM f with
      | error e =>
        rw [hc, hrest] at h
        cases h
      | ok bs =>
        rw [hc, hrest] at h
        cases h
        intro a ha
        rcases List.mem_cons.mp ha with rfl | ha
        · exact ⟨c, List.mem_cons_self, hc⟩
        · obtain ⟨c', hc', hf⟩ := ih hrest a ha
          exact ⟨c', List.mem_cons_of_mem _ hc', hf⟩

/-- The items of a list stand inside it. -/
theorem from_list {l : List α} (h : (list decode).From (n + 1) l) : ∀ a ∈ l, decode.From n a := by
  obtain ⟨d, hd, hl⟩ := h
  cases d with
  | array items complete =>
    rw [Document.nesting] at hd
    cases hitems : items.mapM decode with
    | error e => simp [list, hitems, bind, Except.bind] at hl
    | ok l' =>
      obtain rfl : l' = l := by
        cases complete <;> simp [list, hitems, bind, Except.bind] at hl
        exact hl
      intro a ha
      obtain ⟨item, hmem, hitem⟩ := exists_of_mapM hitems a ha
      exact ⟨item, (Document.itemsNesting_le_iff.mp (Nat.le_refl _) item hmem).trans_lt (by omega), hitem⟩
  | broken | deep | unreadable | null | bool | number | string | object => cases hl

/-- The values of a map stand inside it. -/
theorem from_map {m : KeyMap α} (h : (map decode).From (n + 1) m) : ∀ e ∈ m.entries, decode.From n e.2 := by
  obtain ⟨d, hd, hm⟩ := h
  cases d with
  | object members complete =>
    rw [Document.nesting] at hd
    cases hmembers : members.mapM fun (k, d) => (decode d).map (k, ·) with
    | error e => simp [map, hmembers, bind, Except.bind] at hm
    | ok l =>
      obtain rfl : KeyMap.ofList l = m := by
        cases complete <;> simp [map, hmembers, bind, Except.bind] at hm
        exact hm
      intro e he
      obtain ⟨⟨k, part⟩, hmem, hpart⟩ := exists_of_mapM hmembers e (KeyMap.mem_of_mem_entries_ofList he)
      refine ⟨part, (Document.membersNesting_le_iff.mp (Nat.le_refl _) _ hmem).trans_lt (by omega), ?_⟩
      cases hdecode : decode part with
      | error e => simp [hdecode, Except.map] at hpart
      | ok a =>
        simp only [hdecode, Except.map, Except.ok.injEq] at hpart
        rw [← hpart]
  | broken | deep | unreadable | null | bool | number | string | array => cases hm

end Decoder

namespace Fields

variable {fields : Fields α} {slots : String → Slot} {n : Nat}

/-- What stands for fields: documents that are nested less than `n` deep. -/
def Within (slots : String → Slot) (n : Nat) : Prop := ∀ name part, slots name = .present part → part.nesting < n

/-- A record that is decoded was built from parts of its document. -/
theorem build_of_decode {d : Document} {a : α} (h : fields.decode d = .ok a) :
    ∃ slots, Within slots d.nesting ∧ fields.build slots = .ok a := by
  unfold decode decodeWith at h
  split at h
  · rename_i members complete
    simp only [bind, Except.bind] at h
    split at h
    · cases h
    · split at h
      · refine ⟨_, fun name part hpart => ?_, h⟩
        unfold memberSlot at hpart
        split at hpart
        · rename_i hfind
          cases hpart
          exact Nat.lt_succ_of_le (Document.membersNesting_le_iff.mp (Nat.le_refl _) _ (List.mem_of_find?_eq_some hfind))
        · cases hpart
      · cases h
  · rename_i items complete
    simp only [bind, Except.bind] at h
    split at h
    · cases h
    · refine ⟨_, fun name part hpart => ?_, h⟩
      unfold itemSlot at hpart
      split at hpart
      · rename_i hfind
        cases hpart
        exact Nat.lt_succ_of_le
          (Document.itemsNesting_le_iff.mp (Nat.le_refl _) _ (List.of_mem_zip (List.mem_of_find?_eq_some hfind)).2)
      · cases hpart
  · unfold Decoder.refuse at h
    split at h <;> cases h

theorem build_of_from {a : α} (h : fields.decode.From (n + 1) a) : ∃ slots, Within slots n ∧ fields.build slots = .ok a := by
  obtain ⟨d, hd, ha⟩ := h
  obtain ⟨slots, hslots, hbuild⟩ := build_of_decode ha
  exact ⟨slots, fun name part hpart => (hslots name part hpart).trans_le (Nat.le_of_lt_succ hd), hbuild⟩

/-- What is joined is built from what its parts are built from. -/
theorem build_seq_iff {f : Fields (α → β)} {x : Fields α} {b : β} :
    (f <*> x).build slots = .ok b ↔ ∃ g, f.build slots = .ok g ∧ ∃ a, x.build slots = .ok a ∧ b = g a := by
  change (do let g ← f.build slots; let a ← x.build slots; Except.ok (g a)) = .ok b ↔ _
  cases f.build slots with
  | error e => simp [bind, Except.bind]
  | ok g =>
    cases x.build slots with
    | error e => simp [bind, Except.bind]
    | ok a => simp [bind, Except.bind, eq_comm]

theorem build_map_iff {f : α → β} {x : Fields α} {b : β} :
    (f <$> x).build slots = .ok b ↔ ∃ a, x.build slots = .ok a ∧ b = f a :=
  build_seq_iff.trans (by simp)

/-- What a field that has to be given is built from. -/
theorem from_required {name : String} {decode : Decoder α} {a : α} (hslots : Within slots n)
    (h : (required name decode).build slots = .ok a) : decode.From n a := by
  simp only [required, field] at h
  split at h
  · exact ⟨_, hslots _ _ (by assumption), h⟩
  · cases h

/-- What an optional field that is there is built from. -/
theorem from_optional {name : String} {decode : Decoder α} {a : α} (hslots : Within slots n)
    (h : (optional name decode).build slots = .ok (some a)) : decode.From n a := by
  simp only [optional, field] at h
  split at h
  · exact Decoder.from_nullable ⟨_, hslots _ _ (by assumption), h⟩
  · split at h <;> cases h

end Fields

end DatabaseBroker
