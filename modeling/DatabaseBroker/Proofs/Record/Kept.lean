import DatabaseBroker.Proofs.Classifier.Parts
import DatabaseBroker.Proofs.Json.Fields
import DatabaseBroker.Proofs.Label
import DatabaseBroker.Record.Domain
import DatabaseBroker.Record.Instruction
import DatabaseBroker.Record.Rule

/-!
# What is kept of a record

`Decoder.Keeps` relates a value to what is kept of it: each of the two is decoded from the way it is written, the one reads back as
the other, and what is written is nested less deep than a given number. Lists, maps, optional values and records keep what their parts
keep (`Fields.Keeps.decode`), so each type of record has one lemma, a chain over its fields.

What is made of names, words and flags is kept as it is. Labels, classifiers and values were decoded before, so a label is trimmed, and
a classifier and each value in it are in key order: their lemmas take this from the document that they come from.
-/

namespace DatabaseBroker

variable {α β : Type} {n : Nat}

/-! ## Parts -/

/-- What a value is decoded and kept as: written by `encode` it is decoded as itself, and it reads back as `kept`, which is too. -/
structure Decoder.Keeps (decode : Decoder α) (encode : α → Json) (n : Nat) (a kept : α) : Prop where
  reads : decode.Reads (encode a) a
  reads_kept : decode.Reads (encode kept) kept
  reread : (encode a).reread = encode kept
  nesting : (encode a).nesting < n

namespace Decoder

/-- A scalar without floats is kept as it is. -/
theorem keeps_scalar {decode : Decoder α} {encode : α → Json} {a : α} (h : decode.Reads (encode a) a)
    (hreread : (encode a).reread = encode a) (hnesting : (encode a).nesting = 0) : decode.Keeps encode (n + 1) a a :=
  ⟨h, h, hreread, hnesting ▸ n.succ_pos⟩

theorem keeps_string (s : String) : string.Keeps .string (n + 1) s s := keeps_scalar (reads_string s) rfl rfl

theorem keeps_bool (b : Bool) : bool.Keeps .bool (n + 1) b b := keeps_scalar (reads_bool b) rfl rfl

theorem keeps_uint64 (x : UInt64) : uint64.Keeps .ofUInt64 (n + 1) x x := keeps_scalar (reads_uint64 x) rfl rfl

theorem keeps_uint32 (x : UInt32) : uint32.Keeps .ofUInt32 (n + 1) x x := keeps_scalar (reads_uint32 x) rfl rfl

/-- A word is kept when it is read back from its name. -/
theorem keeps_variant {ofName : String → Option α} {text : α → String} {a : α} (h : ofName (text a) = some a) :
    (variant ofName).Keeps (fun a => .string (text a)) (n + 1) a a :=
  keeps_scalar (reads_variant h) rfl rfl

/-- A label that a text stands for is kept. -/
theorem keeps_label {l : Label} (h : Label.parse? l.text = some l) : Label.decoder.Keeps Label.toJson (n + 1) l l := by
  refine keeps_scalar ?_ rfl rfl
  simp [Reads, Label.decoder, Label.toJson, Document.ofJson, string, h, bind, Except.bind]

/-- Any value is kept as what it reads back as. -/
theorem keeps_value {j : Json} (h : j.Denoted) (hnesting : j.nesting < n) : value.Keeps (fun j => j) n j j.reread :=
  ⟨reads_value h, reads_value h.reread, rfl, hnesting⟩

/-! ## Containers -/

variable {decode : Decoder α} {encode : α → Json} {kept : α → α}

/-- A value that may be absent is kept as it is when it is there. -/
theorem keeps_ofOption {o : Option α} (hnull : ∀ a, encode a ≠ .null) (h : ∀ a ∈ o, decode.Keeps encode (n + 1) a (kept a)) :
    (nullable decode).Keeps (.ofOption encode) (n + 1) o (o.map kept) where
  reads := reads_ofOption hnull fun a ha => (h a ha).reads
  reads_kept := reads_ofOption hnull fun a ha => by
    obtain ⟨b, hb, rfl⟩ := Option.map_eq_some_iff.mp ha
    exact (h b hb).reads_kept
  reread := by
    cases o with
    | none => rfl
    | some a => exact (h a rfl).reread
  nesting := by
    cases o with
    | none => exact n.succ_pos
    | some a => exact (h a rfl).nesting

theorem keeps_ofOption_self {o : Option α} (hnull : ∀ a, encode a ≠ .null) (h : ∀ a ∈ o, decode.Keeps encode (n + 1) a a) :
    (nullable decode).Keeps (.ofOption encode) (n + 1) o o := by
  have hkept : (nullable decode).Keeps (.ofOption encode) (n + 1) o (o.map id) := keeps_ofOption hnull h
  rwa [Option.map_id, id] at hkept

theorem keeps_ofOption_string (o : Option String) : (nullable string).Keeps (.ofOption .string) (n + 1) o o :=
  keeps_ofOption_self (fun _ => nofun) fun s _ => keeps_string s

/-- A list is kept item by item. -/
theorem keeps_ofList {l : List α} (h : ∀ a ∈ l, decode.Keeps encode (n + 1) a (kept a)) :
    (list decode).Keeps (.ofList encode) (n + 2) l (l.map kept) where
  reads := reads_ofList fun a ha => (h a ha).reads
  reads_kept := reads_ofList fun a ha => by
    obtain ⟨b, hb, rfl⟩ := List.mem_map.mp ha
    exact (h b hb).reads_kept
  reread := by
    rw [Json.reread_ofList, Json.ofList, Json.ofList, List.map_map]
    exact congrArg Json.array (List.map_congr_left fun a ha => (h a ha).reread)
  nesting := Nat.lt_succ_of_le (Json.nesting_ofList_le_iff.mpr fun a ha => Nat.le_of_lt_succ (h a ha).nesting)

theorem keeps_ofList_self {l : List α} (h : ∀ a ∈ l, decode.Keeps encode (n + 1) a a) :
    (list decode).Keeps (.ofList encode) (n + 2) l l := by
  have hkept : (list decode).Keeps (.ofList encode) (n + 2) l (l.map id) := keeps_ofList h
  rwa [List.map_id] at hkept

theorem keeps_ofStrings (l : List String) : (list string).Keeps .ofStrings (n + 2) l l :=
  keeps_ofList_self fun s _ => keeps_string s

/-- A map is kept value by value. -/
theorem keeps_ofMap {m : KeyMap α} (h : ∀ e ∈ m.entries, decode.Keeps encode (n + 1) e.2 (kept e.2)) :
    (map decode).Keeps (fun m => .ofMap (m.mapValues encode)) (n + 2) m (m.mapValues kept) where
  reads := reads_ofMap fun e he => (h e he).reads
  reads_kept := reads_ofMap fun e he => by
    obtain ⟨e', he', rfl⟩ := List.mem_map.mp he
    exact (h e' he').reads_kept
  reread := by
    rw [Json.reread_ofMap]
    refine congrArg Json.ofMap (KeyMap.ext ?_)
    simp only [KeyMap.mapValues, List.map_map]
    exact List.map_congr_left fun e he => congrArg (e.1, ·) (h e he).reread
  nesting := Nat.lt_succ_of_le (Json.nesting_ofMap_le_iff.mpr fun e he => by
    obtain ⟨e', he', rfl⟩ := List.mem_map.mp he
    exact Nat.le_of_lt_succ (h e' he').nesting)

theorem keeps_ofMap_self {m : KeyMap α} (h : ∀ e ∈ m.entries, decode.Keeps encode (n + 1) e.2 e.2) :
    (map decode).Keeps (fun m => .ofMap (m.mapValues encode)) (n + 2) m m := by
  have hkept : (map decode).Keeps (fun m => .ofMap (m.mapValues encode)) (n + 2) m (m.mapValues id) := keeps_ofMap h
  rwa [show m.mapValues id = m from KeyMap.ext (List.map_id _)] at hkept

end Decoder

/-! ## Records -/

/-- What the members of a record are and what they read back as: those of `kept`. -/
structure Fields.Keeps (fields : Fields α) (n : Nat) (members members' : List (String × Json)) (a kept : α) : Prop where
  writes : fields.Writes members a
  writes_kept : fields.Writes members' kept
  reread : members.map (fun e => (e.1, e.2.reread)) = members'
  nesting : ∀ e ∈ members, e.2.nesting < n

namespace Fields.Keeps

variable {members members' : List (String × Json)}

/-- A field keeps what its value keeps. -/
theorem field {name : String} {decode : Decoder α} {encode : α → Json} {absent : Slot → Except Fault α} {a kept : α}
    (h : decode.Keeps encode n a kept) :
    (Fields.field name decode absent).Keeps n [(name, encode a)] [(name, encode kept)] a kept where
  writes := .field h.reads
  writes_kept := .field h.reads_kept
  reread := by rw [List.map_singleton, h.reread]
  nesting e he := by
    obtain rfl := List.mem_singleton.mp he
    exact h.nesting

/-- Fields keep what each of them keeps. -/
theorem seq {f : Fields (α → β)} {x : Fields α} {rest rest' : List (String × Json)} {g g' : α → β} {a kept : α}
    (hf : f.Keeps n members members' g g') (hx : x.Keeps n rest rest' a kept) :
    (f <*> x).Keeps n (members ++ rest) (members' ++ rest') (g a) (g' kept) where
  writes := hf.writes.seq hx.writes
  writes_kept := hf.writes_kept.seq hx.writes_kept
  reread := by rw [List.map_append, hf.reread, hx.reread]
  nesting e he := (List.mem_append.mp he).elim (hf.nesting e) (hx.nesting e)

theorem map {x : Fields α} {a kept : α} (hx : x.Keeps n members members' a kept) (g : α → β) :
    (g <$> x).Keeps n members members' (g a) (g kept) :=
  ⟨hx.writes.map g, hx.writes_kept.map g, hx.reread, hx.nesting⟩

/-- A record keeps what its fields keep. -/
theorem decode {fields : Fields α} {encode : α → Json} {a kept : α} (h : fields.Keeps (n + 1) members members' a kept)
    (hnodup : (fields.checks.map (·.1)).Nodup) (ha : encode a = .ofMembers members) (hkept : encode kept = .ofMembers members') :
    fields.decode.Keeps encode (n + 2) a kept where
  reads := ha ▸ h.writes.reads hnodup
  reads_kept := hkept ▸ h.writes_kept.reads hnodup
  reread := by rw [ha, hkept, Json.reread_ofMembers, h.reread]
  nesting := ha ▸ Nat.lt_succ_of_le (Json.nesting_ofMembers_le fun e he => Nat.le_of_lt_succ (h.nesting e he))

end Fields.Keeps

open Decoder

/-! ## Records of names, words and flags -/

theorem AdapterMetadata.keeps (m : AdapterMetadata) : fields.decode.Keeps toJson (n + 3) m m :=
  Fields.Keeps.decode (.seq (.seq (.map (.field (keeps_string _)) _)
    (.field (keeps_ofStrings _)))
    (.field (keeps_ofMap_self fun _ _ => keeps_bool _))) (by decide) rfl rfl

theorem AdapterStatus.keeps (s : AdapterStatus) : decoder.Keeps (fun s => .string s.text) (n + 1) s s :=
  keeps_variant (by cases s <;> rfl)

theorem PhysicalDatabase.keeps (p : PhysicalDatabase) : fields.decode.Keeps toJson (n + 4) p p :=
  Fields.Keeps.decode (.seq (.seq (.seq (.seq (.seq (.seq (.seq (.seq (.seq (.seq (.map (.field (keeps_string _)) _)
    (.field (keeps_string _)))
    (.field (keeps_string _)))
    (.field (keeps_ofOption_string _)))
    (.field p.metadata.keeps))
    (.field p.status.keeps))
    (.field (keeps_ofMap_self fun _ _ => keeps_string _)))
    (.field (keeps_bool _)))
    (.field (keeps_ofOption_string _)))
    (.field (keeps_uint64 _)))
    (.field (keeps_uint64 _))) (by decide) rfl rfl

theorem NamespaceRule.keeps (r : NamespaceRule) : fields.decode.Keeps toJson (n + 2) r r :=
  Fields.Keeps.decode (.seq (.seq (.seq (.seq (.seq (.map (.field (keeps_string _)) _)
    (.field (keeps_string _)))
    (.field (keeps_string _)))
    (.field (keeps_uint32 _)))
    (.field (keeps_string _)))
    (.field (keeps_uint64 _))) (by decide) rfl rfl

theorem PermanentEntry.keeps (e : PermanentEntry) : fields.decode.Keeps toJson (n + 2) e e :=
  Fields.Keeps.decode (.seq (.seq (.map (.field (keeps_string _)) _)
    (.field (keeps_string _)))
    (.field (keeps_string _))) (by decide) rfl rfl

theorem MicroserviceLabels.keeps (l : MicroserviceLabels) : fields.decode.Keeps toJson (n + 3) l l :=
  Fields.Keeps.decode (.seq (.seq (.seq (.map (.field (keeps_string _)) _)
    (.field (keeps_string _)))
    (.field (keeps_ofMap_self fun _ _ => keeps_string _)))
    (.field (keeps_uint64 _))) (by decide) rfl rfl

theorem MemberState.keeps (s : MemberState) : (variant ofName?).Keeps (fun s => .string s.text) (n + 1) s s :=
  keeps_variant (by cases s <;> rfl)

theorem Member.keeps (m : Member) : fields.decode.Keeps toJson (n + 2) m m :=
  Fields.Keeps.decode (.seq (.seq (.map (.field (keeps_string _)) _)
    (.field m.state.keeps))
    (.field (keeps_ofOption_string _))) (by decide) rfl rfl

theorem Domain.keeps (d : Domain) : fields.decode.Keeps toJson (n + 4) d d :=
  Fields.Keeps.decode (.seq (.seq (.map (.field (keeps_string _)) _)
    (.field (keeps_ofList_self fun m _ => m.keeps)))
    (.field (keeps_uint64 _))) (by decide) rfl rfl

theorem Resource.keeps (r : Resource) : fields.decode.Keeps toJson (n + 2) r r :=
  Fields.Keeps.decode (.seq (.map (.field (keeps_string _)) _) (.field (keeps_string _))) (by decide) rfl rfl

/-! ## Rules with labels -/

/-- The label of a rule was read from a text, so it is trimmed. -/
theorem Label.keeps_of_from {m : Nat} {l : Label} (h : decoder.From m l) : decoder.Keeps toJson (n + 1) l l := by
  obtain ⟨d, -, hd⟩ := h
  simp only [decoder, bind, Except.bind] at hd
  split at hd
  · cases hd
  split at hd
  · rename_i hparse
    cases hd
    exact keeps_label (Label.parse?_text hparse)
  · cases hd

theorem MicroserviceRule.keeps_of_from {r : MicroserviceRule} (h : fields.decode.From (n + 3) r) :
    fields.decode.Keeps toJson (n + 3) r r := by
  obtain ⟨slots, hslots, hbuild⟩ := Fields.build_of_from h
  simp only [fields, Fields.build_seq_iff, Fields.build_map_iff, ↓existsAndEq, and_true, and_assoc] at hbuild
  obtain ⟨dbType, order, microservices, labels, -, -, -, hlabels, physicalDatabaseId, -, rfl⟩ := hbuild
  have hparts := from_list (Fields.from_required hslots hlabels)
  exact Fields.Keeps.decode (.seq (.seq (.seq (.seq (.map (.field (keeps_string _)) _)
    (.field (keeps_uint32 _)))
    (.field (keeps_ofStrings _)))
    (.field (keeps_ofList_self fun l hl => Label.keeps_of_from (hparts l hl))))
    (.field (keeps_ofOption_string _))) (by decide) rfl rfl

theorem MicroserviceRuleSet.keeps_of_from {s : MicroserviceRuleSet} (h : fields.decode.From (n + 5) s) :
    fields.decode.Keeps toJson (n + 5) s s := by
  obtain ⟨slots, hslots, hbuild⟩ := Fields.build_of_from h
  simp only [fields, Fields.build_seq_iff, Fields.build_map_iff, ↓existsAndEq, and_true, and_assoc] at hbuild
  obtain ⟨ns, dbType, rules, -, -, hrules, updatedAt, -, rfl⟩ := hbuild
  have hparts := from_list (Fields.from_required hslots hrules)
  exact Fields.Keeps.decode (.seq (.seq (.seq (.map (.field (keeps_string _)) _)
    (.field (keeps_string _)))
    (.field (keeps_ofList_self fun r hr => MicroserviceRule.keeps_of_from (hparts r hr))))
    (.field (keeps_uint64 _))) (by decide) rfl rfl

/-! ## Records of values -/

/-- An object of any values. -/
theorem keeps_values_of_from {m : KeyMap Json} (h : (map value).From (n + 2) m) :
    (map value).Keeps .ofMap (n + 2) m (m.mapValues Json.reread) := by
  have hid : ∀ m : KeyMap Json, m.mapValues (fun j => j) = m := fun m => KeyMap.ext (List.map_id' _)
  have hvalues : ∀ e ∈ m.entries, value.Keeps (fun j => j) (n + 1) e.2 e.2.reread := fun e he => by
    obtain ⟨hdenoted, hnesting⟩ := from_value (from_map h e he)
    exact keeps_value hdenoted hnesting
  have hkept := keeps_ofMap hvalues
  simpa only [hid] using hkept

/-- A classifier was made of an object, so it is made of its own. -/
theorem Classifier.keeps_of_from {c : Classifier} (h : decoder.From (n + 2) c) : decoder.Keeps toJson (n + 2) c c.reread := by
  obtain ⟨d, hd, hc⟩ := h
  cases hm : Decoder.map value d with
  | error e =>
    simp [decoder, hm, Except.map] at hc
  | ok m =>
    obtain rfl : ofMap m = c := by simpa [decoder, hm, Except.map] using hc
    have hkept := keeps_values_of_from ⟨d, hd, hm⟩
    have hmade : ∀ m : KeyMap Json, (Decoder.map value).Reads (.ofMap m) m → decoder.Reads (ofMap m).toJson (ofMap m) := by
      intro m hreads
      have hvalues : Decoder.map value (Document.ofJson (.ofMap m)) = .ok m := hreads
      simp only [Reads, decoder, toJson, toMap_ofMap, hvalues, Except.map]
    have hreread : (ofMap m).reread = ofMap (m.mapValues Json.reread) := by rw [reread, toMap_ofMap]
    rw [hreread]
    refine ⟨hmade m hkept.reads, hmade _ hkept.reads_kept, ?_, ?_⟩
    · simpa only [toJson, toMap_ofMap] using hkept.reread
    · simpa only [toJson, toMap_ofMap] using hkept.nesting

theorem LogicalDatabase.keeps_of_from {db : LogicalDatabase} (h : fields.decode.From (n + 4) db) :
    fields.decode.Keeps toJson (n + 4) db db.reread := by
  obtain ⟨slots, hslots, hbuild⟩ := Fields.build_of_from h
  simp only [fields, Fields.build_seq_iff, Fields.build_map_iff, ↓existsAndEq, and_true, and_assoc] at hbuild
  obtain ⟨id, classifier, oldClassifier, dbType, ns, physicalDatabaseId, roles, resources, properties, bgVersion, marked, -,
    hclassifier, hold, -, -, -, -, -, hproperties, -, -, createdAt, -, rfl⟩ := hbuild
  have hparts := from_list (Fields.from_required hslots hproperties)
  have hnull : ∀ c : Classifier, c.toJson ≠ .null := fun _ => nofun
  exact Fields.Keeps.decode (.seq (.seq (.seq (.seq (.seq (.seq (.seq (.seq (.seq (.seq (.seq (.map (.field (keeps_string _)) _)
    (.field (Classifier.keeps_of_from (Fields.from_required hslots hclassifier))))
    (.field (keeps_ofOption hnull fun c hc => Classifier.keeps_of_from (Fields.from_optional hslots (hc ▸ hold)))))
    (.field (keeps_string _)))
    (.field (keeps_string _)))
    (.field (keeps_string _)))
    (.field (keeps_ofStrings _)))
    (.field (keeps_ofList_self fun r _ => r.keeps)))
    (.field (keeps_ofList fun p hp => keeps_values_of_from (hparts p hp))))
    (.field (keeps_ofOption_string _)))
    (.field (keeps_bool _)))
    (.field (keeps_uint64 _))) (by decide) rfl rfl

theorem AdditionalRoles.keeps_of_from {a : AdditionalRoles} (h : fields.decode.From (n + 4) a) :
    fields.decode.Keeps toJson (n + 4) a a.reread := by
  obtain ⟨slots, hslots, hbuild⟩ := Fields.build_of_from h
  simp only [fields, Fields.build_seq_iff, Fields.build_map_iff, ↓existsAndEq, and_true, and_assoc] at hbuild
  obtain ⟨databaseId, roles, properties, -, -, hproperties, resources, -, rfl⟩ := hbuild
  have hparts := from_list (Fields.from_required hslots hproperties)
  exact Fields.Keeps.decode (.seq (.seq (.seq (.map (.field (keeps_string _)) _)
    (.field (keeps_ofStrings _)))
    (.field (keeps_ofList fun p hp => keeps_values_of_from (hparts p hp))))
    (.field (keeps_ofList_self fun r _ => r.keeps))) (by decide) rfl rfl

theorem InstructionState.keeps (s : InstructionState) : (variant ofName?).Keeps (fun s => .string s.text) (n + 1) s s :=
  keeps_variant (by cases s <;> rfl)

theorem Instruction.keeps_of_from {i : Instruction} (h : fields.decode.From (n + 6) i) :
    fields.decode.Keeps toJson (n + 6) i i.reread := by
  obtain ⟨slots, hslots, hbuild⟩ := Fields.build_of_from h
  simp only [fields, Fields.build_seq_iff, Fields.build_map_iff, ↓existsAndEq, and_true, and_assoc] at hbuild
  obtain ⟨id, physicalDatabaseId, state, target, entries, portion, createdAt, -, -, -, -, hentries, -, -, updatedAt, -, rfl⟩ := hbuild
  have hparts := from_list (Fields.from_required hslots hentries)
  have hnull : ∀ l, Json.ofStrings l ≠ .null := fun _ => nofun
  exact Fields.Keeps.decode (.seq (.seq (.seq (.seq (.seq (.seq (.seq (.map (.field (keeps_string _)) _)
    (.field (keeps_string _)))
    (.field state.keeps))
    (.field target.keeps))
    (.field (keeps_ofList fun e he => AdditionalRoles.keeps_of_from (hparts e he))))
    (.field (keeps_ofOption_self hnull fun l _ => keeps_ofStrings l)))
    (.field (keeps_uint64 _)))
    (.field (keeps_uint64 _))) (by decide) rfl rfl

end DatabaseBroker
