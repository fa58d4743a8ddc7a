import DatabaseBroker.Proofs.Json.Reading
import DatabaseBroker.Proofs.Record.Kept

/-!
# Records that are stored and read again

The store keeps its records as text. `Survives` says what that does to the record that a document is decoded as: it is written as a
value that is decoded as the same record, its text is decoded as what is kept of it, and this is the record itself exactly when each
float in it reads back as itself. The main result, `records_survive`, says so of every type of record that is stored and of every
document: one that is an array, leaves out or repeats members, has names in place of known words, or holds anything under any key of
a classifier.

The condition on floats cannot be dropped (`record_changes_when_stored`). Only logical databases and instructions hold any.
-/

namespace DatabaseBroker

/-! ## Records -/

variable {α : Type}

/-- What storing does to the record that a document is decoded as, where `kept` is what is kept of a record. -/
structure Survives (decode : Decoder α) (encode : α → Json) (kept : α → α) (d : Document) : Prop where
  /-- The record is written as a value that is decoded as the same record. -/
  value : ∀ a, decode d = .ok a → decode (.ofJson (encode a)) = .ok a
  /-- Its text is decoded as what is kept of it, if the document is nested no deeper than a text may be. -/
  text : d.nesting ≤ Document.maxNesting → ∀ a, decode d = .ok a → Decoder.ofText decode (encode a).compact = .ok (kept a)
  /-- A document that was read from a text is not. -/
  again : ∀ s, (Document.read s).1 = d → ∀ a, decode d = .ok a → Decoder.ofText decode (encode a).compact = .ok (kept a)
  /-- What is kept is the record itself exactly when each float in it reads back as itself. -/
  itself : ∀ a, decode d = .ok a → (kept a = a ↔ ∀ x ∈ (encode a).floats, (JsonNumber.float x).reread = .float x)

namespace Survives

variable {decode : Decoder α} {encode : α → Json} {kept : α → α} {d : Document}

/-- A text is decoded as the document that it is read as, if nothing follows it. -/
theorem ofText_eq_ok_iff {s : String} {a : α} :
    Decoder.ofText decode s = .ok a ↔ decode (Document.read s).1 = .ok a ∧ (Document.read s).2 = true := by
  show (do let a ← decode (Document.read s).1; if (Document.read s).2 then Except.ok a else .error .malformed) = .ok a ↔ _
  cases decode (Document.read s).1 with
  | error e => simp [bind, Except.bind]
  | ok b => cases (Document.read s).2 <;> simp [bind, Except.bind]

/-- A record that is kept as `kept` survives, where its type has no more than six containers of its own inside one another. -/
theorem of_keeps (h : ∀ n a, decode.From (n + 6) a → decode.Keeps encode (n + 6) a (kept a)) : Survives decode encode kept d := by
  have htext : d.nesting ≤ Document.maxNesting → ∀ a, decode d = .ok a →
      Decoder.ofText decode (encode a).compact = .ok (kept a) := by
    intro hnesting a hd
    obtain ⟨-, hreads, hreread, hshallow⟩ := h (Document.maxNesting - 5) a ⟨d, Nat.lt_succ_of_le hnesting, hd⟩
    rw [ofText_eq_ok_iff, Document.read_compact (Nat.le_of_lt_succ hshallow), hreread]
    exact ⟨hreads, rfl⟩
  have hkeeps : ∀ a, decode d = .ok a → decode.Keeps encode (d.nesting + 6) a (kept a) :=
    fun a hd => h _ a ⟨d, by omega, hd⟩
  refine ⟨fun a hd => (hkeeps a hd).reads, htext, fun s hs => htext (hs ▸ Document.nesting_read s), fun a hd => ?_⟩
  obtain ⟨hreads, hreads_kept, hreread, -⟩ := hkeeps a hd
  rw [← Json.steady_iff, Json.Steady, hreread]
  refine ⟨fun hself => by rw [hself], fun hself => ?_⟩
  -- both are decoded from one value
  rw [hself] at hreads_kept
  exact Except.ok.inj (hreads_kept.symm.trans hreads)

end Survives

theorem LogicalDatabase.survives (d : Document) : Survives fields.decode toJson reread d := .of_keeps fun _ _ h => keeps_of_from h

/-- Every record that is stored survives, whatever document it was decoded from. Physical databases, rules, permanent entries, labels
and domains are kept as they are; logical databases and instructions are kept with each value in their classifiers and connection
properties read back. -/
theorem records_survive (d : Document) :
    Survives PhysicalDatabase.fields.decode PhysicalDatabase.toJson id d ∧
    Survives LogicalDatabase.fields.decode LogicalDatabase.toJson LogicalDatabase.reread d ∧
    Survives NamespaceRule.fields.decode NamespaceRule.toJson id d ∧
    Survives PermanentEntry.fields.decode PermanentEntry.toJson id d ∧
    Survives MicroserviceRuleSet.fields.decode MicroserviceRuleSet.toJson id d ∧
    Survives MicroserviceLabels.fields.decode MicroserviceLabels.toJson id d ∧
    Survives Domain.fields.decode Domain.toJson id d ∧
    Survives Instruction.fields.decode Instruction.toJson Instruction.reread d :=
  ⟨.of_keeps fun _ p _ => p.keeps, LogicalDatabase.survives d, .of_keeps fun _ r _ => r.keeps, .of_keeps fun _ e _ => e.keeps,
    .of_keeps fun _ _ h => MicroserviceRuleSet.keeps_of_from h,
    .of_keeps fun _ l _ => l.keeps, .of_keeps fun _ d _ => d.keeps, .of_keeps fun _ _ h => Instruction.keeps_of_from h⟩

/-- A logical database as an array, whose classifier has a float for an extension. -/
def sampleArray : String :=
  "[\"ldb-1\",\x7b\"scope\":\"service\",\"shard\":1e-25\x7d,null,\"postgresql\",\"shop\",\"pg\",[],[],[],null,false,1]"

/-- A record with a float need not stay itself: the shard of the sample is read as a float whose own text is read as another, so the
record that is read from the record's text is known under another classifier. -/
theorem record_changes_when_stored :
    ∃ db db', Decoder.ofText LogicalDatabase.fields.decode sampleArray = .ok db ∧
      Decoder.ofText LogicalDatabase.fields.decode db.toJson.compact = .ok db' ∧
      db' ≠ db ∧ db'.classifier.canonicalKey ≠ db.classifier.canonicalKey := by
  have hchanged : (Decoder.ofText LogicalDatabase.fields.decode sampleArray).toOption.any (fun db =>
      db.reread.classifier.canonicalKey ≠ db.classifier.canonicalKey) = true := by decide +kernel
  cases hread : Decoder.ofText LogicalDatabase.fields.decode sampleArray with
  | error e =>
    rw [hread] at hchanged
    cases hchanged
  | ok db =>
    have hkey : db.reread.classifier.canonicalKey ≠ db.classifier.canonicalKey := by
      simpa only [hread, Except.toOption, Option.any_some, decide_eq_true_eq] using hchanged
    obtain ⟨hdecode, -⟩ := Survives.ofText_eq_ok_iff.mp hread
    have hagain := (LogicalDatabase.survives _).again sampleArray rfl db hdecode
    refine ⟨db, db.reread, rfl, hagain, fun hself => hkey ?_, hkey⟩
    rw [hself]

end DatabaseBroker
