import DatabaseBroker.Proofs.Store.Outcomes

/-!
# Writes of databases

Registering, migrating and making global write physical databases and instructions, and `Store.SameButRegistry` says that they
write nothing else: logical databases and their index, rules, entries, labels and domains are as they were. Requests for databases and
acknowledgements write logical databases, too, and leave the rest (`Store.SameSettings`).
-/

namespace DatabaseBroker.Store

/-- Two stores that differ in physical databases and instructions at most. -/
structure SameButRegistry (s s' : Store) : Prop where
  logicals : s'.logicals = s.logicals
  classifierIndex : s'.classifierIndex = s.classifierIndex
  namespaceRules : s'.namespaceRules = s.namespaceRules
  permanentEntries : s'.permanentEntries = s.permanentEntries
  microserviceRules : s'.microserviceRules = s.microserviceRules
  microserviceLabels : s'.microserviceLabels = s.microserviceLabels
  domains : s'.domains = s.domains

namespace SameButRegistry

variable {s s' s'' : Store}

theorem refl (s : Store) : SameButRegistry s s := ⟨rfl, rfl, rfl, rfl, rfl, rfl, rfl⟩

theorem trans (h : SameButRegistry s s') (h' : SameButRegistry s' s'') : SameButRegistry s s'' where
  logicals := h'.logicals.trans h.logicals
  classifierIndex := h'.classifierIndex.trans h.classifierIndex
  namespaceRules := h'.namespaceRules.trans h.namespaceRules
  permanentEntries := h'.permanentEntries.trans h.permanentEntries
  microserviceRules := h'.microserviceRules.trans h.microserviceRules
  microserviceLabels := h'.microserviceLabels.trans h.microserviceLabels
  domains := h'.domains.trans h.domains

/-! ## Records -/

theorem putPhysical (s : Store) (p : PhysicalDatabase) : SameButRegistry s (s.putPhysical p) :=
  ⟨rfl, rfl, rfl, rfl, rfl, rfl, rfl⟩

theorem deletePhysical (s : Store) (id : String) : SameButRegistry s (s.deletePhysical id) :=
  ⟨rfl, rfl, rfl, rfl, rfl, rfl, rfl⟩

theorem putInstruction (s : Store) (i : Instruction) : SameButRegistry s (s.putInstruction i) :=
  ⟨rfl, rfl, rfl, rfl, rfl, rfl, rfl⟩

theorem deleteInstruction (s : Store) (id : String) : SameButRegistry s (s.deleteInstruction id) := by
  obtain ⟨index, h⟩ := s.deleteInstruction_eq id
  rw [h]
  exact ⟨rfl, rfl, rfl, rfl, rfl, rfl, rfl⟩

theorem discardMigration (s : Store) (id : String) : SameButRegistry s (s.discardMigration id) := by
  obtain ⟨instructions, index, h⟩ := s.discardMigration_eq id
  rw [h]
  exact ⟨rfl, rfl, rfl, rfl, rfl, rfl, rfl⟩

theorem joinMigration (s : Store) (now : UInt64) (db : LogicalDatabase) : SameButRegistry s (s.joinMigration now db) := by
  obtain ⟨instructions, index, h⟩ := s.joinMigration_eq now db
  rw [h]
  exact ⟨rfl, rfl, rfl, rfl, rfl, rfl, rfl⟩

/-! ## Operations -/

theorem advance {now : UInt64} {size : Nat} {i : Instruction} {step : MigrationStep}
    (h : s.advance now size i = (step, s')) : SameButRegistry s s' := by
  by_cases hentries : i.entries = []
  · rw [advance_of_done hentries] at h
    cases h
    exact (putPhysical s _).trans (deleteInstruction _ i.id)
  · rw [advance_of_pending hentries] at h
    cases h
    exact putInstruction s _

theorem nextPortion {now : UInt64} {size : Nat} {instructionId : String} {step : MigrationStep}
    (h : s.nextPortion now size instructionId = .ok (step, s')) : SameButRegistry s s' := by
  obtain ⟨i, -, hadvance⟩ := nextPortion_eq_ok h
  exact advance hadvance

theorem updateInPlace (s : Store) (target : PhysicalDatabase) : SameButRegistry s (s.updateInPlace target).2 :=
  (discardMigration s target.id).trans (putPhysical _ target)

theorem keepRegistered (s : Store) (p : PhysicalDatabase) : SameButRegistry s (s.keepRegistered p).2 := by
  simp only [Store.keepRegistered]
  split
  · exact deleteInstruction s _
  · exact refl s

theorem decided {now : UInt64} {instructionId : String} {size : Nat} {id dbType : String} {r : Registration}
    {outcome : RegistrationOutcome} (h : s.Decided now instructionId size id dbType r outcome s') : SameButRegistry s s' := by
  cases h with
  | created => exact putPhysical s _
  | kept => exact keepRegistered s _
  | @updated current s₁ hstored hdiffers hdirect hbefore =>
    rcases hbefore with rfl | rfl
    · exact updateInPlace s₁ _
    · exact (discardMigration s _).trans (updateInPlace _ _)
  | @resumed current live hstored hdiffers hroles hmultiusers hlive hsame i hi outcome s' hissue =>
    obtain ⟨step, hadvance⟩ := issue_eq hissue
    exact (putInstruction s i).trans (advance hadvance)
  | @begun current hstored hdiffers hroles hmultiusers hneeds i hi outcome s' hissue =>
    obtain ⟨step, hadvance⟩ := issue_eq hissue
    exact ((discardMigration s _).trans (putInstruction _ i)).trans (advance hadvance)

theorem setGlobal {now : UInt64} {id : String} {out : PhysicalDatabase} (h : s.setGlobal now id = .ok (out, s')) :
    SameButRegistry s s' := by
  obtain ⟨p, -, rfl⟩ := setGlobal_eq_ok h
  rcases s.clearGlobal_cases now p.dbType id with heq | ⟨other, -, heq⟩
  · rw [heq]
    exact putPhysical s _
  · rw [heq]
    exact (putPhysical s _).trans (putPhysical _ _)

end SameButRegistry

/-! ## Settings -/

/-- Two stores with the same rules, entries, labels and domains. -/
structure SameSettings (s s' : Store) : Prop where
  namespaceRules : s'.namespaceRules = s.namespaceRules
  permanentEntries : s'.permanentEntries = s.permanentEntries
  microserviceRules : s'.microserviceRules = s.microserviceRules
  microserviceLabels : s'.microserviceLabels = s.microserviceLabels
  domains : s'.domains = s.domains

namespace SameSettings

variable {s s' s'' : Store} {now : UInt64}

theorem refl (s : Store) : SameSettings s s := ⟨rfl, rfl, rfl, rfl, rfl⟩

theorem trans (h : SameSettings s s') (h' : SameSettings s' s'') : SameSettings s s'' where
  namespaceRules := h'.namespaceRules.trans h.namespaceRules
  permanentEntries := h'.permanentEntries.trans h.permanentEntries
  microserviceRules := h'.microserviceRules.trans h.microserviceRules
  microserviceLabels := h'.microserviceLabels.trans h.microserviceLabels
  domains := h'.domains.trans h.domains

theorem of_registry (h : SameButRegistry s s') : SameSettings s s' :=
  ⟨h.namespaceRules, h.permanentEntries, h.microserviceRules, h.microserviceLabels, h.domains⟩

theorem putLogical (s : Store) (db : LogicalDatabase) : SameSettings s (s.putLogical db) := by
  rw [putLogical_eq]
  exact ⟨rfl, rfl, rfl, rfl, rfl⟩

theorem markForDrop {id : String} {out : LogicalDatabase} (h : s.markForDrop id = .ok (out, s')) : SameSettings s s' := by
  obtain ⟨db, -, rfl⟩ := markForDrop_eq_ok h
  exact putLogical s _

theorem applySuccesses {i i' : Instruction} {done : List Success} (h : applySuccesses i s done = .ok (i', s')) :
    SameSettings s s' :=
  applySuccesses_invariant (P := SameSettings s) (fun _ _ _ _ hs _ => hs.trans (putLogical _ _)) (refl s) h

theorem acknowledged {size : Nat} {physicalDatabaseId instructionId : String} {ack : Acknowledgement}
    {answer : Except RegistryError MigrationStep}
    (h : s.Acknowledged now size physicalDatabaseId instructionId ack answer s') : SameSettings s s' := by
  cases h with
  | unknown => exact refl s
  | failed => exact of_registry (.deleteInstruction s instructionId)
  | applied hlive hphysical hfailure happly hadvance => exact (applySuccesses happly).trans (of_registry (.advance hadvance))

theorem bound {id : String} {r : DatabaseRequest} {outcome : BindingOutcome} (h : s.Bound now id r outcome s') :
    SameSettings s s' := by
  cases h with
  | upgraded => exact putLogical s _
  | created => exact (putLogical s _).trans (of_registry (.joinMigration _ now _))
  | _ => exact refl s

end SameSettings

end DatabaseBroker.Store
