import DatabaseBroker.Proofs.Store.Outcomes

/-!
# Records under their ids

`Store.Tabled` says that physical databases, logical databases and instructions stand under their own ids, and that the two
tables of instructions are inverse to each other. Each write keeps it; an instruction may be stored where its physical
database has no other.
-/

namespace DatabaseBroker

namespace Store

/-- Records stand under their ids, and the index of instructions leads from each physical database to its instruction and
nowhere else. -/
structure Tabled (s : Store) : Prop where
  physical_id : ∀ id p, s.physical? id = some p → p.id = id
  logical_id : ∀ id db, s.logical? id = some db → db.id = id
  instruction_id : ∀ id i, s.instruction? id = some i → i.id = id
  inverse : ∀ physicalDatabaseId id, s.instructionsByPhysical.get? physicalDatabaseId = some id ↔
    ∃ i, s.instruction? id = some i ∧ i.physicalDatabaseId = physicalDatabaseId

namespace Tabled

/-- The empty store has no records that could stand elsewhere. -/
theorem empty : Store.empty.Tabled := by
  constructor <;> simp [Store.empty, physical?, logical?, instruction?]

/-- Writes that leave databases and instructions alone keep them in their places. -/
theorem of_sameRecords {s s' : Store} (h : s.Tabled) (hsame : SameRecords s s') : s'.Tabled := by
  constructor
  · simpa only [physical?, hsame.physicals] using h.physical_id
  · simpa only [logical?, hsame.logicals] using h.logical_id
  · simpa only [instruction?, hsame.instructions] using h.instruction_id
  · simpa only [instruction?, hsame.instructions, hsame.instructionsByPhysical] using h.inverse

/-- The live instruction of a physical database is the instruction that names it. -/
theorem instructionFor?_eq_some_iff {s : Store} (h : s.Tabled) {physicalDatabaseId : String} {i : Instruction} :
    s.instructionFor? physicalDatabaseId = some i ↔
      s.instruction? i.id = some i ∧ i.physicalDatabaseId = physicalDatabaseId := by
  simp only [instructionFor?, Option.bind_eq_some_iff]
  constructor
  · rintro ⟨id, hindex, hi⟩
    obtain ⟨j, hj, hphysical⟩ := (h.inverse _ _).mp hindex
    obtain rfl : j = i := Option.some.inj (hj.symm.trans hi)
    rw [h.instruction_id id j hi]
    exact ⟨hi, hphysical⟩
  · rintro ⟨hi, hphysical⟩
    exact ⟨i.id, (h.inverse _ _).mpr ⟨i, hi, hphysical⟩, hi⟩

/-- A physical database has one live instruction at most. -/
theorem instruction_unique {s : Store} (h : s.Tabled) {i j : Instruction} {id id' : String}
    (hi : s.instruction? id = some i) (hj : s.instruction? id' = some j)
    (hphysical : i.physicalDatabaseId = j.physicalDatabaseId) : id = id' ∧ i = j := by
  have h1 := (h.inverse i.physicalDatabaseId id).mpr ⟨i, hi, rfl⟩
  have h2 := (h.inverse i.physicalDatabaseId id').mpr ⟨j, hj, hphysical.symm⟩
  obtain rfl : id = id' := Option.some.inj (h1.symm.trans h2)
  exact ⟨rfl, Option.some.inj (hi.symm.trans hj)⟩

/-- A physical database without a live instruction is named by none. -/
theorem physicalDatabaseId_ne {s : Store} (h : s.Tabled) {physicalDatabaseId : String}
    (hnone : s.instructionFor? physicalDatabaseId = none) {id : String} {i : Instruction}
    (hi : s.instruction? id = some i) : i.physicalDatabaseId ≠ physicalDatabaseId := by
  intro hphysical
  have hid := h.instruction_id id i hi
  have := h.instructionFor?_eq_some_iff.mpr ⟨by rwa [hid], hphysical⟩
  rw [hnone] at this
  cases this

/-! ## Writes -/

theorem putPhysical {s : Store} (h : s.Tabled) (p : PhysicalDatabase) : (s.putPhysical p).Tabled := by
  refine ⟨fun id q hq => ?_, h.logical_id, h.instruction_id, h.inverse⟩
  simp only [physical?, Store.putPhysical, KeyMap.get?_insert] at hq
  split at hq
  · rename_i hid
    exact (Option.some.inj hq) ▸ hid
  · exact h.physical_id id q hq

theorem deletePhysical {s : Store} (h : s.Tabled) (id : String) : (s.deletePhysical id).Tabled := by
  refine ⟨fun id' q hq => ?_, h.logical_id, h.instruction_id, h.inverse⟩
  simp only [physical?, Store.deletePhysical, KeyMap.get?_erase] at hq
  split at hq
  · cases hq
  · exact h.physical_id id' q hq

theorem putLogical {s : Store} (h : s.Tabled) (db : LogicalDatabase) : (s.putLogical db).Tabled := by
  rw [putLogical_eq]
  refine ⟨h.physical_id, fun id db' hdb => ?_, h.instruction_id, h.inverse⟩
  simp only [logical?, KeyMap.get?_insert] at hdb
  split at hdb
  · rename_i hid
    exact (Option.some.inj hdb) ▸ hid
  · exact h.logical_id id db' hdb

/-- After a database is acknowledged, it is found as it reads back, and the others as before. -/
theorem logical?_putLogical_acknowledge {s : Store} (h : s.Tabled) {db : LogicalDatabase} {done : Success}
    (hdb : s.logical? done.databaseId = some db) (entry : AdditionalRoles) (id : String) :
    (s.putLogical (db.acknowledge entry done)).logical? id =
      if done.databaseId = id then some (db.acknowledge entry done).reread else s.logical? id := by
  have hid : (db.acknowledge entry done).id = done.databaseId := h.logical_id _ db hdb
  rw [logical?_putLogical, hid]

/-- An instruction may be stored in place of itself, or for a physical database that has none. -/
theorem putInstruction {s : Store} (h : s.Tabled) {i : Instruction}
    (hfree : ∀ id j, s.instruction? id = some j → j.physicalDatabaseId = i.physicalDatabaseId → id = i.id)
    (hsame : ∀ j, s.instruction? i.id = some j → j.physicalDatabaseId = i.physicalDatabaseId) :
    (s.putInstruction i).Tabled := by
  refine ⟨h.physical_id, h.logical_id, fun id j hj => ?_, fun physicalDatabaseId id => ?_⟩
  · simp only [instruction?, Store.putInstruction, KeyMap.get?_insert] at hj
    split at hj
    · rename_i hid
      exact (Option.some.inj hj) ▸ hid
    · exact h.instruction_id id j hj
  · have hinverse := h.inverse physicalDatabaseId id
    simp only [instruction?] at hfree hsame hinverse
    simp only [instruction?, Store.putInstruction, KeyMap.get?_insert]
    by_cases hid : i.id = id
    · subst hid
      by_cases hphysical : i.physicalDatabaseId = physicalDatabaseId
      · simp [hphysical, Instruction.reread]
      · simp only [hphysical, if_false, if_true, Option.some.injEq, exists_eq_left', Instruction.reread, iff_false]
        rw [hinverse]
        rintro ⟨j, hj, hj'⟩
        exact hphysical ((hsame j hj).symm.trans hj')
    · by_cases hphysical : i.physicalDatabaseId = physicalDatabaseId
      · subst hphysical
        simp only [hid, if_true, if_false, Option.some.injEq, false_iff]
        rintro ⟨j, hj, hj'⟩
        exact hid (hfree id j hj hj').symm
      · simpa only [hid, hphysical, if_false] using hinverse

/-- An instruction that is stored may be stored again with other contents. -/
theorem putInstruction_of_stored {s : Store} (h : s.Tabled) {i j : Instruction} (hj : s.instruction? i.id = some j)
    (hphysical : j.physicalDatabaseId = i.physicalDatabaseId) : (s.putInstruction i).Tabled := by
  refine h.putInstruction (fun id k hk hk' => ?_) fun k hk => ?_
  · exact (h.instruction_unique hk hj (hk'.trans hphysical.symm)).1
  · rw [← Option.some.inj (hj.symm.trans hk)]
    exact hphysical

/-- Storing an instruction in place of itself leaves the index alone. -/
theorem putInstruction_eq {s : Store} (h : s.Tabled) {i j : Instruction} (hj : s.instruction? i.id = some j)
    (hphysical : j.physicalDatabaseId = i.physicalDatabaseId) :
    s.putInstruction i = { s with instructions := s.instructions.insert i.id i.reread } := by
  have hindex : s.instructionsByPhysical.get? i.physicalDatabaseId = some i.id := (h.inverse _ _).mpr ⟨j, hj, hphysical⟩
  rw [Store.putInstruction, KeyMap.insert_of_get? hindex]

/-- An instruction that is stored is deleted with its index entry. -/
theorem deleteInstruction_eq {s : Store} (h : s.Tabled) {id : String} {i : Instruction} (hi : s.instruction? id = some i) :
    s.deleteInstruction id =
      { s with
        instructions := s.instructions.erase id
        instructionsByPhysical := s.instructionsByPhysical.erase i.physicalDatabaseId } := by
  have hindex : s.instructionsByPhysical.get? i.physicalDatabaseId = some id := (h.inverse _ _).mpr ⟨i, hi, rfl⟩
  simp only [Store.deleteInstruction, hi, hindex, if_true]

theorem deleteInstruction {s : Store} (h : s.Tabled) (id : String) : (s.deleteInstruction id).Tabled := by
  unfold Store.deleteInstruction
  split
  · exact h
  · rename_i i hi
    refine ⟨h.physical_id, h.logical_id, fun id' j hj => ?_, fun physicalDatabaseId id' => ?_⟩
    · simp only [instruction?, KeyMap.get?_erase] at hj
      split at hj
      · cases hj
      · exact h.instruction_id id' j hj
    · have hindex : s.instructionsByPhysical.get? i.physicalDatabaseId = some id :=
        (h.inverse _ _).mpr ⟨i, hi, rfl⟩
      have hinverse := h.inverse physicalDatabaseId id'
      simp only [instruction?] at hinverse hi
      simp only [hindex, if_true, instruction?, KeyMap.get?_erase]
      by_cases hid : id = id'
      · subst hid
        by_cases hphysical : i.physicalDatabaseId = physicalDatabaseId
        · simp [hphysical]
        · simp only [hphysical, if_false, if_true, reduceCtorEq, false_and, exists_false, iff_false]
          rw [hinverse]
          rintro ⟨j, hj, hj'⟩
          rw [Option.some.inj (hi.symm.trans hj)] at hphysical
          exact hphysical hj'
      · by_cases hphysical : i.physicalDatabaseId = physicalDatabaseId
        · subst hphysical
          simp only [hid, if_true, if_false, reduceCtorEq, false_iff]
          rw [← hinverse, hindex, Option.some.injEq]
          exact hid
        · simpa only [hid, hphysical, if_false] using hinverse

theorem discardMigration {s : Store} (h : s.Tabled) (physicalDatabaseId : String) :
    (s.discardMigration physicalDatabaseId).Tabled := by
  unfold Store.discardMigration
  split
  · exact h.deleteInstruction _
  · exact h

/-- Discarding the migration of a physical database deletes the instruction that names it and no other. -/
theorem instruction?_discardMigration {s : Store} (h : s.Tabled) {physicalDatabaseId id : String} {i : Instruction} :
    (s.discardMigration physicalDatabaseId).instruction? id = some i ↔
      s.instruction? id = some i ∧ i.physicalDatabaseId ≠ physicalDatabaseId := by
  unfold Store.discardMigration
  split
  · rename_i live hlive
    obtain ⟨hstored, hphysical⟩ := h.instructionFor?_eq_some_iff.mp hlive
    rw [instruction?_deleteInstruction]
    constructor
    · intro hi
      split at hi
      · cases hi
      · rename_i hid
        refine ⟨hi, fun heq => hid ?_⟩
        exact (h.instruction_unique hstored hi (hphysical.trans heq.symm)).1
    · rintro ⟨hi, hne⟩
      rw [if_neg]
      · exact hi
      · rintro rfl
        rw [Option.some.inj (hstored.symm.trans hi)] at hphysical
        exact hne hphysical
  · rename_i hnone
    exact ⟨fun hi => ⟨hi, h.physicalDatabaseId_ne hnone hi⟩, fun hi => hi.1⟩

end Tabled

end Store

end DatabaseBroker
