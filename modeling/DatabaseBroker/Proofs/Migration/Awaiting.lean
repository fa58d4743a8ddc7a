import DatabaseBroker.Proofs.Migration.Portions

/-!
# Databases that await roles

A database awaits roles while a live instruction has an entry for it (`Store.Awaits`). It does not begin to while it is archived:
migrations begin with databases that are not, and one that joins is new. But it may be archived meanwhile, as a drop leaves the
entry where it is. So no archived database awaits roles at any point of a history exactly when none is dropped while it awaits
them (`awaited_unarchived_iff`). What every other operation does is one relation between stores, `Store.KeepsAwaited`.
-/

namespace DatabaseBroker

open Store

namespace Instruction

/-- The databases of an instruction without some entries are some of its own. -/
theorem databaseIds_without_subset (i : Instruction) (ids : List String) : (i.without ids).databaseIds ⊆ i.databaseIds :=
  List.map_subset _ List.filter_sublist.subset

/-- An entry adds its database. -/
theorem mem_databaseIds_addEntry {i : Instruction} {e : AdditionalRoles} {id : String} (h : id ∈ (i.addEntry e).databaseIds) :
    id ∈ i.databaseIds ∨ id = e.databaseId := by
  simp only [databaseIds, addEntry, removeEntry, List.map_append, List.mem_append, List.map_cons, List.map_nil,
    List.mem_singleton] at h
  exact h.imp_left fun hkept => (List.eraseP_sublist.map _).subset hkept

end Instruction

namespace Store

variable {s s' s'' : Store} {id : String}

/-- A live instruction has an entry for the database of an id. -/
def Awaits (s : Store) (databaseId : String) : Prop := ∃ id i, s.instruction? id = some i ∧ databaseId ∈ i.databaseIds

/-- The database of an id is stored and not archived. -/
def Unarchived (s : Store) (databaseId : String) : Prop := ∃ db, s.logical? databaseId = some db ∧ db.markedForDrop = false

/-- No database that awaits roles is archived. -/
def AwaitedUnarchived (s : Store) : Prop := ∀ databaseId, s.Awaits databaseId → s.Unarchived databaseId

/-- A database that awaits roles is stored. -/
theorem MigrationsSound.stored_of_awaits (hsound : s.MigrationsSound) (h : s.Awaits id) : ∃ db, s.logical? id = some db := by
  obtain ⟨instructionId, i, hi, hmem⟩ := h
  obtain ⟨e, he, rfl⟩ := List.mem_map.mp hmem
  obtain ⟨db, hdb, -⟩ := (hsound.sound _ instructionId i hi rfl).covers.lacking e he
  exact ⟨db, hdb⟩

/-- Where the table of databases is left alone, they are archived as before. -/
theorem unarchived_congr (hlogicals : s'.logicals = s.logicals) : s'.Unarchived id ↔ s.Unarchived id := by
  rw [Unarchived, Unarchived, logical?, logical?, hlogicals]

/-- Storing a database says whether it is archived, and nothing of the others. -/
theorem unarchived_putLogical {db : LogicalDatabase} :
    (s.putLogical db).Unarchived id ↔ if db.id = id then db.markedForDrop = false else s.Unarchived id := by
  simp only [Unarchived, logical?_putLogical]
  split
  · simp only [Option.some.injEq, exists_eq_left']
    exact Iff.rfl
  · exact Iff.rfl

/-- Storing a database leaves instructions alone. -/
theorem awaits_putLogical {db : LogicalDatabase} : (s.putLogical db).Awaits id ↔ s.Awaits id := by
  rw [putLogical_eq]
  exact Iff.rfl

/-- After an instruction is stored, what awaits roles is of this instruction, or awaited them before. -/
theorem awaits_of_putInstruction {i : Instruction} (h : (s.putInstruction i).Awaits id) : id ∈ i.databaseIds ∨ s.Awaits id := by
  obtain ⟨instructionId, j, hj, hmem⟩ := h
  rw [instruction?_putInstruction] at hj
  split at hj
  · rw [← Option.some.inj hj, Instruction.databaseIds_reread] at hmem
    exact Or.inl hmem
  · exact Or.inr ⟨instructionId, j, hj, hmem⟩

/-! ## What awaits roles is not archived -/

/-- No database was archived from one store to another, and none began to await roles that is archived. -/
structure KeepsAwaited (s s' : Store) : Prop where
  awaits : ∀ id, s'.Awaits id → s.Awaits id ∨ s'.Unarchived id
  unarchived : ∀ id, s.Unarchived id → s'.Unarchived id

/-- So what awaits roles is still not archived. -/
theorem AwaitedUnarchived.of_keepsAwaited (h : s.AwaitedUnarchived) (hkeeps : s.KeepsAwaited s') : s'.AwaitedUnarchived :=
  fun id hawaits => (hkeeps.awaits id hawaits).elim (fun hbefore => hkeeps.unarchived id (h id hbefore)) fun hafter => hafter

namespace KeepsAwaited

theorem refl (s : Store) : s.KeepsAwaited s := ⟨fun _ h => Or.inl h, fun _ h => h⟩

theorem trans (h : s.KeepsAwaited s') (h' : s'.KeepsAwaited s'') : s.KeepsAwaited s'' where
  awaits id hawaits := (h'.awaits id hawaits).elim
    (fun hmid => (h.awaits id hmid).imp_right (h'.unarchived id)) Or.inr
  unarchived id hid := h'.unarchived id (h.unarchived id hid)

/-- What takes instructions only. -/
theorem of_fewer (hlogicals : s'.logicals = s.logicals)
    (hfewer : ∀ id i, s'.instruction? id = some i → s.instruction? id = some i) : s.KeepsAwaited s' where
  awaits := by
    rintro id ⟨instructionId, i, hi, hmem⟩
    exact Or.inl ⟨instructionId, i, hfewer instructionId i hi, hmem⟩
  unarchived _ := (unarchived_congr hlogicals).mpr

/-- What leaves databases and instructions alone. -/
theorem of_same (hlogicals : s'.logicals = s.logicals) (hinstructions : s'.instructions = s.instructions) :
    s.KeepsAwaited s' :=
  of_fewer hlogicals fun id i hi => by rwa [instruction?, ← hinstructions]

theorem deleteInstruction (s : Store) (id : String) : s.KeepsAwaited (s.deleteInstruction id) :=
  of_fewer (SameButRegistry.deleteInstruction s id).logicals fun id' i hi =>
    (SameSite.deleteInstruction s id i.physicalDatabaseId).instructions id' i hi rfl

theorem discardMigration (s : Store) (id : String) : s.KeepsAwaited (s.discardMigration id) :=
  of_fewer (SameButRegistry.discardMigration s id).logicals fun id' i hi =>
    (SameSite.discardMigration s id i.physicalDatabaseId).instructions id' i hi rfl

/-- An instruction is stored whose databases await roles already or are not archived. -/
theorem putInstruction {i : Instruction} (hi : ∀ id ∈ i.databaseIds, s.Awaits id ∨ s.Unarchived id) :
    s.KeepsAwaited (s.putInstruction i) where
  awaits id hawaits := (awaits_of_putInstruction hawaits).elim (hi id) Or.inl
  unarchived _ hid := hid

/-- A later record of an instruction is stored. -/
theorem putInstruction_of_stored {i j : Instruction} {instructionId : String} (hi : s.instruction? instructionId = some i)
    (hids : j.databaseIds ⊆ i.databaseIds) : s.KeepsAwaited (s.putInstruction j) :=
  putInstruction fun _ hid => Or.inl ⟨instructionId, i, hi, hids hid⟩

/-- A database is stored that is new, or archived only if it was. -/
theorem putLogical {db : LogicalDatabase} (hdb : s.Unarchived db.id → db.markedForDrop = false) :
    s.KeepsAwaited (s.putLogical db) where
  awaits id hawaits := Or.inl (awaits_putLogical.mp hawaits)
  unarchived id hid := by
    rw [unarchived_putLogical]
    split
    · rename_i heq
      exact hdb (heq ▸ hid)
    · exact hid

/-- A later record of a stored database is archived only if that is. -/
theorem putLogical_of_stored {db db' : LogicalDatabase} (hdb : s.logical? db'.id = some db)
    (harchived : db'.markedForDrop = db.markedForDrop) : s.KeepsAwaited (s.putLogical db') := by
  refine putLogical ?_
  rintro ⟨db₀, hdb₀, hlive⟩
  rw [harchived, Option.some.inj (hdb.symm.trans hdb₀), hlive]

end KeepsAwaited

/-! ## Operations -/

namespace MigrationsSound

variable {now : UInt64} {size : Nat} {name : String}

/-- A decision begins a migration with databases that are not archived. -/
theorem keepsAwaited_of_decide (hsound : s.MigrationsSound) {dbType : String} {r : Registration}
    {outcome : RegistrationOutcome} (hok : s.decide now name size id dbType r = .ok (outcome, s')) : s.KeepsAwaited s' := by
  obtain ⟨-, hanswered⟩ := hsound.answered_of_decide hok
  cases hanswered with
  | created => exact .of_same (by rfl) (by rfl)
  | kept =>
    simp only [keepRegistered]
    split
    · exact .deleteInstruction s _
    · exact .refl s
  | updated => exact (KeepsAwaited.discardMigration s _).trans (.of_same (by rfl) (by rfl))
  | resumed hstored hroles hmultiusers hlive hnamed hsame hj =>
    subst hj
    exact .putInstruction_of_stored hlive (List.Subset.refl _)
  | begun hstored hroles hmultiusers hneeds hpending hj =>
    subst hj hneeds
    refine (KeepsAwaited.discardMigration s _).trans (.putInstruction fun id' hid' => Or.inr ?_)
    have hids := (s.needsOn_ids_sublist _ _).subset hid'
    obtain ⟨db, hdb, rfl⟩ := List.mem_map.mp hids
    obtain ⟨⟨id₀, hid₀⟩, -, hlive⟩ := mem_logicalsOn_iff.mp hdb
    refine (unarchived_congr (SameButRegistry.discardMigration s _).logicals).mpr ⟨db, ?_, hlive⟩
    rw [hsound.tabled.logical_id id₀ db hid₀, hid₀]

/-- An acknowledgement archives nothing and adds no entries. -/
theorem keepsAwaited_of_acknowledged (hsound : s.MigrationsSound) {physicalDatabaseId instructionId : String}
    {ack : Acknowledgement} {answer : Except RegistryError MigrationStep}
    (hcase : s.Acknowledged now size physicalDatabaseId instructionId ack answer s') : s.KeepsAwaited s' := by
  cases hcase with
  | unknown => exact .refl s
  | failed => exact .deleteInstruction s instructionId
  | @applied i i' s₁ s' step hlive hp hfailure happly hadvance =>
    obtain rfl : i.id = instructionId := hsound.tabled.instruction_id _ _ hlive
    have hadvanced := hsound.advanced hlive happly hadvance
    refine ⟨fun id hawaits => Or.inl ?_, fun id hid => ?_⟩
    · obtain ⟨id', j, hj, hmem⟩ := hawaits
      by_cases hentries : (i.without (ack.successes.map (·.databaseId))).entries = []
      · obtain ⟨-, -, -, -, -, -, hinstructions, -⟩ := hadvanced.completed hentries
        simp only [instruction?, hinstructions, KeyMap.get?_erase] at hj
        split at hj
        · cases hj
        · exact ⟨id', j, hj, hmem⟩
      · obtain ⟨-, -, hinstructions, -⟩ := hadvanced.pending _ rfl hentries
        simp only [instruction?, hinstructions, KeyMap.get?_insert] at hj
        split at hj
        · rw [← Option.some.inj hj, Instruction.databaseIds_reread] at hmem
          exact ⟨i.id, i, hlive, i.databaseIds_without_subset _ hmem⟩
        · exact ⟨id', j, hj, hmem⟩
    · by_cases hdone : id ∈ ack.successes.map (·.databaseId)
      · obtain ⟨d, hd, rfl⟩ := List.mem_map.mp hdone
        obtain ⟨e, -, db, -, hdb, -, hwritten⟩ := hadvanced.gained d hd
        obtain ⟨db₀, hdb₀, hdrop⟩ := hid
        obtain rfl : db = db₀ := Option.some.inj (hdb.symm.trans hdb₀)
        exact ⟨_, hwritten, hdrop⟩
      · rwa [Unarchived, hadvanced.untouched id hdone]

/-- A request for a database archives nothing, and what joins a migration is new. -/
theorem keepsAwaited_of_bound (hsound : s.MigrationsSound) {r : DatabaseRequest} {outcome : BindingOutcome}
    (hcase : s.Bound now id r outcome s') : s.KeepsAwaited s' := by
  rcases hcase.cases_on_created with
    ⟨-, rfl | ⟨c, db, ⟨id', hdb⟩, rfl⟩⟩ | ⟨-, a, target, applied, -, -, -, -, rfl⟩
  · exact .refl _
  · obtain rfl : db.id = id' := hsound.tabled.logical_id _ _ hdb
    have hstored : s.logical? (db.upgrade c).id = some db := hdb
    exact .putLogical_of_stored hstored rfl
  · let db := LogicalDatabase.make id now r.dbType a target
    have htabled : (s.putLogical db).Tabled := hsound.tabled.putLogical db
    have hmade : (s.putLogical db).Unarchived db.id := unarchived_putLogical.mpr (by rw [if_pos rfl]; rfl)
    have hput : s.KeepsAwaited (s.putLogical db) := .putLogical fun _ => rfl
    refine hput.trans ?_
    change (s.putLogical db).KeepsAwaited ((s.putLogical db).joinMigration now db)
    unfold joinMigration
    split
    · exact .refl _
    · rename_i i hlive
      obtain ⟨hi, -⟩ := htabled.instructionFor?_eq_some_iff.mp hlive
      dsimp only
      split
      · exact .refl _
      · refine .putInstruction fun id' hid' => ?_
        rcases Instruction.mem_databaseIds_addEntry hid' with hmem | rfl
        · exact Or.inl ⟨i.id, i, hi, hmem⟩
        · exact Or.inr hmade

/-- Asking for a portion changes no entries. -/
theorem keepsAwaited_of_nextPortion (hsound : s.MigrationsSound) {instructionId : String} {step : MigrationStep}
    (hok : s.nextPortion now size instructionId = .ok (step, s')) : s.KeepsAwaited s' := by
  obtain ⟨i, hi, hadvance⟩ := nextPortion_eq_ok hok
  rw [advance_of_pending (hsound.sound _ instructionId i hi rfl).pending] at hadvance
  cases hadvance
  exact .putInstruction_of_stored hi (List.Subset.refl _)

end MigrationsSound

/-- A deregistration takes one instruction at most. -/
theorem keepsAwaited_of_deregister {rules : Nat} (hok : s.deregister id = .ok (rules, s')) : s.KeepsAwaited s' := by
  obtain ⟨p, -, -, -, rfl⟩ := deregister_eq_ok hok
  have hrules := s.sameButRules_removeRulesTo id
  exact (KeepsAwaited.of_same hrules.logicals hrules.instructions).trans
    ((KeepsAwaited.discardMigration _ id).trans (.of_same (by rfl) (by rfl)))

/-- Setting the global flag changes no database that could await roles. -/
theorem keepsAwaited_of_setGlobal {now : UInt64} {p : PhysicalDatabase} (hok : s.setGlobal now id = .ok (p, s')) :
    s.KeepsAwaited s' := by
  obtain ⟨p, -, rfl⟩ := setGlobal_eq_ok hok
  rcases s.clearGlobal_cases now p.dbType id with heq | ⟨other, -, heq⟩
  · exact .of_same (by rw [heq]; rfl) (by rw [heq]; rfl)
  · exact .of_same (by rw [heq]; rfl) (by rw [heq]; rfl)

end Store

namespace Broker

variable {env : Surroundings} {b b' : Broker} {now : UInt64}

/-- No operation but a drop archives a database, and none makes an archived one await roles. -/
theorem Effect.keepsAwaited {op : Operation} (heffect : b.Effect env now op b') (hconsistent : b.Consistent env)
    (hop : ∀ id, op ≠ .drop id) : b.store.KeepsAwaited b'.store := by
  have hsound := hconsistent.migrations
  cases heffect with
  | nothing => exact .refl _
  | checked => exact .refl _
  | undecided => exact .refl _
  | decided hok => exact hsound.keepsAwaited_of_decide hok
  | acknowledged hcase => exact hsound.keepsAwaited_of_acknowledged hcase
  | continued hok => exact hsound.keepsAwaited_of_nextPortion hok
  | madeGlobal hok => exact keepsAwaited_of_setGlobal hok
  | deregistered hok => exact keepsAwaited_of_deregister hok
  | bound hok => exact hsound.keepsAwaited_of_bound (bound_of_getOrCreate hok)
  | dropped => exact absurd rfl (hop _)
  | ruled hsame => exact .of_same hsame.logicals hsame.instructions
  | grouped => exact .of_same rfl rfl
  | ungrouped => exact .of_same rfl rfl

/-- Dropping a database that awaits no roles archives none that does. -/
theorem awaitedUnarchived_drop (hconsistent : b.Consistent env) (h : b.store.AwaitedUnarchived) {id : String}
    (hidle : ¬ b.store.Awaits id) : (b.run env now (.drop id)).store.AwaitedUnarchived := by
  refine keep_invariant (P := fun b => b.store.AwaitedUnarchived) h fun out s hok => ?_
  obtain ⟨db, hdb, rfl⟩ := markForDrop_eq_ok hok
  have hid : db.id = id := hconsistent.migrations.tabled.logical_id id db hdb
  intro id' hawaits
  have hbefore : b.store.Awaits id' := awaits_putLogical.mp hawaits
  refine unarchived_putLogical.mpr ?_
  rw [if_neg (show ¬ db.id = id' from fun heq => hidle (hid.symm.trans heq ▸ hbefore))]
  exact h id' hbefore

/-- Dropping a database that awaits roles leaves an archived one that does. -/
theorem not_awaitedUnarchived_drop (hconsistent : b.Consistent env) {id : String} (hawaits : b.store.Awaits id) :
    ¬ (b.run env now (.drop id)).store.AwaitedUnarchived := by
  obtain ⟨db, hdb⟩ := hconsistent.migrations.stored_of_awaits hawaits
  have hid : db.id = id := hconsistent.migrations.tabled.logical_id id db hdb
  have hrun : (b.run env now (.drop id)).store = b.store.putLogical { db with markedForDrop := true } := by
    simp only [run, keep, markForDrop, getLogical, hdb]
    rfl
  rw [hrun]
  intro hafter
  have hlive := unarchived_putLogical.mp (hafter id (awaits_putLogical.mpr hawaits))
  rw [if_pos (show ({ db with markedForDrop := true } : LogicalDatabase).id = id from hid)] at hlive
  cases hlive

/-- An operation keeps databases that await roles from being archived exactly when it does not drop one. -/
theorem awaitedUnarchived_run_iff (hconsistent : b.Consistent env) (h : b.store.AwaitedUnarchived) (op : Operation) :
    (b.run env now op).store.AwaitedUnarchived ↔ ∀ id, op = .drop id → ¬ b.store.Awaits id := by
  constructor
  · rintro hafter id rfl hawaits
    exact not_awaitedUnarchived_drop hconsistent hawaits hafter
  · intro hidle
    by_cases hop : ∃ id, op = .drop id
    · obtain ⟨id, rfl⟩ := hop
      exact awaitedUnarchived_drop hconsistent h (hidle id rfl)
    · exact h.of_keepsAwaited ((b.effect env now op).keepsAwaited hconsistent fun id heq => hop ⟨id, heq⟩)

end Broker

/-- No database that awaits roles is archived at any point of a history exactly when none is dropped while it awaits them. -/
theorem awaited_unarchived_iff (env : Surroundings) (events : List Event) :
    (∀ before after, events = before ++ after → (replay env before).store.AwaitedUnarchived) ↔
      ∀ before e after, events = before ++ e :: after → ∀ id, e.operation = .drop id →
        ¬ (replay env before).store.Awaits id := by
  have hstart : Broker.start.store.AwaitedUnarchived := by
    rintro id ⟨instructionId, i, hi, -⟩
    simp [Broker.start, instruction?, Store.empty] at hi
  exact runAll_throughout_iff (b := .start) (P := fun b => b.store.AwaitedUnarchived)
    (Q := fun b e => ∀ id, e.operation = .drop id → ¬ b.store.Awaits id) hstart fun before e _ _ h =>
      Broker.awaitedUnarchived_run_iff (Broker.consistent_replay env before) h e.operation

end DatabaseBroker
