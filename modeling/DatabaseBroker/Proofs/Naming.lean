import DatabaseBroker.Proofs.Effects
import DatabaseBroker.Proofs.Store.Tabled

/-!
# Names are given once

Surroundings give no name twice, and a broker counts how many it was given. `Broker.Named` says that every database and every
instruction has one of the names given so far, so the next name is free. Most operations make no record
(`Store.NoNewNames`); a request may make a database and a decision an instruction, each under the next name.
-/

namespace DatabaseBroker

namespace Store

/-- Databases and instructions of the second store stand under ids of the first. -/
structure NoNewNames (s s' : Store) : Prop where
  logicals : ∀ id, (s'.logical? id).isSome → (s.logical? id).isSome
  instructions : ∀ id, (s'.instruction? id).isSome → (s.instruction? id).isSome

namespace NoNewNames

theorem refl (s : Store) : NoNewNames s s := ⟨fun _ h => h, fun _ h => h⟩

theorem trans {s s' s'' : Store} (h : NoNewNames s s') (h' : NoNewNames s' s'') : NoNewNames s s'' :=
  ⟨fun id hid => h.logicals id (h'.logicals id hid), fun id hid => h.instructions id (h'.instructions id hid)⟩

/-- Tables that are the same hold the same names. -/
theorem of_tables {s s' : Store} (hlogicals : s'.logicals = s.logicals) (hinstructions : s'.instructions = s.instructions) :
    NoNewNames s s' :=
  ⟨fun id hid => by simpa only [logical?, hlogicals] using hid,
    fun id hid => by simpa only [instruction?, hinstructions] using hid⟩

theorem of_sameRecords {s s' : Store} (h : SameRecords s s') : NoNewNames s s' := of_tables h.logicals h.instructions

/-- A database that is stored may be stored again. -/
theorem putLogical {s : Store} {db : LogicalDatabase} (hdb : (s.logical? db.id).isSome) :
    NoNewNames s (s.putLogical db) := by
  refine ⟨fun id hid => ?_, fun id hid => ?_⟩
  · rw [logical?_putLogical] at hid
    split at hid
    · rename_i heq
      exact heq ▸ hdb
    · exact hid
  · rw [putLogical_eq] at hid
    exact hid

/-- An instruction that is stored may be stored again. -/
theorem putInstruction {s : Store} {i : Instruction} (hi : (s.instruction? i.id).isSome) :
    NoNewNames s (s.putInstruction i) := by
  refine ⟨fun _ hid => hid, fun id hid => ?_⟩
  simp only [instruction?, Store.putInstruction, KeyMap.get?_insert] at hid
  split at hid
  · rename_i heq
    exact heq ▸ hi
  · exact hid

theorem deleteInstruction (s : Store) (id : String) : NoNewNames s (s.deleteInstruction id) := by
  refine ⟨fun id' hid => ?_, fun id' hid => ?_⟩
  · obtain ⟨_, h⟩ := s.deleteInstruction_eq id
    rw [h] at hid
    exact hid
  · rw [instruction?_deleteInstruction] at hid
    split at hid
    · cases hid
    · exact hid

theorem discardMigration (s : Store) (id : String) : NoNewNames s (s.discardMigration id) := by
  unfold Store.discardMigration
  split
  · exact deleteInstruction s _
  · exact refl s

/-- A database joins a migration that is there. -/
theorem joinMigration {s : Store} (h : s.Tabled) (now : UInt64) (db : LogicalDatabase) :
    NoNewNames s (s.joinMigration now db) := by
  unfold Store.joinMigration
  split
  · exact refl s
  · rename_i i hlive
    have hi : s.instruction? i.id = some i := (h.instructionFor?_eq_some_iff.mp hlive).1
    dsimp only
    split
    · exact refl s
    · refine putInstruction ?_
      simp [Instruction.addEntry, Instruction.removeEntry, hi]

/-- Going on with an instruction that is stored names nothing new. -/
theorem advance {s s' : Store} {now : UInt64} {size : Nat} {i : Instruction} {step : MigrationStep}
    (hi : (s.instruction? i.id).isSome) (h : s.advance now size i = (step, s')) : NoNewNames s s' := by
  by_cases hentries : i.entries = []
  · rw [advance_of_done hentries] at h
    cases h
    have hput : NoNewNames s (s.putPhysical (s.completedTarget now i.target)) := of_tables rfl rfl
    exact hput.trans (deleteInstruction _ i.id)
  · rw [advance_of_pending hentries] at h
    cases h
    exact putInstruction hi

/-- Recording successes names nothing new. -/
theorem applySuccesses {s s' : Store} {i i' : Instruction} {done : List Success} (h : s.Tabled)
    (hok : Store.applySuccesses i s done = .ok (i', s')) : NoNewNames s s' := by
  refine (applySuccesses_invariant (P := fun s' => s'.Tabled ∧ NoNewNames s s') ?_ ⟨h, refl s⟩ hok).2
  rintro s₁ db entry d ⟨htabled, hnames⟩ hdb
  refine ⟨htabled.putLogical _, hnames.trans (putLogical ?_)⟩
  have hid : db.id = d.databaseId := htabled.logical_id _ _ hdb
  have hstored : (s₁.logical? db.id).isSome := by rw [hid, hdb]; rfl
  exact hstored

/-- Recording successes leaves the instructions and the id of the one that is carried along. -/
theorem instruction_of_applySuccesses {s s' : Store} {i i' : Instruction} {done : List Success}
    (hok : Store.applySuccesses i s done = .ok (i', s')) : s'.instructions = s.instructions ∧ i'.id = i.id := by
  induction done generalizing i s with
  | nil =>
    cases hok
    exact ⟨rfl, rfl⟩
  | cons d rest ih =>
    rw [applySuccesses_cons] at hok
    split at hok
    · rename_i i₁ s₁ hone
      obtain ⟨entry, -, db, -, -, rfl, rfl⟩ := applySuccess_eq_ok hone
      obtain ⟨hinstructions, hid⟩ := ih hok
      rw [hinstructions, hid, putLogical_eq]
      exact ⟨rfl, rfl⟩
    · cases hok

/-- An acknowledgement names nothing new, whatever it comes to. -/
theorem acknowledge {s s' : Store} {now : UInt64} {size : Nat} {physicalDatabaseId instructionId : String}
    {ack : Acknowledgement} {answer : Except RegistryError MigrationStep} (h : s.Tabled)
    (hcase : s.Acknowledged now size physicalDatabaseId instructionId ack answer s') : NoNewNames s s' := by
  cases hcase with
  | unknown => exact refl s
  | failed => exact deleteInstruction s instructionId
  | @applied i i' s₁ s' step hlive hp hfailure happly hadvance =>
    obtain ⟨hinstructions, hid⟩ := instruction_of_applySuccesses happly
    have hstored : s₁.instruction? i'.id = some i := by
      rw [hid, h.instruction_id _ i hlive, instruction?, hinstructions]
      exact hlive
    refine (applySuccesses h happly).trans (advance ?_ hadvance)
    simp [hstored]

end NoNewNames

end Store

namespace Broker

open Store

variable {env : Surroundings} {b : Broker}

/-- Every database and every instruction has a name that was given. -/
structure Named (env : Surroundings) (b : Broker) : Prop where
  logicals : ∀ id, (b.store.logical? id).isSome → ∃ n < b.names.logicals, env.logicalName n = id
  instructions : ∀ id, (b.store.instruction? id).isSome → ∃ n < b.names.instructions, env.instructionName n = id

namespace Named

/-- No database has the name that is given next. -/
theorem logical?_next (h : b.Named env) : b.store.logical? (env.logicalName b.names.logicals) = none := by
  refine Option.not_isSome_iff_eq_none.mp fun hsome => ?_
  obtain ⟨n, hn, heq⟩ := h.logicals _ hsome
  exact absurd (env.logicalName_injective heq) (by omega)

/-- No instruction has the name that is given next. -/
theorem instruction?_next (h : b.Named env) : b.store.instruction? (env.instructionName b.names.instructions) = none := by
  refine Option.not_isSome_iff_eq_none.mp fun hsome => ?_
  obtain ⟨n, hn, heq⟩ := h.instructions _ hsome
  exact absurd (env.instructionName_injective heq) (by omega)

/-- A store with no new names keeps what was given, whatever is given meanwhile. -/
theorem of_noNewNames (h : b.Named env) {s : Store} (hs : NoNewNames b.store s) {names : NameSupply} {awaiting : List Handshake}
    (hlogicals : b.names.logicals ≤ names.logicals) (hinstructions : b.names.instructions ≤ names.instructions) :
    Named env ⟨s, names, awaiting⟩ := by
  refine ⟨fun id hid => ?_, fun id hid => ?_⟩
  · obtain ⟨n, hn, heq⟩ := h.logicals id (hs.logicals id hid)
    exact ⟨n, Nat.lt_of_lt_of_le hn hlogicals, heq⟩
  · obtain ⟨n, hn, heq⟩ := h.instructions id (hs.instructions id hid)
    exact ⟨n, Nat.lt_of_lt_of_le hn hinstructions, heq⟩

theorem withStore (h : b.Named env) {s : Store} (hs : NoNewNames b.store s) : (b.withStore s).Named env :=
  h.of_noNewNames hs (Nat.le_refl _) (Nat.le_refl _)

/-- A request makes a database under the next name, or none. -/
theorem bound (h : b.Named env) (htabled : b.store.Tabled) {now : UInt64} {r : DatabaseRequest} {outcome : BindingOutcome}
    {s : Store} (hcase : b.store.Bound now (env.logicalName b.names.logicals) r outcome s) :
    Named env { b with
      store := s
      names := if ControlPlane.BindingOutcome.isCreated outcome then
        { b.names with logicals := b.names.logicals + 1 } else b.names } := by
  rcases hcase.cases_on_created with
    ⟨hcreated, rfl | ⟨c, db, ⟨id, hdb⟩, rfl⟩⟩ | ⟨hcreated, a, target, applied, -, -, -, -, rfl⟩
  · simp only [hcreated]
    exact h
  · simp only [hcreated]
    have hid : db.id = id := htabled.logical_id id db hdb
    have hstored : (b.store.logical? db.id).isSome := by rw [hid, hdb]; rfl
    exact h.withStore (NoNewNames.putLogical hstored)
  · simp only [hcreated, if_true]
    let db := LogicalDatabase.make (env.logicalName b.names.logicals) now r.dbType a target
    have hput : Named env ⟨b.store.putLogical db, { b.names with logicals := b.names.logicals + 1 }, b.awaiting⟩ := by
      refine ⟨fun id hid => ?_, fun id hid => ?_⟩
      · simp only [logical?_putLogical] at hid
        split at hid
        · rename_i heq
          exact ⟨b.names.logicals, Nat.lt_succ_self _, heq⟩
        · obtain ⟨n, hn, heq⟩ := h.logicals id hid
          exact ⟨n, Nat.lt_succ_of_lt hn, heq⟩
      · simp only [putLogical_eq] at hid
        exact h.instructions id hid
    exact hput.withStore (.joinMigration (htabled.putLogical db) now db)

/-- A decision makes an instruction under the next name, or none. -/
theorem decided (h : b.Named env) (htabled : b.store.Tabled) {now : UInt64} {handshake : Handshake}
    {outcome : RegistrationOutcome} {s : Store} {awaiting : List Handshake}
    (hok : b.store.decide now (env.instructionName b.names.instructions) env.portionSize handshake.id handshake.dbType
      handshake.registration = .ok (outcome, s)) :
    Named env ⟨s, if ControlPlane.RegistrationOutcome.isMigrationStart outcome then
      { b.names with instructions := b.names.instructions + 1 } else b.names, awaiting⟩ := by
  obtain ⟨-, hdecided⟩ := decided_of_decide hok
  -- A decision that makes no instruction may count one all the same: what was given before stays given.
  have hkeep : NoNewNames b.store s → Named env ⟨s, if ControlPlane.RegistrationOutcome.isMigrationStart outcome then
      { b.names with instructions := b.names.instructions + 1 } else b.names, awaiting⟩ := by
    intro hs
    refine h.of_noNewNames hs ?_ ?_
    · split <;> exact Nat.le_refl _
    · split
      · exact Nat.le_succ _
      · exact Nat.le_refl _
  cases hdecided with
  | created hnew => exact hkeep (.of_tables rfl rfl)
  | @kept current hstored hagrees =>
    refine hkeep ?_
    simp only [keepRegistered]
    split
    · exact .deleteInstruction b.store _
    · exact .refl b.store
  | updated hstored hdiffers hdirect hbefore =>
    rcases hbefore with rfl | rfl
    · exact hkeep (.trans (.discardMigration b.store _) (.of_tables rfl rfl))
    · exact hkeep (.trans (.trans (.discardMigration b.store _) (.discardMigration _ _)) (.of_tables rfl rfl))
  | @resumed current live hstored hdiffers hroles hmultiusers hlive hsame i hi outcome s hissue =>
    have hi' : b.store.instruction? i.id = some live := by
      rw [hi]
      exact (htabled.instructionFor?_eq_some_iff.mp hlive).1
    have hput : NoNewNames b.store (b.store.putInstruction i) := .putInstruction (by rw [hi']; rfl)
    obtain ⟨step, hadvance⟩ := issue_eq hissue
    refine hkeep (hput.trans (.advance ?_ hadvance))
    simp [instruction?, putInstruction]
  | @begun current hstored hdiffers hroles hmultiusers hneeds i hi outcome s hissue =>
    have hentries : i.entries ≠ [] := by
      rw [hi]
      exact hneeds
    have hdiscard := NoNewNames.discardMigration b.store (current.declare now handshake.registration).id
    rw [issue_of_pending hentries] at hissue
    cases hissue
    rw [putInstruction_putInstruction _ (by rfl) (by rfl)]
    refine ⟨fun id hid => ?_, fun id hid => ?_⟩
    · exact h.logicals id (hdiscard.logicals id hid)
    · simp only [instruction?, putInstruction, KeyMap.get?_insert] at hid
      split at hid
      · rename_i heq
        subst hi
        exact ⟨b.names.instructions, Nat.lt_succ_self _, heq⟩
      · obtain ⟨n, hn, heq⟩ := h.instructions id (hdiscard.instructions id hid)
        exact ⟨n, Nat.lt_succ_of_lt hn, heq⟩

/-- Each operation keeps records under names that were given. -/
theorem effect {b' : Broker} {now : UInt64} {op : Operation} (h : b.Named env) (htabled : b.store.Tabled)
    (heffect : b.Effect env now op b') : b'.Named env := by
  cases heffect with
  | nothing => exact h
  | checked => exact h.of_noNewNames (.refl _) (Nat.le_refl _) (Nat.le_refl _)
  | undecided => exact h.of_noNewNames (.refl _) (Nat.le_refl _) (Nat.le_refl _)
  | decided hok => exact h.decided htabled hok
  | acknowledged hcase => exact h.withStore (.acknowledge htabled hcase)
  | @continued instructionId step s hok =>
    obtain ⟨i, hi, hadvance⟩ := nextPortion_eq_ok hok
    have hid : i.id = instructionId := htabled.instruction_id _ i hi
    exact h.withStore (.advance (by rw [hid, hi]; rfl) hadvance)
  | madeGlobal hok =>
    obtain ⟨p, -, rfl⟩ := setGlobal_eq_ok hok
    rcases b.store.clearGlobal_cases now p.dbType _ with heq | ⟨other, -, heq⟩
    · rw [heq]
      exact h.withStore (.of_tables rfl rfl)
    · rw [heq]
      exact h.withStore (.of_tables rfl rfl)
  | @deregistered id rules s hok =>
    obtain ⟨p, -, -, -, rfl⟩ := deregister_eq_ok hok
    have hrules := NoNewNames.of_sameRecords (b.store.sameButRules_removeRulesTo id).toSameRecords
    exact h.withStore ((hrules.trans (.discardMigration _ _)).trans (.of_tables rfl rfl))
  | bound hok => exact h.bound htabled (bound_of_getOrCreate hok)
  | @dropped id out s hok =>
    obtain ⟨db, hdb, rfl⟩ := markForDrop_eq_ok hok
    have hid : db.id = id := htabled.logical_id _ db hdb
    have hstored : (b.store.logical? db.id).isSome := by rw [hid, hdb]; rfl
    exact h.withStore (.putLogical hstored)
  | ruled hsame => exact h.withStore (.of_sameRecords hsame.toSameRecords)
  | grouped => exact h.withStore (.of_tables rfl rfl)
  | ungrouped => exact h.withStore (.of_tables rfl rfl)

end Named

end Broker

end DatabaseBroker
