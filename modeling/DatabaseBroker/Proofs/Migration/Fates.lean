import DatabaseBroker.Proofs.Migration.Acknowledgement
import DatabaseBroker.Proofs.Registration.AdapterAddresses

/-!
# What becomes of an instruction and of a physical database

`Instruction.Fate` lists what one operation makes of the instruction of an id, and `PhysicalDatabase.Fate` what it makes of the
physical database of an id: most operations keep both, and the others say by whose doing a record changed. Each operation on a
consistent broker leaves one of these fates for every id (`Broker.Effect.instruction_fate`, `Broker.Effect.physical_fate`), so a
statement about one migration over a whole history goes case by case over fates and not over operations.
-/

namespace DatabaseBroker

open Store

/-- What an operation at a time makes of the instruction of the id `id`, where a new instruction would be named `name`. -/
inductive Instruction.Fate (s : Store) (size : Nat) (now : UInt64) (name id : String) :
    Option Instruction → Operation → Option Instruction → Prop where
  | kept {found : Option Instruction} {op : Operation} : Fate s size now name id found op found
  /-- A handshake begins a migration, and the first entries are handed out. -/
  | begun {h : Handshake} {p : PhysicalDatabase} {entries : List AdditionalRoles} (hid : id = name)
      (hp : s.physical? h.id = some p) (hpending : entries ≠ []) :
      Fate s size now name id none (.decide h)
        (some ((onto id now (p.declare now h.registration) entries).handOut now (entries.take size)).reread)
  /-- A handshake declares the roles of the target again, and the portion is handed out again. -/
  | resumed {i : Instruction} {h : Handshake} {p : PhysicalDatabase} (hid : h.id = i.physicalDatabaseId)
      (hp : s.physical? h.id = some p) (hroles : i.target.metadata.roleSet = h.registration.metadata.roleSet) :
      Fate s size now name id (some i) (.decide h)
        (some ((i.retarget now (p.declare now h.registration)).handOut now (i.nextPortion size)).reread)
  /-- A handshake ends the migration. -/
  | superseded {i : Instruction} {h : Handshake} (hid : h.id = i.physicalDatabaseId) :
      Fate s size now name id (some i) (.decide h) none
  /-- A new database joins as the last entry. -/
  | joined {i : Instruction} {call : DatabaseCall} {e : AdditionalRoles} :
      Fate s size now name id (some i) (.getOrCreate call)
        (some { i with entries := i.entries ++ [e], updatedAt := now : Instruction }.reread)
  /-- The portion is handed out again. -/
  | continued {i : Instruction} :
      Fate s size now name id (some i) (.nextPortion id) (some (i.handOut now (i.nextPortion size)).reread)
  /-- Entries are acknowledged, and the first of those that are left are handed out. -/
  | advanced {i j : Instruction} {ack : Acknowledgement} (hj : j = i.without (ack.successes.map (·.databaseId)))
      (hpending : j.entries ≠ []) :
      Fate s size now name id (some i) (.acknowledge i.physicalDatabaseId id ack)
        (some (j.handOut now (j.entries.take size)).reread)
  /-- The acknowledgement completes the migration, or the migration fails. -/
  | ended {i : Instruction} {ack : Acknowledgement} :
      Fate s size now name id (some i) (.acknowledge i.physicalDatabaseId id ack) none
  | deregistered {i : Instruction} : Fate s size now name id (some i) (.deregister i.physicalDatabaseId) none

/-- What an operation at a time makes of the physical database of the id `id`. -/
inductive PhysicalDatabase.Fate (env : Surroundings) (b : Broker) (now : UInt64) (id : String) :
    Option PhysicalDatabase → Operation → Option PhysicalDatabase → Prop where
  | kept {found : Option PhysicalDatabase} {op : Operation} : Fate env b now id found op found
  | registered {h : Handshake} {global : Bool} (hid : h.id = id) :
      Fate env b now id none (.decide h) (some (register id h.dbType global now h.registration))
  /-- A handshake stores its declaration in place. -/
  | declared {p : PhysicalDatabase} {h : Handshake} (hid : h.id = id) :
      Fate env b now id (some p) (.decide h) (some (p.declare now h.registration))
  /-- The global flag is given or taken. -/
  | flagged {p : PhysicalDatabase} {id' : String} {global : Bool} :
      Fate env b now id (some p) (.setGlobal id') (some { p with global := global, updatedAt := now })
  /-- The target of a migration takes its place. -/
  | completed {p target : PhysicalDatabase} {i : Instruction} {ack : Acknowledgement}
      (hi : b.store.instruction? i.id = some i) (hp : i.physicalDatabaseId = id)
      (htarget : target = { i.target with global := p.global, registeredAt := p.registeredAt, updatedAt := now })
      (hcompletes : b.completes env now (.acknowledge id i.id ack) = some target) :
      Fate env b now id (some p) (.acknowledge id i.id ack) (some target)
  | deregistered {p : PhysicalDatabase} : Fate env b now id (some p) (.deregister id) none

/-- An entry of a database that has none is added at the end. -/
theorem Instruction.addEntry_of_new {i : Instruction} {e : AdditionalRoles}
    (h : ∀ e' ∈ i.entries, e'.databaseId ≠ e.databaseId) : i.addEntry e = { i with entries := i.entries ++ [e] } := by
  have hkept : i.entries.eraseP (·.databaseId = e.databaseId) = i.entries :=
    List.eraseP_of_forall_not fun e' he' => by simpa using h e' he'
  simp only [addEntry, removeEntry, hkept]

namespace Store

variable {s s' : Store}

/-- After an instruction is stored, it is found as it reads back, and the others as before. -/
theorem instruction?_putInstruction (s : Store) (i : Instruction) (id : String) :
    (s.putInstruction i).instruction? id = if i.id = id then some i.reread else s.instruction? id := by
  simp only [instruction?, putInstruction, KeyMap.get?_insert]

/-- After a physical database is stored, it is found, and the others as before. -/
theorem physical?_putPhysical (s : Store) (p : PhysicalDatabase) (id : String) :
    (s.putPhysical p).physical? id = if p.id = id then some p else s.physical? id := by
  simp only [physical?, putPhysical, KeyMap.get?_insert]

/-- Discarding the migration of a physical database takes the instruction that names it and no other. -/
theorem Tabled.instruction?_discardMigration_eq (h : s.Tabled) (physicalDatabaseId id : String) :
    (s.discardMigration physicalDatabaseId).instruction? id =
      (s.instruction? id).filter (·.physicalDatabaseId ≠ physicalDatabaseId) := by
  refine Option.ext fun i => ?_
  rw [h.instruction?_discardMigration, Option.filter_eq_some_iff, decide_eq_true_eq]

variable {size : Nat} {now : UInt64} {name id : String}

/-- Where the table of instructions is left alone, each of them is kept. -/
theorem fate_of_same {op : Operation} (hsame : s'.instructions = s.instructions) :
    Instruction.Fate s size now name id (s.instruction? id) op (s'.instruction? id) := by
  rw [instruction?, instruction?, hsame]
  exact .kept

/-- Where the migration of a physical database was discarded, the instruction that names it has ended and the others are
kept. -/
theorem fate_of_discarded {op : Operation} {physicalDatabaseId : String}
    (hended : ∀ i : Instruction, i.physicalDatabaseId = physicalDatabaseId →
      Instruction.Fate s size now name id (some i) op none)
    (hfound : s'.instruction? id = (s.instruction? id).filter (·.physicalDatabaseId ≠ physicalDatabaseId)) :
    Instruction.Fate s size now name id (s.instruction? id) op (s'.instruction? id) := by
  rw [hfound]
  cases hi : s.instruction? id with
  | none => exact .kept
  | some i =>
    by_cases hp : i.physicalDatabaseId = physicalDatabaseId
    · simp only [Option.filter_some, hp, ne_eq, not_true_eq_false, decide_false, Bool.false_eq_true, if_false]
      exact hended i hp
    · simp only [Option.filter_some, ne_eq, hp, not_false_eq_true, decide_true, if_true]
      exact .kept

/-- An acknowledgement comes to one thing. -/
theorem acknowledge_eq {physicalDatabaseId instructionId : String} {ack : Acknowledgement}
    {answer : Except RegistryError MigrationStep}
    (hcase : s.Acknowledged now size physicalDatabaseId instructionId ack answer s') :
    s.acknowledge now size physicalDatabaseId instructionId ack = (answer, s') := by
  unfold acknowledge
  cases hcase with
  | unknown hunknown =>
    have hnone : (s.instruction? instructionId).filter (·.physicalDatabaseId = physicalDatabaseId) = none := by
      simpa using hunknown
    simp only [hnone]
  | failed hlive hp hreason =>
    simp only [hlive, Option.filter_some, hp, decide_true, if_true]
    rcases hreason with ⟨f, hfailure, rfl⟩ | ⟨hfailure, happly⟩
    · simp only [hfailure]
    · simp only [hfailure, happly]
  | applied hlive hp hfailure happly hadvance =>
    simp only [hlive, Option.filter_some, hp, decide_true, if_true, hfailure, happly, hadvance]

/-- A deregistration leaves each instruction one of its fates. -/
theorem Tabled.fate_of_deregister (h : s.Tabled) {physicalDatabaseId : String} {rules : Nat}
    (hok : s.deregister physicalDatabaseId = .ok (rules, s')) :
    Instruction.Fate s size now name id (s.instruction? id) (.deregister physicalDatabaseId) (s'.instruction? id) := by
  obtain ⟨p, -, -, -, rfl⟩ := deregister_eq_ok hok
  have hrules := s.sameButRules_removeRulesTo physicalDatabaseId
  have hfound : (s.removeRulesTo physicalDatabaseId).2.instruction? id = s.instruction? id := by
    rw [instruction?, instruction?, hrules.instructions]
  have hended : ∀ i : Instruction, i.physicalDatabaseId = physicalDatabaseId →
      Instruction.Fate s size now name id (some i) (.deregister physicalDatabaseId) none := by
    rintro i rfl
    exact .deregistered
  refine fate_of_discarded hended ?_
  rw [← hfound]
  exact (h.of_sameRecords hrules.toSameRecords).instruction?_discardMigration_eq physicalDatabaseId id

/-- A declaration that is found stored ends the migration that it abandons, and no other. -/
theorem Tabled.fate_of_keepRegistered (htabled : s.Tabled) {h : Handshake} {p : PhysicalDatabase}
    (hp : s.physical? h.id = some p) :
    Instruction.Fate s size now name id (s.instruction? id) (.decide h) ((s.keepRegistered p).2.instruction? id) := by
  simp only [keepRegistered]
  split
  · rename_i stale hstale
    obtain ⟨hlive, -⟩ := Option.filter_eq_some_iff.mp hstale
    obtain ⟨hi, hnamed⟩ := htabled.instructionFor?_eq_some_iff.mp hlive
    rw [instruction?_deleteInstruction]
    split
    · rename_i hid
      rw [hid] at hi
      rw [hi]
      exact .superseded ((htabled.physical_id _ _ hp).symm.trans hnamed.symm)
    · exact .kept
  · exact .kept

/-- A migration that begins ends the one of the same physical database, if there is one, and has a name of its own. -/
theorem Tabled.fate_of_begun (htabled : s.Tabled) {h : Handshake} {p : PhysicalDatabase} {entries : List AdditionalRoles}
    (hnew : s.instruction? name = none) (hp : s.physical? h.id = some p) (hpending : entries ≠ []) :
    Instruction.Fate s size now name id (s.instruction? id) (.decide h)
      (((s.discardMigration h.id).putInstruction
        ((Instruction.onto name now (p.declare now h.registration) entries).handOut now (entries.take size))).instruction? id) := by
  rw [instruction?_putInstruction]
  split
  · rename_i heq
    have heq : name = id := heq
    rw [← heq, hnew]
    exact .begun rfl hp hpending
  · exact fate_of_discarded (fun i hnamed => .superseded hnamed.symm) (htabled.instruction?_discardMigration_eq h.id id)

namespace MigrationsSound

/-- Asking for a portion leaves each instruction one of its fates: there are entries left, so it is handed out again. -/
theorem fate_of_nextPortion (hsound : s.MigrationsSound) {instructionId : String} {step : MigrationStep}
    (hok : s.nextPortion now size instructionId = .ok (step, s')) :
    Instruction.Fate s size now name id (s.instruction? id) (.nextPortion instructionId) (s'.instruction? id) := by
  obtain ⟨i, hi, hadvance⟩ := nextPortion_eq_ok hok
  have hid : i.id = instructionId := hsound.tabled.instruction_id _ _ hi
  rw [advance_of_pending (hsound.sound _ _ i hi rfl).pending] at hadvance
  cases hadvance
  rw [instruction?_putInstruction]
  split
  · rename_i heq
    obtain rfl : instructionId = id := hid.symm.trans heq
    rw [hi]
    exact .continued
  · exact .kept

/-- A decision leaves each instruction one of its fates. -/
theorem fate_of_decide (hsound : s.MigrationsSound) {h : Handshake} {outcome : RegistrationOutcome}
    (hnew : s.instruction? name = none)
    (hok : s.decide now name size h.id h.dbType h.registration = .ok (outcome, s')) :
    Instruction.Fate s size now name id (s.instruction? id) (.decide h) (s'.instruction? id) := by
  have htabled := hsound.tabled
  obtain ⟨-, hanswered⟩ := hsound.answered_of_decide hok
  cases hanswered with
  | created => exact .kept
  | kept hstored => exact htabled.fate_of_keepRegistered hstored
  | @updated current hstored hdiffers =>
    have hid : (current.declare now h.registration).id = h.id := htabled.physical_id h.id current hstored
    refine fate_of_discarded (fun i hp => .superseded hp.symm) ?_
    rw [← hid]
    exact htabled.instruction?_discardMigration_eq _ id
  | @resumed current live j hstored hroles hmultiusers hlive hnamed hsame hj =>
    rw [instruction?_putInstruction]
    subst hj
    split
    · rename_i heq
      have heq : live.id = id := heq
      rw [← heq, hlive]
      exact .resumed hnamed.symm hstored hsame
    · exact .kept
  | @begun current entries j hstored hroles hmultiusers hneeds hpending hj =>
    subst hj hneeds
    exact htabled.fate_of_begun hnew hstored hpending

/-- An acknowledgement leaves each instruction one of its fates. -/
theorem fate_of_acknowledged (hsound : s.MigrationsSound) {physicalDatabaseId instructionId : String} {ack : Acknowledgement}
    {answer : Except RegistryError MigrationStep}
    (hcase : s.Acknowledged now size physicalDatabaseId instructionId ack answer s') :
    Instruction.Fate s size now name id (s.instruction? id) (.acknowledge physicalDatabaseId instructionId ack)
      (s'.instruction? id) := by
  cases hcase with
  | unknown => exact .kept
  | @failed i reason hlive hp hreason =>
    rw [instruction?_deleteInstruction]
    split
    · rename_i hid
      rw [← hid, hlive, ← hp]
      exact .ended
    · exact .kept
  | @applied i i' s₁ s' step hlive hp hfailure happly hadvance =>
    obtain rfl : i.id = instructionId := hsound.tabled.instruction_id _ _ hlive
    have hadvanced := hsound.advanced hlive happly hadvance
    by_cases hentries : (i.without (ack.successes.map (·.databaseId))).entries = []
    · obtain ⟨-, -, -, -, -, -, hinstructions, -⟩ := hadvanced.completed hentries
      simp only [instruction?, hinstructions, KeyMap.get?_erase]
      split
      · rename_i hid
        rw [← hid, ← hp, show s.instructions.get? i.id = some i from hlive]
        exact .ended
      · exact .kept
    · obtain ⟨-, -, hinstructions, -⟩ := hadvanced.pending _ rfl hentries
      simp only [instruction?, hinstructions, KeyMap.get?_insert]
      split
      · rename_i hid
        rw [← hid, ← hp, show s.instructions.get? i.id = some i from hlive]
        exact .advanced rfl hentries
      · exact .kept

/-- A request for a database leaves each instruction one of its fates. -/
theorem fate_of_bound (hsound : s.MigrationsSound) {newId : String} {call : DatabaseCall} {outcome : BindingOutcome}
    (hnew : s.logical? newId = none) (hcase : s.Bound now newId call.request outcome s') :
    Instruction.Fate s size now name id (s.instruction? id) (.getOrCreate call) (s'.instruction? id) := by
  have hput : ∀ (db : LogicalDatabase) (id' : String), (s.putLogical db).instruction? id' = s.instruction? id' := by
    intro db id'
    rw [putLogical_eq]
    rfl
  rcases hcase.cases_on_created with ⟨-, rfl | ⟨c, db, -, rfl⟩⟩ | ⟨-, a, target, applied, -, -, -, -, rfl⟩
  · exact .kept
  · rw [hput]
    exact .kept
  · let db := LogicalDatabase.make newId now call.request.dbType a target
    have htabled : (s.putLogical db).Tabled := hsound.tabled.putLogical db
    change Instruction.Fate s size now name id _ _ (((s.putLogical db).joinMigration now db).instruction? id)
    unfold joinMigration
    split
    · rw [hput]
      exact .kept
    · rename_i i hlive
      obtain ⟨hi, hp⟩ := htabled.instructionFor?_eq_some_iff.mp hlive
      rw [hput] at hi
      dsimp only
      split
      · rw [hput]
        exact .kept
      · rw [instruction?_putInstruction]
        split
        · rename_i heq
          have heq : i.id = id := heq
          have hcovers := (hsound.sound _ _ i hi rfl).covers
          -- The id of the database is new, so no entry has to make way for it.
          have hfresh : ∀ e ∈ i.entries, e.databaseId ≠ db.id := by
            intro e he hid
            obtain ⟨db', hdb', -⟩ := hcovers.lacking e he
            rw [hid, show s.logical? db.id = none from hnew] at hdb'
            cases hdb'
          rw [← heq, hi, Instruction.addEntry_of_new hfresh]
          exact .joined
        · rw [hput]
          exact .kept

end MigrationsSound

end Store

namespace Broker

variable {env : Surroundings} {b b' : Broker} {now : UInt64}

/-- Each operation leaves the instruction of an id one of its fates. -/
theorem Effect.instruction_fate {op : Operation} (heffect : b.Effect env now op b') (hconsistent : b.Consistent env)
    (id : String) :
    Instruction.Fate b.store env.portionSize now (env.instructionName b.names.instructions) id (b.store.instruction? id) op
      (b'.store.instruction? id) := by
  have hsound := hconsistent.migrations
  cases heffect with
  | nothing => exact .kept
  | checked => exact .kept
  | undecided => exact .kept
  | decided hok => exact hsound.fate_of_decide hconsistent.named.instruction?_next hok
  | acknowledged hcase => exact hsound.fate_of_acknowledged hcase
  | continued hok => exact hsound.fate_of_nextPortion hok
  | madeGlobal hok =>
    obtain ⟨p, -, rfl⟩ := setGlobal_eq_ok hok
    rcases b.store.clearGlobal_cases now p.dbType _ with heq | ⟨other, -, heq⟩
    · exact fate_of_same (by rw [heq]; rfl)
    · exact fate_of_same (by rw [heq]; rfl)
  | deregistered hok => exact hsound.tabled.fate_of_deregister hok
  | bound hok => exact hsound.fate_of_bound hconsistent.named.logical?_next (bound_of_getOrCreate hok)
  | dropped hok =>
    obtain ⟨db, -, rfl⟩ := markForDrop_eq_ok hok
    exact fate_of_same (by rw [Broker.withStore, putLogical_eq])
  | ruled hsameRules => exact fate_of_same hsameRules.instructions
  | grouped => exact .kept
  | ungrouped => exact .kept

/-- Where the table of physical databases is left alone, each of them is kept. -/
theorem physical_fate_of_same {op : Operation} {s : Store} (hsame : s.physicals = b.store.physicals) (id : String) :
    PhysicalDatabase.Fate env b now id (b.store.physical? id) op (s.physical? id) := by
  rw [physical?, physical?, hsame]
  exact .kept

/-- A decision leaves each physical database one of its fates. -/
theorem physical_fate_of_decide (hconsistent : b.Consistent env) {name : String} {size : Nat} {h : Handshake}
    {outcome : RegistrationOutcome} {s : Store}
    (hok : b.store.decide now name size h.id h.dbType h.registration = .ok (outcome, s)) (id : String) :
    PhysicalDatabase.Fate env b now id (b.store.physical? id) (.decide h) (s.physical? id) := by
  have htabled := hconsistent.migrations.tabled
  obtain ⟨-, hanswered⟩ := hconsistent.migrations.answered_of_decide hok
  cases hanswered with
  | created hnew =>
    simp only [registerNew, physical?_putPhysical]
    split
    · rename_i hid
      have hid : h.id = id := hid
      rw [← hid, hnew]
      exact .registered rfl
    · exact .kept
  | kept =>
    simp only [keepRegistered]
    split
    · rename_i stale _
      obtain ⟨index, heq⟩ := b.store.deleteInstruction_eq stale.id
      exact physical_fate_of_same (by rw [heq]) id
    · exact .kept
  | @updated current hstored hdiffers =>
    have hid : (current.declare now h.registration).id = h.id := htabled.physical_id h.id current hstored
    have hphysicals : (b.store.discardMigration (current.declare now h.registration).id).physical? id =
        b.store.physical? id := by
      obtain ⟨_, _, heq⟩ := b.store.discardMigration_eq (current.declare now h.registration).id
      rw [heq]
      rfl
    simp only [updateInPlace, physical?_putPhysical, hphysicals]
    split
    · rename_i heq
      have heq : h.id = id := hid.symm.trans heq
      rw [← heq, hstored]
      exact .declared rfl
    · exact .kept
  | resumed => exact physical_fate_of_same rfl id
  | begun =>
    obtain ⟨_, _, heq⟩ := b.store.discardMigration_eq h.id
    exact physical_fate_of_same (by rw [heq]; rfl) id

/-- An acknowledgement leaves each physical database one of its fates. -/
theorem physical_fate_of_acknowledged (hconsistent : b.Consistent env) {physicalDatabaseId instructionId : String}
    {ack : Acknowledgement} {answer : Except RegistryError MigrationStep} {s : Store}
    (hcase : b.store.Acknowledged now env.portionSize physicalDatabaseId instructionId ack answer s) (id : String) :
    PhysicalDatabase.Fate env b now id (b.store.physical? id) (.acknowledge physicalDatabaseId instructionId ack)
      (s.physical? id) := by
  have hsound := hconsistent.migrations
  have heq := acknowledge_eq hcase
  cases hcase with
  | unknown => exact .kept
  | failed =>
    obtain ⟨index, hdeleted⟩ := b.store.deleteInstruction_eq instructionId
    exact physical_fate_of_same (by rw [hdeleted]) id
  | @applied i i' s₁ s' step hlive hp hfailure happly hadvance =>
    obtain rfl : i.id = instructionId := hsound.tabled.instruction_id _ _ hlive
    have hadvanced := hsound.advanced hlive happly hadvance
    by_cases hentries : (i.without (ack.successes.map (·.databaseId))).entries = []
    · obtain ⟨current, target, hcurrent, htarget, rfl, hphysicals, -, -⟩ := hadvanced.completed hentries
      subst hp
      simp only [physical?, hphysicals, KeyMap.get?_insert]
      split
      · rename_i hid
        rw [← hid, show b.store.physicals.get? i.physicalDatabaseId = some current from hcurrent]
        exact .completed hlive rfl htarget (by simp only [completes, heq])
      · exact .kept
    · exact physical_fate_of_same (hadvanced.pending _ rfl hentries).2.1 id

/-- Setting the global flag leaves each physical database one of its fates: one gets it, and another may lose it. -/
theorem physical_fate_of_setGlobal (hconsistent : b.Consistent env) {id' : String} {p : PhysicalDatabase} {s : Store}
    (hok : b.store.setGlobal now id' = .ok (p, s)) (id : String) :
    PhysicalDatabase.Fate env b now id (b.store.physical? id) (.setGlobal id') (s.physical? id) := by
  have htabled := hconsistent.migrations.tabled
  obtain ⟨p, hp, rfl⟩ := setGlobal_eq_ok hok
  have hid : p.id = id' := htabled.physical_id _ _ hp
  rw [physical?_putPhysical]
  split
  · rename_i heq
    obtain rfl : id' = id := hid.symm.trans heq
    rw [hp]
    exact .flagged
  · rcases b.store.clearGlobal_cases now p.dbType id' with heq | ⟨other, ⟨id'', hother⟩, heq⟩
    · rw [heq]
      exact .kept
    · rw [heq, physical?_putPhysical]
      split
      · rename_i hid'
        have hid'' : other.id = id'' := htabled.physical_id _ _ hother
        obtain rfl : id'' = id := hid''.symm.trans hid'
        rw [hother]
        exact .flagged
      · exact .kept

/-- A deregistration leaves each physical database one of its fates. -/
theorem physical_fate_of_deregister {id' : String} {rules : Nat} {s : Store}
    (hok : b.store.deregister id' = .ok (rules, s)) (id : String) :
    PhysicalDatabase.Fate env b now id (b.store.physical? id) (.deregister id') (s.physical? id) := by
  rw [physical?_of_deregister hok]
  split
  · rename_i hid
    subst hid
    cases b.store.physical? id' with
    | none => exact .kept
    | some p => exact .deregistered
  · exact .kept

/-- Each operation leaves the physical database of an id one of its fates. -/
theorem Effect.physical_fate {op : Operation} (heffect : b.Effect env now op b') (hconsistent : b.Consistent env)
    (id : String) :
    PhysicalDatabase.Fate env b now id (b.store.physical? id) op (b'.store.physical? id) := by
  cases heffect with
  | nothing => exact .kept
  | checked => exact .kept
  | undecided => exact .kept
  | decided hok => exact physical_fate_of_decide hconsistent hok id
  | acknowledged hcase => exact physical_fate_of_acknowledged hconsistent hcase id
  | continued hok => exact physical_fate_of_same (hconsistent.migrations.nextPortion_pending hok).2 id
  | madeGlobal hok => exact physical_fate_of_setGlobal hconsistent hok id
  | deregistered hok => exact physical_fate_of_deregister hok id
  | bound hok => exact physical_fate_of_same (physicals_of_bound (bound_of_getOrCreate hok)) id
  | dropped hok =>
    obtain ⟨db, -, rfl⟩ := markForDrop_eq_ok hok
    exact physical_fate_of_same (by rw [Broker.withStore, putLogical_eq]) id
  | ruled hsameRules => exact physical_fate_of_same hsameRules.physicals id
  | grouped => exact .kept
  | ungrouped => exact .kept

/-- A physical database that is registered keeps its type, and its flag unless flags are set; it is gone when it is
deregistered, and only then. -/
theorem Effect.physical_of_registered {op : Operation} (heffect : b.Effect env now op b') (hconsistent : b.Consistent env)
    {id : String} {p : PhysicalDatabase} (hp : b.store.physical? id = some p) :
    (∃ p', b'.store.physical? id = some p' ∧ p'.dbType = p.dbType ∧
        ((∀ id', op ≠ .setGlobal id') → p'.global = p.global)) ∨
      (op = .deregister id ∧ b'.store.physical? id = none) := by
  have hfate := heffect.physical_fate hconsistent id
  rw [hp] at hfate
  generalize hfound : b'.store.physical? id = found' at hfate
  cases hfate with
  | kept => exact Or.inl ⟨p, rfl, rfl, fun _ => rfl⟩
  | declared => exact Or.inl ⟨_, rfl, rfl, fun _ => rfl⟩
  | flagged => exact Or.inl ⟨_, rfl, rfl, fun hop => absurd rfl (hop _)⟩
  | @completed p target i ack hi hid htarget hcompletes =>
    obtain ⟨p', hp', htype, -⟩ := (hconsistent.migrations.sound _ i.id i hi rfl).fits.registered
    have hsame : p' = p := Option.some.inj (hp'.symm.trans (hid ▸ hp))
    rw [hsame] at htype
    subst htarget
    exact Or.inl ⟨_, rfl, htype, fun _ => rfl⟩
  | deregistered => exact Or.inr ⟨rfl, rfl⟩

/-- A physical database that is not registered stays so, unless a handshake is decided that registers it anew. -/
theorem Effect.physical_of_unregistered {op : Operation} (heffect : b.Effect env now op b') (hconsistent : b.Consistent env)
    {id : String} (hnone : b.store.physical? id = none) :
    b'.store.physical? id = none ∨
      ∃ h global, op = .decide h ∧ h.id = id ∧
        b'.store.physical? id = some (.register id h.dbType global now h.registration) := by
  have hfate := heffect.physical_fate hconsistent id
  rw [hnone] at hfate
  generalize hfound : b'.store.physical? id = found' at hfate
  cases hfate with
  | kept => exact Or.inl rfl
  | registered hid => exact Or.inr ⟨_, _, rfl, hid, rfl⟩

end Broker

end DatabaseBroker
