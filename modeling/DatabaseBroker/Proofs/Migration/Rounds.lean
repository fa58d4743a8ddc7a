import DatabaseBroker.Proofs.Migration.Steps

/-!
# Rounds of a migration

A migration begins with the decision of a handshake and goes on with acknowledgements. Where migrations are sound, the one that
a decision goes on with has entries left, so none completes at once: `Answered` says what remains, and facts about decisions
are case analyses over it. `Recorded` is the state between two successes of an acknowledgement: the databases of the physical
database have been written, the instruction as it is carried along covers what they lack, and the one that is stored does not
any more. The end of the acknowledgement restores soundness: the instruction is stored, or the physical database takes the
target and the instruction is gone.
-/

namespace DatabaseBroker

/-! ## Beginning -/

/-- A database needs exactly the roles that it lacks, and something only if it lacks one. -/
theorem LogicalDatabase.needs?_eq_some {db : LogicalDatabase} {required : List String} {e : AdditionalRoles}
    (h : db.needs? required = some e) :
    e.databaseId = db.id ∧ e.roles = db.missingRoles required ∧ e.roles ≠ [] := by
  simp only [needs?] at h
  split at h
  · cases h
  · rename_i hmissing
    cases h
    exact ⟨rfl, rfl, by simpa using hmissing⟩

/-- The databases of which something is needed are databases of the physical database, in the same order. -/
theorem Store.needsOn_ids_sublist (s : Store) (physicalDatabaseId : String) (required : List String) :
    ((s.needsOn physicalDatabaseId required).map (·.databaseId)).Sublist
      ((s.logicalsOn physicalDatabaseId).map (·.id)) := by
  simp only [needsOn]
  induction s.logicalsOn physicalDatabaseId with
  | nil => exact .slnil
  | cons db rest ih =>
    cases hdb : db.needs? required with
    | none =>
      simp only [List.filterMap_cons, hdb]
      exact ih.cons _
    | some e =>
      simp only [List.filterMap_cons, hdb, List.map_cons, (LogicalDatabase.needs?_eq_some hdb).1]
      exact ih.cons_cons _

namespace Instruction

/-- An instruction with the needs of all databases of its physical database covers what they lack. -/
theorem covers_onto {s : Store} (htabled : s.Tabled) (id : String) (now : UInt64) (target : PhysicalDatabase) :
    (onto id now target (s.needsOn target.id target.metadata.roleSet)).Covers s := by
  refine ⟨?_, fun e he => ?_, fun id' db hdb hp hdrop hmissing => ?_⟩
  · exact (Store.logicalsOn_ids_nodup htabled.logical_id target.id).sublist (s.needsOn_ids_sublist _ _)
  · obtain ⟨db, hdb, he⟩ := List.mem_filterMap.mp he
    obtain ⟨⟨id', hstored⟩, hp, -⟩ := Store.mem_logicalsOn_iff.mp hdb
    obtain ⟨hid, hroles, hne⟩ := LogicalDatabase.needs?_eq_some he
    rw [hid, htabled.logical_id id' db hstored]
    exact ⟨db, hstored, hp, hroles, hne⟩
  · have hid := htabled.logical_id id' db hdb
    have hmissing : db.missingRoles target.metadata.roleSet ≠ [] := hmissing
    refine ⟨⟨db.id, db.missingRoles target.metadata.roleSet, db.connectionProperties, db.resources⟩, ?_, hid⟩
    refine List.mem_filterMap.mpr ⟨db, Store.mem_logicalsOn_iff.mpr ⟨⟨id', hdb⟩, hp, hdrop⟩, ?_⟩
    simp [LogicalDatabase.needs?, hmissing]

end Instruction

namespace Store

variable {s s' : Store} {now : UInt64} {name : String} {size : Nat} {id dbType : String} {r : Registration}

/-- What a decision comes to where migrations are sound. The migration that it goes on with or begins has entries, so it is
answered and stored with a portion handed out. -/
inductive Answered (s : Store) (now : UInt64) (name : String) (size : Nat) (id dbType : String) (r : Registration) :
    RegistrationOutcome → Store → Prop where
  | created (hnew : s.physical? id = none) :
      Answered s now name size id dbType r (s.registerNew now id dbType r).1 (s.registerNew now id dbType r).2
  | kept {current : PhysicalDatabase} (hstored : s.physical? id = some current) (hagrees : current.agreesWith r = true) :
      Answered s now name size id dbType r (.unchanged current) (s.keepRegistered current).2
  | updated {current : PhysicalDatabase} (hstored : s.physical? id = some current) (hdiffers : current.agreesWith r = false) :
      Answered s now name size id dbType r (.updated (current.declare now r)) (s.updateInPlace (current.declare now r)).2
  | resumed {current : PhysicalDatabase} {live j : Instruction} (hstored : s.physical? id = some current)
      (hroles : current.metadata.roleSet ≠ r.metadata.roleSet) (hmultiusers : r.metadata.supportsMultiusers = true)
      (hlive : s.instruction? live.id = some live) (hnamed : live.physicalDatabaseId = id)
      (hsame : live.target.metadata.roleSet = r.metadata.roleSet)
      (hj : j = (live.retarget now (current.declare now r)).handOut now (live.nextPortion size)) :
      Answered s now name size id dbType r (.migrationPending j.reread (live.nextPortion size) true) (s.putInstruction j)
  | begun {current : PhysicalDatabase} {entries : List AdditionalRoles} {j : Instruction}
      (hstored : s.physical? id = some current) (hroles : current.metadata.roleSet ≠ r.metadata.roleSet)
      (hmultiusers : r.metadata.supportsMultiusers = true) (hneeds : s.needsOn id r.metadata.roleSet = entries)
      (hpending : entries ≠ [])
      (hj : j = (Instruction.onto name now (current.declare now r) entries).handOut now (entries.take size)) :
      Answered s now name size id dbType r (.migrationPending j.reread (entries.take size) false)
        ((s.discardMigration id).putInstruction j)

/-- A migration that was discarded is not there to be discarded again. -/
theorem Tabled.discardMigration_discardMigration (h : s.Tabled) (id : String) :
    (s.discardMigration id).discardMigration id = s.discardMigration id := by
  have hnone : (s.discardMigration id).instructionFor? id = none := by
    rw [Option.eq_none_iff_forall_ne_some]
    intro i hi
    obtain ⟨hstored, hnamed⟩ := (h.discardMigration id).instructionFor?_eq_some_iff.mp hi
    exact (h.instruction?_discardMigration.mp hstored).2 hnamed
  generalize s.discardMigration id = s₁ at hnone
  rw [Store.discardMigration, hnone]

namespace MigrationsSound

/-- A decision that does not fail is about an identity that passes, and ends in one of the cases. -/
theorem answered_of_decide (h : s.MigrationsSound) {outcome : RegistrationOutcome}
    (hok : s.decide now name size id dbType r = .ok (outcome, s')) :
    s.checkIdentity id dbType r = .ok () ∧ s.Answered now name size id dbType r outcome s' := by
  obtain ⟨hidentity, hdecided⟩ := decided_of_decide hok
  refine ⟨hidentity, ?_⟩
  cases hdecided with
  | created hnew => exact .created hnew
  | kept hstored hagrees => exact .kept hstored hagrees
  | updated hstored hdiffers hdirect hbefore =>
    rcases hbefore with rfl | rfl
    · exact .updated hstored hdiffers
    · rw [Store.updateInPlace, h.tabled.discardMigration_discardMigration]
      exact .updated hstored hdiffers
  | @resumed current live hstored hdiffers hroles hmultiusers hlive hsame i hi outcome s' hissue =>
    obtain ⟨hlive, hnamed⟩ := h.tabled.instructionFor?_eq_some_iff.mp hlive
    have hpending : i.entries ≠ [] := hi ▸ (h.sound _ live.id live hlive rfl).pending
    rw [issue_of_pending hpending, putInstruction_putInstruction _ (by rfl) (by rfl)] at hissue
    cases hissue
    subst hi
    exact @Answered.resumed s now name size id dbType r current live _ hstored hroles hmultiusers hlive
      (hnamed.trans (h.tabled.physical_id id current hstored)) hsame rfl
  | @begun current hstored hdiffers hroles hmultiusers hneeds i hi outcome s' hissue =>
    obtain rfl : current.id = id := h.tabled.physical_id _ _ hstored
    subst hi
    rw [issue_of_pending hneeds, putInstruction_putInstruction _ (by rfl) (by rfl)] at hissue
    cases hissue
    exact .begun hstored hroles hmultiusers rfl hneeds rfl

/-- Replacing the declaration of a physical database ends its migration, so nothing is left that could be unsound. -/
theorem updateInPlace (h : s.MigrationsSound) (target : PhysicalDatabase) :
    (s.updateInPlace target).2.MigrationsSound := by
  have hdiscard := h.discardMigration target.id
  have hnone : ∀ id i, (s.discardMigration target.id).instruction? id = some i → i.physicalDatabaseId ≠ target.id :=
    fun id i hi => (h.tabled.instruction?_discardMigration.mp hi).2
  exact of_unnamed (hdiscard.tabled.putPhysical target)
    (fun _ hne => (hdiscard.sound _).of_sameSite (.putPhysical_of_ne hne)) hnone

/-- A decision keeps migrations sound when a new instruction gets an id that none has. -/
theorem decide (h : s.MigrationsSound) {outcome : RegistrationOutcome} (hnew : s.instruction? name = none)
    (hok : s.decide now name size id dbType r = .ok (outcome, s')) : s'.MigrationsSound := by
  obtain ⟨-, hanswered⟩ := h.answered_of_decide hok
  cases hanswered with
  | created hunregistered =>
    let p := PhysicalDatabase.register id dbType (s.globalOf? dbType).isNone now r
    have hnone : ∀ id' i, s.instruction? id' = some i → i.physicalDatabaseId ≠ p.id := by
      rintro id' i hi hp
      obtain ⟨q, hq, -⟩ := (h.sound _ id' i hi rfl).fits.registered
      rw [hp, show p.id = id from rfl, hunregistered] at hq
      cases hq
    exact of_unnamed (h.tabled.putPhysical p)
      (fun _ hne => (h.sound _).of_sameSite (.putPhysical_of_ne hne)) hnone
  | @kept current hstored hagrees =>
    simp only [keepRegistered]
    split
    · exact h.deleteInstruction _
    · exact h
  | updated => exact h.updateInPlace _
  | @resumed current live j hstored hroles hmultiusers hlive hnamed hsame hj =>
    have hlivesound : live.Sound s := h.sound _ _ live hlive rfl
    have hsound : (live.retarget now (current.declare now r)).Sound s := by
      refine ⟨⟨?_, hmultiusers, current, ?_, rfl, Ne.symm hroles⟩, hlivesound.pending,
        hlivesound.covers.congr rfl rfl hsame.symm⟩
      · exact (h.tabled.physical_id id current hstored).trans hnamed.symm
      · exact hnamed.symm ▸ hstored
    subst hj
    exact putInstruction_of_stored h.tabled (fun _ _ => h.sound _) (hsound.handOut now _) hlive rfl
  | @begun current entries j hstored hroles hmultiusers hneeds hpending hj =>
    obtain rfl : current.id = id := h.tabled.physical_id id current hstored
    have hdiscard := h.discardMigration current.id
    have hsound : (Instruction.onto name now (current.declare now r) entries).Sound (s.discardMigration current.id) := by
      refine ⟨⟨rfl, hmultiusers, current, ?_, rfl, Ne.symm hroles⟩, hpending, ?_⟩
      · obtain ⟨_, _, heq⟩ := s.discardMigration_eq current.id
        rw [heq]
        exact hstored
      · rw [← hneeds, ← s.needsOn_discardMigration current.id]
        exact Instruction.covers_onto hdiscard.tabled name now (current.declare now r)
    subst hj
    refine putInstruction hdiscard.tabled (fun _ _ => hdiscard.sound _) (hsound.handOut now _) (fun id' j hj hp => ?_)
      fun j hj => ?_
    · exact absurd hp (h.tabled.instruction?_discardMigration.mp hj).2
    · have hstored := (h.tabled.instruction?_discardMigration.mp hj).1
      rw [show ((Instruction.onto name now (current.declare now r) entries).handOut now _).id = name from rfl,
        hnew] at hstored
      cases hstored

end MigrationsSound

end Store

/-! ## Going on -/

/-- What stands after successes of an acknowledgement were recorded, of a store `s` with the instruction `i`. -/
structure Recorded (i : Instruction) (s : Store) (i' : Instruction) (s' : Store) : Prop where
  /-- Only logical databases and their index were written. -/
  store : ∃ logicals index, s' = { s with logicals := logicals, classifierIndex := index }
  /-- Only entries were cleared. -/
  instruction : ∃ entries, i' = { i with entries := entries }
  tabled : s'.Tabled
  covers : i'.Covers s'
  /-- The databases of other physical databases were not touched. -/
  others : ∀ physicalDatabaseId, i.physicalDatabaseId ≠ physicalDatabaseId → Store.SameHosts physicalDatabaseId s s'

namespace Recorded

theorem refl {i : Instruction} {s : Store} (htabled : s.Tabled) (hcovers : i.Covers s) : Recorded i s i s :=
  ⟨⟨s.logicals, s.classifierIndex, rfl⟩, ⟨i.entries, rfl⟩, htabled, hcovers,
    fun physicalDatabaseId _ => .of_logicals rfl physicalDatabaseId⟩

theorem trans {i i' i'' : Instruction} {s s' s'' : Store} (h : Recorded i s i' s') (h' : Recorded i' s' i'' s'') :
    Recorded i s i'' s'' := by
  obtain ⟨logicals, index, rfl⟩ := h.store
  obtain ⟨entries, rfl⟩ := h.instruction
  obtain ⟨logicals', index', rfl⟩ := h'.store
  obtain ⟨entries', rfl⟩ := h'.instruction
  exact ⟨⟨logicals', index', rfl⟩, ⟨entries', rfl⟩, h'.tabled, h'.covers,
    fun physicalDatabaseId hne => (h.others _ hne).trans (h'.others _ hne)⟩

/-- One success. -/
theorem of_applySuccess {i i' : Instruction} {s s' : Store} {done : Success} (htabled : s.Tabled) (hcovers : i.Covers s)
    (h : Store.applySuccess i s done = .ok (i', s')) : Recorded i s i' s' := by
  obtain ⟨entry, hentry, db, hnamed, hdb, rfl, rfl⟩ := Store.applySuccess_eq_ok h
  obtain ⟨db', hdb', hp, -, -⟩ := hcovers.lacking entry hentry
  obtain rfl : db = db' := Option.some.inj (hdb.symm.trans (hnamed ▸ hdb'))
  have hid : db.id = done.databaseId := htabled.logical_id _ _ hdb
  have hstored : ∀ db₀, s.logical? (db.acknowledge entry done).id = some db₀ → db₀ = db := by
    intro db₀ hdb₀
    rw [show (db.acknowledge entry done).id = done.databaseId from hid] at hdb₀
    exact Option.some.inj (hdb₀.symm.trans hdb)
  refine ⟨⟨_, _, s.putLogical_eq _⟩, ⟨_, rfl⟩, htabled.putLogical _, hcovers.acknowledge htabled hentry hnamed hdb,
    fun physicalDatabaseId hne => ?_⟩
  refine .putLogical_of_ne (fun db₀ hdb₀ => ?_) (hp.trans_ne hne)
  rw [hstored db₀ hdb₀]
  exact hp.trans_ne hne

/-- All successes of an acknowledgement. -/
theorem of_applySuccesses {done : List Success} {i i' : Instruction} {s s' : Store} (htabled : s.Tabled)
    (hcovers : i.Covers s) (h : Store.applySuccesses i s done = .ok (i', s')) : Recorded i s i' s' := by
  induction done generalizing i s with
  | nil =>
    cases h
    exact .refl htabled hcovers
  | cons d rest ih =>
    rw [Store.applySuccesses_cons] at h
    split at h
    · rename_i i₁ s₁ hstep
      have hone := of_applySuccess htabled hcovers hstep
      exact hone.trans (ih hone.tabled hone.covers h)
    · cases h

end Recorded

namespace Store

/-- A migration that is completed stores its target, and leaves every role of it with every database of the physical database
that is not archived. -/
theorem advance_completed {s s' : Store} {now : UInt64} {size : Nat} {i : Instruction} {p : PhysicalDatabase}
    (hcovers : i.Covers s) (hid : i.target.id = i.physicalDatabaseId) (h : s.advance now size i = (.completed p, s')) :
    s'.physical? p.id = some p ∧ ∀ db ∈ s'.logicalsOn p.id, ∀ role ∈ p.metadata.roleSet, role ∈ db.roles := by
  by_cases hentries : i.entries = []
  · rw [advance_of_done hentries] at h
    cases h
    have hkept : (s.completedTarget now i.target).metadata = i.target.metadata ∧
        (s.completedTarget now i.target).id = i.physicalDatabaseId := by
      unfold completedTarget
      split <;> exact ⟨rfl, hid⟩
    obtain ⟨index, heq⟩ := (s.putPhysical (s.completedTarget now i.target)).deleteInstruction_eq i.id
    rw [heq]
    refine ⟨by simp [physical?, putPhysical], fun db hhosted => ?_⟩
    obtain ⟨⟨id, hdb⟩, hp, hdrop⟩ := mem_logicalsOn_iff.mp hhosted
    rw [hkept.1]
    refine LogicalDatabase.missingRoles_eq_nil_iff.mp (Classical.not_not.mp fun hmissing => ?_)
    obtain ⟨e, he, -⟩ := hcovers.complete id db hdb (hp.trans hkept.2) hdrop hmissing
    rw [hentries] at he
    cases he
  · rw [advance_of_pending hentries] at h
    cases h

namespace MigrationsSound

/-- Going on with the instruction of a physical database restores soundness there and keeps it elsewhere. -/
theorem advance {s s' : Store} {now : UInt64} {size : Nat} {i j : Instruction} {step : MigrationStep}
    (htabled : s.Tabled)
    (hothers : ∀ physicalDatabaseId, i.physicalDatabaseId ≠ physicalDatabaseId → s.SoundOn physicalDatabaseId)
    (hj : s.instruction? i.id = some j) (hphysical : j.physicalDatabaseId = i.physicalDatabaseId)
    (hfits : i.Fits s) (hcovers : i.Covers s) (h : s.advance now size i = (step, s')) : s'.MigrationsSound := by
  by_cases hentries : i.entries = []
  · rw [advance_of_done hentries] at h
    cases h
    have hid : (s.completedTarget now i.target).id = i.physicalDatabaseId := by
      unfold completedTarget
      split <;> exact hfits.target_id
    have htabled' := htabled.putPhysical (s.completedTarget now i.target)
    have hnone : ∀ id k, ((s.putPhysical (s.completedTarget now i.target)).deleteInstruction i.id).instruction? id = some k →
        k.physicalDatabaseId ≠ i.physicalDatabaseId := by
      intro id k hk hp
      rw [instruction?_deleteInstruction] at hk
      split at hk
      · cases hk
      · rename_i hne
        exact hne (htabled.instruction_unique hj hk (hphysical.trans hp.symm)).1
    refine of_unnamed (htabled'.deleteInstruction i.id) (fun physicalDatabaseId hne => ?_) hnone
    exact (hothers _ hne).of_sameSite (.trans (.putPhysical_of_ne (hid.trans_ne hne)) (.deleteInstruction _ _ _))
  · rw [advance_of_pending hentries] at h
    cases h
    exact putInstruction_of_stored htabled hothers
      (Instruction.Sound.handOut ⟨hfits, hentries, hcovers⟩ now _) hj hphysical

/-- Handing out the next portion keeps migrations sound. -/
theorem nextPortion {s s' : Store} (h : s.MigrationsSound) {now : UInt64} {size : Nat} {instructionId : String}
    {step : MigrationStep} (hok : s.nextPortion now size instructionId = .ok (step, s')) : s'.MigrationsSound := by
  obtain ⟨i, hi, hadvance⟩ := nextPortion_eq_ok hok
  have hsound := h.sound _ instructionId i hi rfl
  have hid : i.id = instructionId := h.tabled.instruction_id _ _ hi
  exact advance h.tabled (fun _ _ => h.sound _) (hid ▸ hi) rfl hsound.fits hsound.covers hadvance

/-- The instruction that an acknowledgement carries to the end of its successes. -/
theorem recorded {s s₁ : Store} (h : s.MigrationsSound) {instructionId : String} {i i' : Instruction} {done : List Success}
    (hi : s.instruction? instructionId = some i) (happly : applySuccesses i s done = .ok (i', s₁)) :
    Recorded i s i' s₁ :=
  .of_applySuccesses h.tabled (h.sound _ instructionId i hi rfl).covers happly

/-- An acknowledgement keeps migrations sound, whatever it comes to. -/
theorem acknowledged {s s' : Store} (h : s.MigrationsSound) {now : UInt64} {size : Nat}
    {physicalDatabaseId instructionId : String} {ack : Acknowledgement} {answer : Except RegistryError MigrationStep}
    (hcase : s.Acknowledged now size physicalDatabaseId instructionId ack answer s') : s'.MigrationsSound := by
  cases hcase with
  | unknown => exact h
  | failed => exact h.deleteInstruction _
  | @applied i i' s₁ s' step hlive hp hfailure happly hadvance =>
    have hrecorded := h.recorded hlive happly
    have hfits := (h.sound _ instructionId i hlive rfl).fits
    have hid : i.id = instructionId := h.tabled.instruction_id _ _ hlive
    obtain ⟨logicals, index, rfl⟩ := hrecorded.store
    obtain ⟨entries, rfl⟩ := hrecorded.instruction
    have hstored : s.instruction? ({ i with entries := entries, currentPortion := none } : Instruction).id = some i :=
      hid.symm ▸ hlive
    refine advance hrecorded.tabled (fun physicalDatabaseId hne => ?_) hstored (by rfl) ?_ ?_ hadvance
    · exact (h.sound _).of_sameSite (.of_hosts rfl rfl (hrecorded.others _ hne))
    · exact ⟨hfits.target_id, hfits.multiusers, hfits.registered⟩
    · exact hrecorded.covers.congr rfl rfl rfl

/-- An acknowledgement that completes a migration leaves no database of the physical database without a role. -/
theorem roles_of_acknowledged {s s' : Store} (h : s.MigrationsSound) {now : UInt64} {size : Nat}
    {physicalDatabaseId instructionId : String} {ack : Acknowledgement} {p : PhysicalDatabase}
    (hcase : s.Acknowledged now size physicalDatabaseId instructionId ack (.ok (.completed p)) s') :
    s'.physical? p.id = some p ∧ ∀ db ∈ s'.logicalsOn p.id, ∀ role ∈ p.metadata.roleSet, role ∈ db.roles := by
  cases hcase with
  | @applied i i' s₁ s' step hlive hp hfailure happly hadvance =>
    have hrecorded := h.recorded hlive happly
    have hid := (h.sound _ instructionId i hlive rfl).fits.target_id
    have hcovers : ({ i' with currentPortion := none } : Instruction).Covers s₁ := hrecorded.covers.congr rfl rfl rfl
    obtain ⟨entries, rfl⟩ := hrecorded.instruction
    exact advance_completed hcovers hid hadvance

end MigrationsSound

end Store

end DatabaseBroker
