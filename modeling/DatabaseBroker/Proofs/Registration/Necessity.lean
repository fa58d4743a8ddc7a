import DatabaseBroker.Proofs.Migration.Awaiting
import DatabaseBroker.Proofs.Registration.Convergence
import DatabaseBroker.Proofs.Registration.Declarations
import Mathlib.Data.Fintype.EquivFin

/-!
# Migrations that are needed

A declaration asks for a migration when a database that is not archived lacks one of its roles, and is stored in place when none
does (`Store.MigratesAsNeeded`). A migration that begins is one that is needed, as it begins with such databases. One that goes on
hands out what it was begun with, and by then those databases may be archived. So the law holds of every declaration exactly when
no database of the portion that is handed out is archived, and it does hold after every history in which no database is dropped
while it awaits roles (`migration_only_when_needed`). Dropping the only database that awaits roles breaks it
(`migration_though_not_needed`).
-/

namespace DatabaseBroker

open Store

namespace Store

/-- What the answer to a handshake has to be if a migration is asked for only when one is needed. -/
structure MigratesAsNeeded (s : Store) (size : Nat) (h : Handshake) : Prop where
  /-- Where it is a migration, a database that is not archived lacks a declared role. -/
  lacking : ∀ now name i portion resumed s',
    s.decide now name size h.id h.dbType h.registration = .ok (.migrationPending i portion resumed, s') →
    ∃ db ∈ s.logicalsOn h.id, ∃ role ∈ h.registration.metadata.roleSet, role ∉ db.roles
  /-- No database that is handed out is archived. -/
  unarchived : ∀ now name i portion resumed s',
    s.decide now name size h.id h.dbType h.registration = .ok (.migrationPending i portion resumed, s') →
    ∀ e ∈ portion, s.Unarchived e.databaseId
  /-- Where no database that is not archived lacks a declared role, another declaration than the registered one is stored in
  place, and no migration is live. -/
  inPlace : ∀ now name current, s.checkIdentity h.id h.dbType h.registration = .ok () → s.physical? h.id = some current →
    current.agreesWith h.registration = false →
    (∀ db ∈ s.logicalsOn h.id, ∀ role ∈ h.registration.metadata.roleSet, role ∈ db.roles) →
    ∃ s', s.decide now name size h.id h.dbType h.registration = .ok (.updated (current.declare now h.registration), s') ∧
      s'.physical? h.id = some (current.declare now h.registration) ∧
      ∀ id i, s'.instruction? id = some i → i.physicalDatabaseId ≠ h.id

variable {s s' : Store} {now : UInt64} {name : String} {size : Nat} {h : Handshake}

/-! ## Answers -/

/-- A decision about an identity that passes does not fail. -/
theorem exists_decide_of_checkIdentity {id dbType : String} {r : Registration} (hidentity : s.checkIdentity id dbType r = .ok ())
    (now : UInt64) (name : String) (size : Nat) : ∃ outcome s', s.decide now name size id dbType r = .ok (outcome, s') := by
  simp only [decide, hidentity, bind, Except.bind]
  split
  · exact ⟨_, _, rfl⟩
  · split
    · exact ⟨_, _, rfl⟩
    · split
      · split <;> exact ⟨_, _, rfl⟩
      · exact ⟨_, _, rfl⟩

/-- Some address is no physical database's. -/
theorem exists_address_free (s : Store) : ∃ address, ∀ id, s.AddressFree address id := by
  obtain ⟨address, haddress⟩ := Infinite.exists_notMem_finset (s.physicalList.map (·.adapterAddress)).toFinset
  refine ⟨address, fun id id' p hp heq => absurd ?_ haddress⟩
  exact List.mem_toFinset.mpr (List.mem_map.mpr ⟨p, KeyMap.mem_values_iff.mpr ⟨id', hp⟩, heq⟩)

/-- A database of which something is needed is not archived. -/
theorem unarchived_of_mem_needsOn (htabled : s.Tabled) {physicalDatabaseId : String} {required : List String}
    {e : AdditionalRoles} (he : e ∈ s.needsOn physicalDatabaseId required) : s.Unarchived e.databaseId := by
  obtain ⟨db, hdb, hneeds⟩ := List.mem_filterMap.mp he
  obtain ⟨⟨id, hid⟩, -, hlive⟩ := mem_logicalsOn_iff.mp hdb
  rw [(LogicalDatabase.needs?_eq_some hneeds).1, htabled.logical_id id db hid]
  exact ⟨db, hid, hlive⟩

namespace MigrationsSound

/-- A handshake that is answered with a migration begins it, and is handed the first databases that lack a role; or goes on with
the live one, and is handed its portion. -/
theorem pending_cases (hsound : s.MigrationsSound) {i : Instruction} {portion : List AdditionalRoles} {resumed : Bool}
    (hok : s.decide now name size h.id h.dbType h.registration = .ok (.migrationPending i portion resumed, s')) :
    (resumed = false ∧ portion = (s.needsOn h.id h.registration.metadata.roleSet).take size) ∨
      (resumed = true ∧ ∃ live, s.instructionFor? h.id = some live ∧
        live.target.metadata.roleSet = h.registration.metadata.roleSet ∧ portion = live.nextPortion size) := by
  obtain ⟨-, hanswered⟩ := hsound.answered_of_decide hok
  generalize houtcome : RegistrationOutcome.migrationPending i portion resumed = outcome at hanswered
  cases hanswered with
  | created => cases houtcome
  | kept => cases houtcome
  | updated => cases houtcome
  | resumed hstored hroles hmultiusers hlive hnamed hsame =>
    cases houtcome
    exact Or.inr ⟨rfl, _, hsound.tabled.instructionFor?_eq_some_iff.mpr ⟨hlive, hnamed⟩, hsame, rfl⟩
  | begun hstored hroles hmultiusers hneeds =>
    cases houtcome
    exact Or.inl ⟨rfl, by rw [hneeds]⟩

/-- What is handed out of a live migration is some of its entries. -/
theorem mem_entries_of_nextPortion (hsound : s.MigrationsSound) {id : String} {live : Instruction}
    (hlive : s.instruction? id = some live) (hissued : live.Issued size) {e : AdditionalRoles}
    (he : e ∈ live.nextPortion size) : e ∈ live.entries := by
  obtain ⟨k, -, -, -, -, hnext⟩ := hissued.nextPortion_eq (hsound.sound _ id live hlive rfl).covers.distinct
  rw [hnext] at he
  exact List.mem_of_mem_take he

/-- Each database that is handed out is bound to the physical database and is to get the declared roles that it lacks, of which
there is one at least. -/
theorem lacking_of_decide (hsound : s.MigrationsSound) (hissued : ∀ id i, s.instruction? id = some i → i.Issued size)
    {i : Instruction} {portion : List AdditionalRoles} {resumed : Bool}
    (hok : s.decide now name size h.id h.dbType h.registration = .ok (.migrationPending i portion resumed, s')) :
    ∀ e ∈ portion, ∃ db, s.logical? e.databaseId = some db ∧ db.physicalDatabaseId = h.id ∧
      e.roles = db.missingRoles h.registration.metadata.roleSet ∧ e.roles ≠ [] := by
  rcases hsound.pending_cases hok with ⟨-, rfl⟩ | ⟨-, live, hlive, hroles, rfl⟩
  · intro e he
    obtain ⟨db, hdb, hneeds⟩ := List.mem_filterMap.mp (List.mem_of_mem_take he)
    obtain ⟨⟨id, hid⟩, hphysical, -⟩ := mem_logicalsOn_iff.mp hdb
    obtain ⟨hnamed, hmissing⟩ := LogicalDatabase.needs?_eq_some hneeds
    rw [hnamed, hsound.tabled.logical_id id db hid]
    exact ⟨db, hid, hphysical, hmissing⟩
  · obtain ⟨hstored, hphysical⟩ := hsound.tabled.instructionFor?_eq_some_iff.mp hlive
    intro e he
    rw [← hroles, ← hphysical]
    exact (hsound.sound _ live.id live hstored rfl).covers.lacking e
      (hsound.mem_entries_of_nextPortion hstored (hissued live.id live hstored) he)

/-- Another declaration than the registered one that is not answered with a migration is stored in place. -/
theorem updated_of_decide (hsound : s.MigrationsSound) {current : PhysicalDatabase} {outcome : RegistrationOutcome}
    (hok : s.decide now name size h.id h.dbType h.registration = .ok (outcome, s')) (hstored : s.physical? h.id = some current)
    (hdiffers : current.agreesWith h.registration = false)
    (hpending : ∀ i portion resumed, outcome ≠ .migrationPending i portion resumed) :
    outcome = .updated (current.declare now h.registration) := by
  obtain ⟨-, hanswered⟩ := hsound.answered_of_decide hok
  cases hanswered with
  | created hnew =>
    rw [hstored] at hnew
    cases hnew
  | kept hstored' hagrees =>
    rw [← Option.some.inj (hstored.symm.trans hstored'), hdiffers] at hagrees
    cases hagrees
  | updated hstored' =>
    rw [Option.some.inj (hstored.symm.trans hstored')]
  | resumed => exact absurd rfl (hpending _ _ _)
  | begun => exact absurd rfl (hpending _ _ _)

/-- Only the portion of a live migration may name archived databases, so the law holds where it does not. -/
theorem migratesAsNeeded (hsound : s.MigrationsSound) (hissued : ∀ id i, s.instruction? id = some i → i.Issued size)
    (hpos : 0 < size) (hlive : ∀ live, s.instructionFor? h.id = some live →
      live.target.metadata.roleSet = h.registration.metadata.roleSet → ∀ e ∈ live.nextPortion size, s.Unarchived e.databaseId) :
    s.MigratesAsNeeded size h := by
  have hunarchived : ∀ now name i portion resumed s',
      s.decide now name size h.id h.dbType h.registration = .ok (.migrationPending i portion resumed, s') →
      ∀ e ∈ portion, s.Unarchived e.databaseId := by
    intro now name i portion resumed s' hok e he
    rcases hsound.pending_cases hok with ⟨-, rfl⟩ | ⟨-, live, hfound, hroles, rfl⟩
    · exact unarchived_of_mem_needsOn hsound.tabled (List.mem_of_mem_take he)
    · exact hlive live hfound hroles e he
  have hlacking : ∀ now name i portion resumed s',
      s.decide now name size h.id h.dbType h.registration = .ok (.migrationPending i portion resumed, s') →
      ∃ db ∈ s.logicalsOn h.id, ∃ role ∈ h.registration.metadata.roleSet, role ∉ db.roles := by
    intro now name i portion resumed s' hok
    obtain ⟨e, he⟩ := List.exists_mem_of_ne_nil portion (hsound.underWay_of_decide hissued hpos hok).1
    obtain ⟨db, hdb, hphysical, hroles, hne⟩ := hsound.lacking_of_decide hissued hok e he
    obtain ⟨db', hdb', hdrop⟩ := hunarchived _ _ _ _ _ _ hok e he
    obtain rfl : db = db' := Option.some.inj (hdb.symm.trans hdb')
    obtain ⟨role, hrole⟩ := List.exists_mem_of_ne_nil _ (hroles ▸ hne)
    exact ⟨db, mem_logicalsOn_iff.mpr ⟨⟨_, hdb⟩, hphysical, hdrop⟩, role, LogicalDatabase.mem_missingRoles_iff.mp hrole⟩
  refine ⟨hlacking, hunarchived, fun now name current hidentity hstored hdiffers hnone => ?_⟩
  obtain ⟨outcome, s', hok⟩ := exists_decide_of_checkIdentity hidentity now name size
  have hpending : ∀ i portion resumed, outcome ≠ .migrationPending i portion resumed := by
    rintro i portion resumed rfl
    obtain ⟨db, hdb, role, hrole, hmissing⟩ := hlacking _ _ _ _ _ _ hok
    exact hmissing (hnone db hdb role hrole)
  obtain rfl := hsound.updated_of_decide hok hstored hdiffers hpending
  obtain ⟨hsettled, hphysical⟩ := hsound.settled_of_decide hok (Or.inr (Or.inl rfl))
  exact ⟨s', hok, hphysical, hsettled.unmigrated⟩

/-- Where every declaration of a physical database is answered as needed, no database of the portion of its live migration is
archived: the target's declaration may be sent from an address of its own, and is handed that portion. -/
theorem unarchived_of_migratesAsNeeded (hsound : s.MigrationsSound) {id : String}
    (hall : ∀ h : Handshake, h.id = id → s.MigratesAsNeeded size h) {live : Instruction}
    (hlive : s.instructionFor? id = some live) : ∀ e ∈ live.nextPortion size, s.Unarchived e.databaseId := by
  obtain ⟨hstored, rfl⟩ := hsound.tabled.instructionFor?_eq_some_iff.mp hlive
  have hlivesound := hsound.sound _ live.id live hstored rfl
  obtain ⟨p, hp, htype, hroles⟩ := hlivesound.fits.registered
  obtain ⟨address, hfree⟩ := s.exists_address_free
  let h : Handshake := ⟨live.physicalDatabaseId, live.target.dbType,
    { live.target.declaration with adapterAddress := address }⟩
  have hidentity : s.checkIdentity h.id h.dbType h.registration = .ok () :=
    checkIdentity_of_free hsound.tabled (fun q hq => Option.some.inj (hp.symm.trans hq) ▸ htype.symm) (hfree h.id)
  have hnamed : s.instructionFor? p.id = some live := by rwa [hsound.tabled.physical_id _ p hp]
  have hok : s.decide 0 "" size h.id h.dbType h.registration = .ok (.migrationPending _ (live.nextPortion size) true, _) :=
    decide_of_live hidentity hp hroles.symm hlivesound.fits.multiusers hnamed rfl hlivesound.pending
  exact (hall h rfl).unarchived _ _ _ _ _ _ hok

end MigrationsSound

end Store

/-! ## Histories -/

/-- When a migration is asked for after any history, in four parts.
1. A handshake that is answered with a migration is handed at least one database, and each one that it is handed is bound to the
   physical database and lacks the declared roles that it is to get, one at least; it may be archived.
2. A migration is asked for only when one is needed, and no database that is handed out is archived, when no migration to the
   declared roles is live.
3. So it is for every declaration of a physical database exactly when no database of the portion of its live migration is
   archived.
4. And so it is for every declaration when the history drops no database while it awaits roles. -/
theorem migration_only_when_needed (env : Surroundings) (events : List Event) :
    let s := (replay env events).store
    (∀ (h : Handshake) now name i portion resumed s',
      s.decide now name env.portionSize h.id h.dbType h.registration = .ok (.migrationPending i portion resumed, s') →
      portion ≠ [] ∧ ∀ e ∈ portion, ∃ db, s.logical? e.databaseId = some db ∧ db.physicalDatabaseId = h.id ∧
        e.roles = db.missingRoles h.registration.metadata.roleSet ∧ e.roles ≠ []) ∧
    (∀ h : Handshake, (∀ live, s.instructionFor? h.id = some live →
      live.target.metadata.roleSet ≠ h.registration.metadata.roleSet) → s.MigratesAsNeeded env.portionSize h) ∧
    (∀ id, (∀ h : Handshake, h.id = id → s.MigratesAsNeeded env.portionSize h) ↔
      ∀ live, s.instructionFor? id = some live → ∀ e ∈ live.nextPortion env.portionSize, s.Unarchived e.databaseId) ∧
    ((∀ before e after, events = before ++ e :: after → ∀ id, e.operation = .drop id →
      ¬ (replay env before).store.Awaits id) → ∀ h, s.MigratesAsNeeded env.portionSize h) := by
  intro s
  have hsound : s.MigrationsSound := (Broker.consistent_replay env events).migrations
  have hissued : ∀ id i, s.instruction? id = some i → i.Issued env.portionSize := Broker.issued_replay env events
  have hpos := env.portionSize_pos
  refine ⟨fun h now name i portion resumed s' hok => ?_, fun h hother => ?_, fun id => ⟨fun hall live hlive => ?_, ?_⟩,
    fun hidle h => ?_⟩
  · exact ⟨(hsound.underWay_of_decide hissued hpos hok).1, hsound.lacking_of_decide hissued hok⟩
  · exact hsound.migratesAsNeeded hissued hpos fun live hlive hsame => absurd hsame (hother live hlive)
  · exact hsound.unarchived_of_migratesAsNeeded hall hlive
  · rintro hportion h rfl
    exact hsound.migratesAsNeeded hissued hpos fun live hlive _ => hportion live hlive
  · have hawaited : s.AwaitedUnarchived := (awaited_unarchived_iff env events).mpr hidle events [] (List.append_nil _).symm
    refine hsound.migratesAsNeeded hissued hpos fun live hlive _ e he => ?_
    obtain ⟨hstored, -⟩ := hsound.tabled.instructionFor?_eq_some_iff.mp hlive
    have hentry := hsound.mem_entries_of_nextPortion hstored (hissued live.id live hstored) he
    exact hawaited _ ⟨live.id, live, hstored, List.mem_map_of_mem hentry⟩

/-- Nothing is dropped in the sample of a migration, so the roles that are declared there are asked for as they are needed. -/
theorem migration_needed_of_sampleMigration :
    (replay (.numbered 1) sampleMigration).store.MigratesAsNeeded 1 (sampleDeclaration ["admin", "ro"]) := by
  have hkept : ∀ e ∈ sampleMigration, ∀ id, e.operation ≠ .drop id := by simp [sampleMigration]
  refine (migration_only_when_needed (.numbered 1) sampleMigration).2.2.2 (fun before e after hsplit id hdrop => ?_) _
  exact absurd hdrop (hkept e (hsplit ▸ List.mem_append_right before (List.mem_cons_self ..)) id)

/-! ## A migration of a dropped database -/

/-- A role is declared, the only database that lacks it is dropped, and the role is declared again. -/
def sampleDropped : List Event := sampleMigration.take 5 ++ [
  ⟨6, .drop "ldb-#1"⟩,
  ⟨7, .precheck (sampleDeclaration ["admin", "ro"]) none⟩]

/-- A migration may be asked for where none is needed: in the sample no database is left that is not archived, and the declaration
that awaits its decision is answered with the migration of the one that was dropped. -/
theorem migration_though_not_needed :
    let h := sampleDeclaration ["admin", "ro"]
    let b := replay (.numbered 1) sampleDropped
    h ∈ b.awaiting ∧ b.store.logicalsOn h.id = [] ∧ ¬ b.store.Unarchived "ldb-#1" ∧
      (∃ i portion s, b.store.decide 8 "instr-#2" 1 h.id h.dbType h.registration = .ok (.migrationPending i portion true, s) ∧
        portion.map (·.databaseId) = ["ldb-#1"]) ∧
      ¬ b.store.MigratesAsNeeded 1 h := by
  intro h b
  have hawaits : h ∈ b.awaiting := by decide +kernel
  have hnone : b.store.logicalsOn h.id = [] := by
    rw [(Broker.consistent_replay (.numbered 1) sampleDropped).migrations.tabled.logicalsOn_eq]
    exact List.isEmpty_iff.mp (by decide +kernel)
  have harchived : (b.store.logical? "ldb-#1").any (·.markedForDrop) = true := by decide +kernel
  have hanswer : (Pending.ofAnswer? (b.store.decide 8 "instr-#2" 1 h.id h.dbType h.registration)).any (fun m =>
      decide (m.resumed = true ∧ m.portion.map (·.databaseId) = ["ldb-#1"])) = true := by decide +kernel
  obtain ⟨db, hdb, hdrop⟩ := (Option.any_eq_true _ _).mp harchived
  obtain ⟨⟨i, portion, resumed, s⟩, hm, hanswer⟩ := (Option.any_eq_true _ _).mp hanswer
  obtain ⟨rfl, hportion⟩ := of_decide_eq_true hanswer
  have hok := Pending.ofAnswer?_eq_some hm
  refine ⟨hawaits, hnone, ?_, ⟨i, portion, s, hok, hportion⟩, fun hneeded => ?_⟩
  · rintro ⟨db', hdb', hlive⟩
    rw [← Option.some.inj (hdb.symm.trans hdb'), hdrop] at hlive
    cases hlive
  · obtain ⟨db', hdb', -⟩ := hneeded.lacking _ _ _ _ _ _ hok
    rw [hnone] at hdb'
    cases hdb'

end DatabaseBroker
