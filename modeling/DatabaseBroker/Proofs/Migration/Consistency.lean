import DatabaseBroker.Proofs.Migration.Rounds
import DatabaseBroker.Proofs.Naming

/-!
# Migrations over a history

Two statements about every history from an empty store. Whatever operations ran, each live instruction names what is still to
be done at its physical database, no more and no less (`liveInstructions_consistent`). And when a migration is said to be
completed, every database of the physical database that is not archived has every role that is registered from then on
(`roles_of_completed`): those made while the migration was live, too, and whatever was dropped, declared again, made global or
acknowledged in part meanwhile.
-/

namespace DatabaseBroker

open Store

namespace Broker

variable {env : Surroundings}

/-- Records have names that were given, and migrations are sound. -/
structure Consistent (env : Surroundings) (b : Broker) : Prop where
  named : b.Named env
  migrations : b.store.MigrationsSound

/-- A broker over an empty store has nothing that could be inconsistent. -/
theorem Consistent.start : Broker.start.Consistent env := by
  refine ⟨⟨fun id hid => ?_, fun id hid => ?_⟩, MigrationsSound.empty⟩
  · simp [Broker.start, logical?, Store.empty] at hid
  · simp [Broker.start, instruction?, Store.empty] at hid

/-- Each operation keeps a broker consistent. -/
theorem Consistent.effect {b b' : Broker} {now : UInt64} {op : Operation} (h : b.Consistent env)
    (heffect : b.Effect env now op b') : b'.Consistent env := by
  refine ⟨h.named.effect h.migrations.tabled heffect, ?_⟩
  cases heffect with
  | nothing => exact h.migrations
  | checked => exact h.migrations
  | undecided => exact h.migrations
  | decided hok => exact h.migrations.decide h.named.instruction?_next hok
  | acknowledged hcase => exact h.migrations.acknowledged hcase
  | continued hok => exact h.migrations.nextPortion hok
  | madeGlobal hok => exact h.migrations.setGlobal hok
  | deregistered hok => exact h.migrations.deregister hok
  | bound hok => exact h.migrations.bound h.named.logical?_next (bound_of_getOrCreate hok)
  | dropped hok => exact h.migrations.markForDrop hok
  | ruled hsame => exact h.migrations.of_sameRecords hsame.toSameRecords
  | grouped => exact h.migrations.of_sameRecords ⟨rfl, rfl, rfl, rfl, rfl⟩
  | ungrouped => exact h.migrations.of_sameRecords ⟨rfl, rfl, rfl, rfl, rfl⟩

/-- Every history leaves a consistent broker. -/
theorem consistent_replay (env : Surroundings) (events : List Event) : (replay env events).Consistent env :=
  replay_invariant .start fun e _ b h => h.effect (b.effect env e.time e.operation)

/-- The physical database of which an operation says that its migration is completed. -/
def completes (env : Surroundings) (b : Broker) (now : UInt64) : Operation → Option PhysicalDatabase
  | .acknowledge id instructionId ack =>
    match (b.store.acknowledge now env.portionSize id instructionId ack).1 with
    | .ok (.completed p) => some p
    | _ => none
  | .nextPortion instructionId =>
    match b.store.nextPortion now env.portionSize instructionId with
    | .ok (.completed p, _) => some p
    | _ => none
  | _ => none

end Broker

/-- What holds of live instructions after every history, in three parts.
1. The two tables of instructions are inverse to each other.
2. A physical database has one live instruction at most.
3. A live instruction names a registered physical database, and its target has the id and the type of that, makes users for
   every role, and declares another set of roles. It has entries, for distinct databases, each of them stored and bound to
   the physical database, and each with the roles of the target that the database lacks, of which there is one at least. -/
theorem liveInstructions_consistent (env : Surroundings) (events : List Event) :
    let s := (replay env events).store
    (∀ physicalDatabaseId id, s.instructionsByPhysical.get? physicalDatabaseId = some id ↔
      ∃ i, s.instruction? id = some i ∧ i.physicalDatabaseId = physicalDatabaseId) ∧
    (∀ id id' i i', s.instruction? id = some i → s.instruction? id' = some i' →
      i.physicalDatabaseId = i'.physicalDatabaseId → id = id') ∧
    (∀ id i, s.instruction? id = some i →
      (∃ p, s.physical? i.physicalDatabaseId = some p ∧ i.target.id = p.id ∧ i.target.dbType = p.dbType ∧
        i.target.metadata.roleSet ≠ p.metadata.roleSet) ∧
      i.target.metadata.supportsMultiusers = true ∧
      i.entries ≠ [] ∧ (i.entries.map (·.databaseId)).Nodup ∧
      ∀ e ∈ i.entries, ∃ db, s.logical? e.databaseId = some db ∧ db.physicalDatabaseId = i.physicalDatabaseId ∧
        e.roles = db.missingRoles i.target.metadata.roleSet ∧ e.roles ≠ []) := by
  intro s
  have hmigrations : s.MigrationsSound := (Broker.consistent_replay env events).migrations
  refine ⟨hmigrations.tabled.inverse, fun id id' i i' hi hi' hp => ?_, fun id i hi => ?_⟩
  · exact (hmigrations.tabled.instruction_unique hi hi' hp).1
  · have hsound := hmigrations.sound _ id i hi rfl
    obtain ⟨p, hp, htype, hroles⟩ := hsound.fits.registered
    have hid : i.target.id = p.id := hsound.fits.target_id.trans (hmigrations.tabled.physical_id _ p hp).symm
    exact ⟨⟨p, hp, hid, htype, hroles⟩, hsound.fits.multiusers, hsound.pending, hsound.covers.distinct,
      hsound.covers.lacking⟩

/-- When an operation says after any history that the migration of a physical database is completed, that database is stored as
it says, and every database on it that is not archived has each of its roles. -/
theorem roles_of_completed (env : Surroundings) (events : List Event) (now : UInt64) (op : Operation) (p : PhysicalDatabase)
    (h : (replay env events).completes env now op = some p) :
    let s := ((replay env events).run env now op).store
    s.physical? p.id = some p ∧ ∀ db ∈ s.logicalsOn p.id, ∀ role ∈ p.metadata.roleSet, role ∈ db.roles := by
  have hmigrations := (Broker.consistent_replay env events).migrations
  generalize replay env events = b at h hmigrations
  cases op with
  | acknowledge id instructionId ack =>
    simp only [Broker.completes] at h
    split at h
    · rename_i hanswer
      have hcase := b.store.acknowledged now env.portionSize id instructionId ack
      rw [hanswer] at hcase
      cases h
      exact hmigrations.roles_of_acknowledged hcase
    · cases h
  | nextPortion instructionId =>
    simp only [Broker.completes] at h
    split at h
    · rename_i hok
      cases h
      obtain ⟨i, hi, hadvance⟩ := nextPortion_eq_ok hok
      have hsound := hmigrations.sound _ instructionId i hi rfl
      simp only [Broker.run, Broker.keep, hok]
      exact advance_completed hsound.covers hsound.fits.target_id hadvance
    · cases h
  | _ => cases h

/-- A declaration by an adapter that makes users for every role. -/
def sampleDeclaration (roles : List String) : Handshake :=
  ⟨"pg", "postgresql", ⟨"http://adapter", none, .empty,
    ⟨"v1", roles, KeyMap.empty.insert AdapterMetadata.multiusersFeature true⟩, .run, none⟩⟩

/-- A cluster is registered, a database is made, a role is declared, and another database is made before the first one has
the role. -/
def sampleMigration : List Event := [
  ⟨1, .precheck (sampleDeclaration ["admin"]) none⟩,
  ⟨2, .decide (sampleDeclaration ["admin"])⟩,
  ⟨3, .getOrCreate ⟨(Classifier.service "shop" "cart").toMap, "postgresql", none, none⟩⟩,
  ⟨4, .precheck (sampleDeclaration ["admin", "ro"]) none⟩,
  ⟨5, .decide (sampleDeclaration ["admin", "ro"])⟩,
  ⟨6, .getOrCreate ⟨(Classifier.service "shop" "order").toMap, "postgresql", none, none⟩⟩]

/-- Both databases of the sample have the role once the adapter has acknowledged both. -/
theorem roles_of_sampleMigration :
    let b := replay (.numbered 1) sampleMigration
    let op : Operation := .acknowledge "pg" "instr-#1" ⟨[⟨"ldb-#1", [], []⟩, ⟨"ldb-#2", [], []⟩], none⟩
    ∃ p, b.completes (.numbered 1) 7 op = some p ∧
      ∀ db ∈ (b.run (.numbered 1) 7 op).store.logicalsOn p.id, ∀ role ∈ p.metadata.roleSet, role ∈ db.roles := by
  intro b op
  have hcompleted : (b.completes (.numbered 1) 7 op).isSome = true := by decide +kernel
  obtain ⟨p, hp⟩ := Option.isSome_iff_exists.mp hcompleted
  exact ⟨p, hp, (roles_of_completed (.numbered 1) sampleMigration 7 op p hp).2⟩

end DatabaseBroker
