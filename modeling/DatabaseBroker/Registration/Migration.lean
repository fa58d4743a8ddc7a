import DatabaseBroker.Record.Request
import DatabaseBroker.Registration.Registry

/-!
# Role migration

When an adapter declares other roles, the databases that lack one of them are handed to it a portion at a time. An
instruction lists them. A portion that was handed out and not acknowledged is handed out again; each acknowledgement
records what the adapter made and clears the entries; and when no entry is left, the target of the instruction takes the
place of the physical database, which keeps its global flag and its time of registration.

A failure that the adapter reports, or an acknowledgement of a database that is not pending, ends the migration: the
instruction is deleted and nothing of the acknowledgement is kept.
-/

namespace DatabaseBroker

/-- What a migration comes to: another portion, or its end. -/
inductive MigrationStep where
  | portion (instructionId : String) (entries : List AdditionalRoles)
  | completed (physicalDatabase : PhysicalDatabase)

namespace Instruction

/-- The portion that was handed out last, if all of it is still pending. -/
def reissued? (i : Instruction) : Option (List AdditionalRoles) :=
  (i.currentPortion.bind (·.mapM i.entry?)).filter (!·.isEmpty)

/-- The portion to hand out: the last one again, or the first entries. -/
def nextPortion (i : Instruction) (size : Nat) : List AdditionalRoles := i.reissued?.getD (i.entries.take size)

/-- The instruction with a portion handed out. -/
def handOut (i : Instruction) (now : UInt64) (portion : List AdditionalRoles) : Instruction :=
  { i with currentPortion := some (portion.map (·.databaseId)), state := .inProgress, updatedAt := now }

end Instruction

/-- Adds to a list what it does not hold, in order. -/
def addMissing {α : Type} [BEq α] (l new : List α) : List α :=
  new.foldl (fun l a => if l.contains a then l else l ++ [a]) l

/-- The key under which connection properties name their role. -/
def roleKey : String := "role"

/-- Adds properties, in place of those of the same role. -/
def replaceProperties (l : List ConnectionProperties) (p : ConnectionProperties) : List ConnectionProperties :=
  let others := if (p.get? roleKey).isSome then
    l.filter fun o => !Json.sameOption (o.get? roleKey) (p.get? roleKey) else l
  others ++ [p]

namespace LogicalDatabase

/-- The database with the roles of an entry and what the adapter made for it. -/
def acknowledge (db : LogicalDatabase) (entry : AdditionalRoles) (done : Success) : LogicalDatabase :=
  { db with
    roles := addMissing db.roles entry.roles
    connectionProperties := done.connectionProperties.foldl replaceProperties db.connectionProperties
    resources := addMissing db.resources done.resources }

/-- What the database needs to have the roles `required`, if it lacks one. -/
def needs? (db : LogicalDatabase) (required : List String) : Option AdditionalRoles :=
  let missing := db.missingRoles required
  if missing.isEmpty then none else some ⟨db.id, missing, db.connectionProperties, db.resources⟩

end LogicalDatabase

namespace Store

/-- What the databases of a physical database need to have the roles `required`, by database. -/
def needsOn (s : Store) (physicalDatabaseId : String) (required : List String) : List AdditionalRoles :=
  (s.logicalsOn physicalDatabaseId).filterMap (·.needs? required)

/-- The instruction to migrate onto a target, and whether it was live before. A live instruction for the same roles takes
the new target; one for other roles is replaced. None when no database lacks a role of the target. -/
def startMigration (s : Store) (now : UInt64) (id : String) (target : PhysicalDatabase) :
    Option (Instruction × Bool) × Store :=
  let required := target.metadata.roleSet
  match (s.instructionFor? target.id).filter fun live => live.target.metadata.roleSet = required with
  | some live =>
    let live := { live with target := target, updatedAt := now }
    (some (live, true), s.putInstruction live)
  | none =>
    let s := s.discardMigration target.id
    match s.needsOn target.id required with
    | [] => (none, s)
    | entries =>
      let i : Instruction := ⟨id, target.id, .created, target, entries, none, now, now⟩
      (some (i, false), s.putInstruction i)

/-- What the target of an instruction becomes: the flags set since it was made stay. -/
def completedTarget (s : Store) (now : UInt64) (target : PhysicalDatabase) : PhysicalDatabase :=
  match s.physical? target.id with
  | some current =>
    { target with global := current.global, registeredAt := current.registeredAt, updatedAt := now }
  | none => { target with updatedAt := now }

/-- Hands out the next portion of an instruction, or completes it. -/
def advance (s : Store) (now : UInt64) (size : Nat) (i : Instruction) : MigrationStep × Store :=
  if i.entries.isEmpty then
    let p := s.completedTarget now i.target
    (.completed p, (s.putPhysical p).deleteInstruction i.id)
  else
    let portion := i.nextPortion size
    (.portion i.id portion, s.putInstruction (i.handOut now portion))

/-- Hands out the next portion of the instruction of an id, or completes it. -/
def nextPortion (s : Store) (now : UInt64) (size : Nat) (instructionId : String) :
    Except RegistryError (MigrationStep × Store) :=
  match s.instruction? instructionId with
  | some i => .ok (s.advance now size i)
  | none => .error (.notFound (.instruction instructionId))

/-- Records what the adapter made for one database and clears its entry. -/
def applySuccess (i : Instruction) (s : Store) (done : Success) : Except MigrationFailure (Instruction × Store) :=
  match i.entry? done.databaseId with
  | none => .error (.notPending done.databaseId i.id)
  | some entry =>
    match s.logical? done.databaseId with
    | none => .error (.databaseGone done.databaseId)
    | some db => .ok (i.removeEntry done.databaseId, s.putLogical (db.acknowledge entry done))

/-- Records a list of successes. -/
def applySuccesses (i : Instruction) (s : Store) (done : List Success) : Except MigrationFailure (Instruction × Store) :=
  done.foldlM (fun (i, s) d => applySuccess i s d) (i, s)

/-- Applies the acknowledgement of a portion, all of it or nothing, and goes on with the migration. A migration that
fails is discarded. -/
def acknowledge (s : Store) (now : UInt64) (size : Nat) (physicalDatabaseId instructionId : String)
    (ack : Acknowledgement) : Except RegistryError MigrationStep × Store :=
  match (s.instruction? instructionId).filter (·.physicalDatabaseId = physicalDatabaseId) with
  | none => (.error (.notFound (.instructionOf instructionId physicalDatabaseId)), s)
  | some i =>
    let applied : Except MigrationFailure (Instruction × Store) := match ack.failure with
      | some failure => .error (.reported failure.message)
      | none => applySuccesses i s ack.successes
    match applied with
    | .error reason => (.error (.migrationFailed reason), s.deleteInstruction instructionId)
    | .ok (i, s) =>
      let (step, s) := s.advance now size { i with currentPortion := none }
      (.ok step, s)

end Store

end DatabaseBroker
