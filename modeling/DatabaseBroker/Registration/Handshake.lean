import DatabaseBroker.Adapter.Error
import DatabaseBroker.Registration.Migration
import DatabaseBroker.Text.Blank

/-!
# The registration handshake

An adapter registers its physical database with a declaration, and again whenever the declaration changes. The handshake
has two parts. `Store.precheck` looks at the declaration before the adapter is asked: it may be refused, or found to
change nothing. Then the adapter is probed, and `Store.decide` looks again and stores what follows: a new physical
database, the declaration in place of the one before, or a migration when roles changed, the adapter can make users for
every role, and a database lacks one.

The id keeps its type, and an address belongs to one physical database.
-/

namespace DatabaseBroker

/-- The answer to a registration. -/
inductive RegistrationOutcome where
  | created (physicalDatabase : PhysicalDatabase)
  | unchanged (physicalDatabase : PhysicalDatabase)
  | updated (physicalDatabase : PhysicalDatabase)
  /-- The instruction with its portion handed out, and whether the instruction was live before. -/
  | migrationPending (instruction : Instruction) (portion : List AdditionalRoles) (resumed : Bool)
  | adapterUnavailable (reason : AdapterError)

namespace PhysicalDatabase

/-- The physical database of a first registration. -/
def register (id dbType : String) (global : Bool) (now : UInt64) (r : Registration) : PhysicalDatabase where
  id := id
  dbType := dbType
  adapterAddress := r.adapterAddress
  adapterId := r.adapterId
  metadata := r.metadata
  status := r.status
  labels := r.labels
  global := global
  readOnlyHost := r.readOnlyHost
  registeredAt := now
  updatedAt := now

/-- The physical database with another declaration. -/
def declare (p : PhysicalDatabase) (now : UInt64) (r : Registration) : PhysicalDatabase :=
  { p with
    adapterAddress := r.adapterAddress
    adapterId := r.adapterId
    metadata := r.metadata
    status := r.status
    labels := r.labels
    readOnlyHost := r.readOnlyHost
    updatedAt := now }

/-- Whether a declaration says what is registered already; the order of roles does not count. -/
def agreesWith (p : PhysicalDatabase) (r : Registration) : Bool :=
  p.adapterAddress == r.adapterAddress && p.adapterId == r.adapterId && p.status == r.status &&
    p.labels == r.labels && p.readOnlyHost == r.readOnlyHost && p.metadata.apiVersion == r.metadata.apiVersion &&
    p.metadata.features == r.metadata.features && p.metadata.roleSet == r.metadata.roleSet

end PhysicalDatabase

namespace Store

/-- The id keeps its type, and the address is no other physical database's. -/
def checkIdentity (s : Store) (id dbType : String) (r : Registration) : Except RegistryError Unit :=
  match (s.physical? id).filter (·.dbType ≠ dbType) with
  | some p => .error (.conflict (.otherType id p.dbType))
  | none =>
    match s.physicalList.find? fun p => p.id ≠ id && p.adapterAddress = r.adapterAddress with
    | some other => .error (.conflict (.addressTaken r.adapterAddress other.id))
    | none => .ok ()

/-- The live instruction of a physical database, if it leads to other roles than those registered. -/
def abandoned? (s : Store) (p : PhysicalDatabase) : Option Instruction :=
  (s.instructionFor? p.id).filter fun i => i.target.metadata.roleSet ≠ p.metadata.roleSet

/-- Looks at a declaration before the adapter is probed: the registered database if nothing changes, none if the adapter
has to be asked. -/
def precheck (s : Store) (id dbType : String) (r : Registration) : Except RegistryError (Option PhysicalDatabase) := do
  if r.status ≠ .run then .error (.badAdapterState id r.status)
  if Text.isBlank id || Text.isBlank r.adapterAddress then .error .incomplete
  s.checkIdentity id dbType r
  .ok ((s.physical? id).filter fun p => p.agreesWith r && (s.abandoned? p).isNone)

/-- Stores a first registration. The first physical database of a type is global. -/
def registerNew (s : Store) (now : UInt64) (id dbType : String) (r : Registration) : RegistrationOutcome × Store :=
  let p := PhysicalDatabase.register id dbType (s.globalOf? dbType).isNone now r
  (.created p, s.putPhysical p)

/-- Keeps the registered declaration. A live migration to roles that are no longer declared is discarded. -/
def keepRegistered (s : Store) (p : PhysicalDatabase) : RegistrationOutcome × Store :=
  (.unchanged p, match s.abandoned? p with
    | some stale => s.deleteInstruction stale.id
    | none => s)

/-- Stores a declaration in place of the one before; a live migration ends. -/
def updateInPlace (s : Store) (target : PhysicalDatabase) : RegistrationOutcome × Store :=
  (.updated target, (s.discardMigration target.id).putPhysical target)

/-- Goes on with a migration that was started. -/
def issue (s : Store) (now : UInt64) (size : Nat) (i : Instruction) (resumed : Bool) : RegistrationOutcome × Store :=
  match s.advance now size i with
  | (.portion _ portion, s) => (.migrationPending ((s.instruction? i.id).getD i) portion resumed, s)
  | (.completed p, s) => (.updated p, s)

/-- Stores what follows from a declaration of an adapter that answered; `instructionId` names an instruction if one is
made. -/
def decide (s : Store) (now : UInt64) (instructionId : String) (size : Nat) (id dbType : String) (r : Registration) :
    Except RegistryError (RegistrationOutcome × Store) := do
  s.checkIdentity id dbType r
  match s.physical? id with
  | none => .ok (s.registerNew now id dbType r)
  | some current =>
    if current.agreesWith r then .ok (s.keepRegistered current)
    else
      let target := current.declare now r
      if current.metadata.roleSet ≠ target.metadata.roleSet ∧ target.metadata.supportsMultiusers = true then
        match s.startMigration now instructionId target with
        | (some (i, resumed), s) => .ok (s.issue now size i resumed)
        | (none, s) => .ok (s.updateInPlace target)
      else .ok (s.updateInPlace target)

end Store

end DatabaseBroker
