import DatabaseBroker.Balancing.Evaluation
import DatabaseBroker.Balancing.Rules
import DatabaseBroker.Binding
import DatabaseBroker.Identifier
import DatabaseBroker.Registration.Handshake

/-!
# The control plane

The store together with what the operations on it need from outside: names for new records, the size of a portion, and
the adapters, of which it is known how they answer a probe. Everything else an operation needs is the time at which it
runs.
-/

namespace DatabaseBroker

/-- The names of new records: for each kind, the name that is given after `n` others. -/
structure Naming where
  logical : Nat → String
  instruction : Nat → String

namespace Naming

/-- Identifiers as names, each drawn from a source of its own. They are in no order. -/
def drawn (logicals instructions : Nat → Identifier.Source) : Naming where
  logical n := Identifier.draw "ldb" (logicals n)
  instruction n := Identifier.draw "instr" (instructions n)

/-- Running numbers as names, where what is made is to be told apart and nothing depends on how names compare. -/
def numbered : Naming where
  logical n := "ldb-#" ++ toString (n + 1)
  instruction n := "instr-#" ++ toString (n + 1)

end Naming

/-- How many names of each kind were given out. -/
structure NameSupply where
  logicals : Nat
  instructions : Nat
deriving DecidableEq

/-- The store and its surroundings. -/
structure ControlPlane where
  store : Store
  names : NameSupply
  portionSize : Nat
  /-- The addresses at which an adapter does not answer for itself. -/
  faults : KeyMap AdapterError
  /-- The addresses that were probed, the last one first. -/
  probed : List String
  naming : Naming

namespace ControlPlane

/-- A control plane over an empty store that names records in a given way; a portion holds at least one entry. -/
def startWith (naming : Naming) (portionSize : Nat) (faults : KeyMap AdapterError) : ControlPlane :=
  ⟨.empty, ⟨0, 0⟩, max portionSize 1, faults, [], naming⟩

/-- A control plane that names records by running numbers. -/
def start (portionSize : Nat) (faults : KeyMap AdapterError) : ControlPlane := startWith .numbered portionSize faults

/-- The name of the next logical database. -/
def nextLogical (c : ControlPlane) : String := c.naming.logical c.names.logicals

/-- The name of the next instruction. -/
def nextInstruction (c : ControlPlane) : String := c.naming.instruction c.names.instructions

/-- What was probed does not count for it. -/
@[simp]
theorem nextInstruction_probed (c : ControlPlane) (probed : List String) :
    nextInstruction { c with probed := probed } = c.nextInstruction := rfl

/-- Puts a store in place of the one before. -/
def withStore (c : ControlPlane) (s : Store) : ControlPlane := { c with store := s }

/-- Runs an operation that may fail and then changes nothing. -/
def attempt {ε α : Type} (c : ControlPlane) (run : Store → Except ε (α × Store)) : Except ε α × ControlPlane :=
  match run c.store with
  | .ok (a, s) => (.ok a, c.withStore s)
  | .error e => (.error e, c)

/-- Whether an answer to a request made a database. -/
def BindingOutcome.isCreated : BindingOutcome → Bool
  | .resolved _ created _ _ => created
  | _ => false

/-- Finds the database of a request and makes it if it is not there. -/
def getOrCreate (c : ControlPlane) (now : UInt64) (r : DatabaseRequest) :
    Except RoutingError BindingOutcome × ControlPlane :=
  match c.store.getOrCreate now c.nextLogical r with
  | .error e => (.error e, c)
  | .ok (outcome, s) =>
    let names := if BindingOutcome.isCreated outcome then { c.names with logicals := c.names.logicals + 1 } else c.names
    (.ok outcome, { c with store := s, names := names })

/-- Probes the adapter at an address. -/
def probe (c : ControlPlane) (address : String) : Option AdapterError × ControlPlane :=
  (c.faults.get? address, { c with probed := address :: c.probed })

/-- Whether a registration made an instruction. -/
def RegistrationOutcome.isMigrationStart : RegistrationOutcome → Bool
  | .migrationPending _ _ resumed => !resumed
  | _ => false

/-- Registers a physical database: looks at the declaration, probes the adapter, and stores what follows. -/
def register (c : ControlPlane) (now : UInt64) (id dbType : String) (r : Registration) :
    Except RegistryError RegistrationOutcome × ControlPlane :=
  match c.store.precheck id dbType r with
  | .error e => (.error e, c)
  | .ok (some p) => (.ok (.unchanged p), c)
  | .ok none =>
    match c.probe r.adapterAddress with
    | (some reason, c) => (.ok (.adapterUnavailable reason), c)
    | (none, c) =>
      match c.store.decide now c.nextInstruction c.portionSize id dbType r with
      | .error e => (.error e, c)
      | .ok (outcome, s) =>
        let names := if RegistrationOutcome.isMigrationStart outcome then
          { c.names with instructions := c.names.instructions + 1 } else c.names
        (.ok outcome, { c with store := s, names := names })

/-- Applies the acknowledgement of a portion. -/
def acknowledge (c : ControlPlane) (now : UInt64) (physicalDatabaseId instructionId : String) (ack : Acknowledgement) :
    Except RegistryError MigrationStep × ControlPlane :=
  let (step, s) := c.store.acknowledge now c.portionSize physicalDatabaseId instructionId ack
  (step, c.withStore s)

/-- Hands out the next portion of an instruction. -/
def nextPortion (c : ControlPlane) (now : UInt64) (instructionId : String) :
    Except RegistryError MigrationStep × ControlPlane :=
  c.attempt fun s => s.nextPortion now c.portionSize instructionId

end ControlPlane

end DatabaseBroker
