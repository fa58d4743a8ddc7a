import DatabaseBroker.Record.Physical

/-!
# Errors of registration and migration

The causes for which a registration, an acknowledgement or a change of the registry fails, and what is said of each.
-/

namespace DatabaseBroker

/-- Why a registration or a change of the registry is in conflict with what is registered. -/
inductive RegistryConflict where
  | otherType (id registeredType : String)
  | addressTaken (address holder : String)
  | isGlobal (id dbType : String)
  | stillHosts (id : String) (databases : Nat)
deriving DecidableEq

/-- What is said of a call that clashes with what is kept. -/
def RegistryConflict.message : RegistryConflict → String
  | .otherType id registeredType => "physical database " ++ id ++ " is registered with type " ++ registeredType
  | .addressTaken address holder =>
    "adapter " ++ address ++ " is already registered for physical database " ++ holder
  | .isGlobal id dbType => "physical database " ++ id ++ " is the global database of type " ++ dbType
  | .stillHosts id databases =>
    "physical database " ++ id ++ " still hosts " ++ toString databases ++ " logical databases"

/-- What was not found in the registry. -/
inductive MissingRecord where
  | physicalDatabase (id : String)
  | instruction (id : String)
  | instructionOf (id physicalDatabaseId : String)
deriving DecidableEq

/-- What is said of a record that is not there. -/
def MissingRecord.message : MissingRecord → String
  | .physicalDatabase id => "physical database " ++ id
  | .instruction id => "instruction " ++ id
  | .instructionOf id physicalDatabaseId => "instruction " ++ id ++ " for physical database " ++ physicalDatabaseId

/-- Why a migration is given up. -/
inductive MigrationFailure where
  | reported (message : String)
  | notPending (databaseId instructionId : String)
  | databaseGone (databaseId : String)
deriving DecidableEq

/-- What is said of a migration that failed. -/
def MigrationFailure.message : MigrationFailure → String
  | .reported message => "adapter reported failure: " ++ message
  | .notPending databaseId instructionId =>
    "validation failed: database " ++ databaseId ++ " is not pending in instruction " ++ instructionId
  | .databaseGone databaseId => "validation failed: logical database " ++ databaseId ++ " is gone"

/-- Why a request to the registry fails. -/
inductive RegistryError where
  /-- The id or the address is blank. -/
  | incomplete
  | badAdapterState (id : String) (status : AdapterStatus)
  | conflict (reason : RegistryConflict)
  | notFound (what : MissingRecord)
  | migrationFailed (reason : MigrationFailure)
deriving DecidableEq

/-- What is said of a call that failed. -/
def RegistryError.message : RegistryError → String
  | .incomplete => "validation failed: physical database id and adapter address are required"
  | .badAdapterState id status =>
    "bad adapter state: adapter for " ++ id ++ " reports status " ++ status.title ++ ", expected run"
  | .conflict reason => "registration conflict: " ++ reason.message
  | .notFound what => "not found: " ++ what.message
  | .migrationFailed reason => "role migration failed: " ++ reason.message

end DatabaseBroker
