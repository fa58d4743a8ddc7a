import DatabaseBroker.Record.Logical
import DatabaseBroker.Record.Physical

/-!
# Instructions

An instruction moves the logical databases of a physical database to a new set of roles. Each entry names a database and
the roles that it still lacks; the adapter works through them a portion at a time, and the target takes the place of the
physical database once no entry is left.
-/

namespace DatabaseBroker

/-- The roles that a logical database still lacks. -/
structure AdditionalRoles where
  databaseId : String
  roles : List String
  /-- The properties that the database had, by which the adapter finds it. -/
  connectionProperties : List ConnectionProperties
  resources : List Resource

namespace AdditionalRoles

/-- An entry as JSON. -/
def toJson (a : AdditionalRoles) : Json := .ofMembers [
  ("databaseId", .string a.databaseId),
  ("roles", .ofStrings a.roles),
  ("connectionProperties", .ofList ConnectionProperties.toJson a.connectionProperties),
  ("resources", .ofList Resource.toJson a.resources)]

/-- The fields of an entry. -/
def fields : Fields AdditionalRoles :=
  AdditionalRoles.mk <$> .required "databaseId" .string
    <*> .required "roles" (.list .string)
    <*> .required "connectionProperties" (.list ConnectionProperties.decoder)
    <*> .required "resources" (.list Resource.fields.decode)

/-- The entry that its own text denotes. -/
def reread (a : AdditionalRoles) : AdditionalRoles :=
  { a with connectionProperties := a.connectionProperties.map ConnectionProperties.reread }

end AdditionalRoles

/-- Whether a portion was handed out. -/
inductive InstructionState where
  | created
  | inProgress
deriving DecidableEq

namespace InstructionState

/-- The name of a state. -/
def text : InstructionState → String
  | created => "created"
  | inProgress => "in_progress"

/-- The state of a name. -/
def ofName? (s : String) : Option InstructionState :=
  if s = "created" then some created else if s = "in_progress" then some inProgress else none

end InstructionState

/-- The migration of a physical database to other roles. -/
structure Instruction where
  id : String
  physicalDatabaseId : String
  state : InstructionState
  /-- What the physical database becomes when no entry is left. -/
  target : PhysicalDatabase
  entries : List AdditionalRoles
  /-- The databases of the portion handed out last. -/
  currentPortion : Option (List String)
  createdAt : UInt64
  updatedAt : UInt64

namespace Instruction

/-- The entry of a database. -/
def entry? (i : Instruction) (databaseId : String) : Option AdditionalRoles :=
  i.entries.find? (·.databaseId = databaseId)

/-- Removes the entry of a database: the first, if there are several. -/
def removeEntry (i : Instruction) (databaseId : String) : Instruction :=
  { i with entries := i.entries.eraseP (·.databaseId = databaseId) }

/-- Adds an entry at the end, in place of an earlier one of the same database. -/
def addEntry (i : Instruction) (e : AdditionalRoles) : Instruction :=
  let i := i.removeEntry e.databaseId
  { i with entries := i.entries ++ [e] }

/-- An instruction as JSON. -/
def toJson (i : Instruction) : Json := .ofMembers [
  ("id", .string i.id),
  ("physicalDatabaseId", .string i.physicalDatabaseId),
  ("state", .string i.state.text),
  ("target", i.target.toJson),
  ("entries", .ofList AdditionalRoles.toJson i.entries),
  ("currentPortion", .ofOption .ofStrings i.currentPortion),
  ("createdAt", .ofUInt64 i.createdAt),
  ("updatedAt", .ofUInt64 i.updatedAt)]

/-- The fields of an instruction, the current portion optional. -/
def fields : Fields Instruction :=
  Instruction.mk <$> .required "id" .string
    <*> .required "physicalDatabaseId" .string
    <*> .required "state" (.variant InstructionState.ofName?)
    <*> .required "target" PhysicalDatabase.fields.decode
    <*> .required "entries" (.list AdditionalRoles.fields.decode)
    <*> .optional "currentPortion" (.list .string)
    <*> .required "createdAt" .uint64
    <*> .required "updatedAt" .uint64

/-- The record that its own text denotes. -/
def reread (i : Instruction) : Instruction := { i with entries := i.entries.map AdditionalRoles.reread }

end Instruction

end DatabaseBroker
