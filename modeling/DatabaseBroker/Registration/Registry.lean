import DatabaseBroker.Registration.Error
import DatabaseBroker.Store.Write

/-!
# The registry of physical databases

Each type has a global physical database. Making another one global takes the flag from the one that had it. A physical
database can be deregistered when it is not global and hosts no database that is not archived; the rules of namespaces
that lead to it go with it, and so does its live instruction, while permanent entries stay.
-/

namespace DatabaseBroker.Store

/-- The physical databases of a type, or all. -/
def listPhysical (s : Store) : Option String → List PhysicalDatabase
  | some dbType => s.physicalsOf dbType
  | none => s.physicalList

/-- The physical database of an id. -/
def getPhysical (s : Store) (id : String) : Except RegistryError PhysicalDatabase :=
  match s.physical? id with
  | some p => .ok p
  | none => .error (.notFound (.physicalDatabase id))

/-- Takes the global flag from the physical database of a type that has it, unless it is the one with the id `id`. -/
def clearGlobal (s : Store) (now : UInt64) (dbType id : String) : Store :=
  match (s.globalOf? dbType).filter (·.id ≠ id) with
  | some previous => s.putPhysical { previous with global := false, updatedAt := now }
  | none => s

/-- Makes a physical database the global one of its type. -/
def setGlobal (s : Store) (now : UInt64) (id : String) : Except RegistryError (PhysicalDatabase × Store) := do
  let p ← s.getPhysical id
  let global := { p with global := true, updatedAt := now }
  .ok (global, (s.clearGlobal now p.dbType id).putPhysical global)

/-- Deletes the rules of namespaces that lead to a physical database, and counts them. Each rule stands under its own key, so as
many are deleted as are found. -/
def removeRulesTo (s : Store) (id : String) : Nat × Store :=
  let rules := s.namespaceRules.values.filter (·.physicalDatabaseId = id)
  (rules.length, rules.foldl (fun s r => s.deleteNamespaceRule r.ns r.name) s)

/-- Deletes the live instruction of a physical database, if there is one. -/
def discardMigration (s : Store) (physicalDatabaseId : String) : Store :=
  match s.instructionFor? physicalDatabaseId with
  | some i => s.deleteInstruction i.id
  | none => s

/-- Deregisters a physical database, and counts the rules that went with it. -/
def deregister (s : Store) (id : String) : Except RegistryError (Nat × Store) := do
  let p ← s.getPhysical id
  if p.global then .error (.conflict (.isGlobal id p.dbType))
  let hosted := s.logicalsOn id
  if !hosted.isEmpty then .error (.conflict (.stillHosts id hosted.length))
  let (removed, s) := s.removeRulesTo id
  .ok (removed, (s.discardMigration id).deletePhysical id)

end DatabaseBroker.Store
