import DatabaseBroker.Record.Domain
import DatabaseBroker.Record.Instruction
import DatabaseBroker.Record.Rule

/-!
# The store

Ten tables in key order. Two of them are indexes: `classifierIndex` leads from a type and a classifier to the id of a
logical database, `instructionsByPhysical` from a physical database to the id of its instruction. Rules, entries and
labels stand under composite keys; a scan for a namespace also meets namespaces that begin with it and a slash, so a
listing keeps the records whose own namespace is the one asked for.

This module reads; `Store.Write` writes.
-/

namespace DatabaseBroker

/-- Everything that is kept. -/
structure Store where
  physicals : KeyMap PhysicalDatabase
  logicals : KeyMap LogicalDatabase
  classifierIndex : KeyMap String
  namespaceRules : KeyMap NamespaceRule
  permanentEntries : KeyMap PermanentEntry
  microserviceRules : KeyMap MicroserviceRuleSet
  microserviceLabels : KeyMap MicroserviceLabels
  domains : KeyMap Domain
  instructions : KeyMap Instruction
  instructionsByPhysical : KeyMap String

namespace Store

/-- The store without records. -/
def empty : Store :=
  ⟨.empty, .empty, .empty, .empty, .empty, .empty, .empty, .empty, .empty, .empty⟩

/-- The empty store stands for a store where none is given. -/
instance : Inhabited Store := ⟨empty⟩

/-! ## Physical databases -/

/-- The physical database of an id. -/
def physical? (s : Store) (id : String) : Option PhysicalDatabase := s.physicals.get? id

/-- Every physical database, by id. -/
def physicalList (s : Store) : List PhysicalDatabase := s.physicals.values

/-- The physical databases of a type, by id. -/
def physicalsOf (s : Store) (dbType : String) : List PhysicalDatabase :=
  (s.physicalList.filter (·.dbType = dbType)).mergeSort fun a b => decide (a.id ≤ b.id)

/-- The global physical database of a type: of several, the one with the lowest id. -/
def globalOf? (s : Store) (dbType : String) : Option PhysicalDatabase := (s.physicalsOf dbType).find? (·.global)

/-! ## Logical databases -/

/-- The logical database of an id. -/
def logical? (s : Store) (id : String) : Option LogicalDatabase := s.logicals.get? id

/-- Every logical database, by id. -/
def logicalList (s : Store) : List LogicalDatabase := s.logicals.values

/-- The logical database that the index holds for a type and a classifier. -/
def findLogical? (s : Store) (dbType : String) (c : Classifier) : Option LogicalDatabase :=
  (s.classifierIndex.get? (classifierKey dbType c)).bind s.logical?

/-- The databases bound to a physical database that are not archived, by id. -/
def logicalsOn (s : Store) (physicalDatabaseId : String) : List LogicalDatabase :=
  (s.logicalList.filter fun db => db.physicalDatabaseId = physicalDatabaseId && !db.markedForDrop).mergeSort
    fun a b => decide (a.id ≤ b.id)

/-! ## Rules and labels -/

/-- The rule of a name in a namespace. -/
def namespaceRule? (s : Store) (ns name : String) : Option NamespaceRule := s.namespaceRules.get? (pairKey ns name)

/-- The rules of a namespace, by name. -/
def namespaceRulesOf (s : Store) (ns : String) : List NamespaceRule :=
  (s.namespaceRules.scan (pairKey ns "")).filter (·.ns = ns)

/-- The permanent entry of a namespace and a type. -/
def permanentEntry? (s : Store) (ns dbType : String) : Option PermanentEntry :=
  s.permanentEntries.get? (pairKey ns dbType)

/-- The permanent entries of a namespace, or of all. -/
def permanentEntriesOf (s : Store) : Option String → List PermanentEntry
  | some ns => (s.permanentEntries.scan (pairKey ns "")).filter (·.ns = ns)
  | none => s.permanentEntries.values

/-- The rules on microservices of a namespace and a type. -/
def ruleSet? (s : Store) (ns dbType : String) : Option MicroserviceRuleSet := s.microserviceRules.get? (pairKey ns dbType)

/-- The rule sets of a namespace, by type. -/
def ruleSetsOf (s : Store) (ns : String) : List MicroserviceRuleSet :=
  (s.microserviceRules.scan (pairKey ns "")).filter (·.ns = ns)

/-- The labels of a microservice of a namespace. -/
def labels? (s : Store) (ns microservice : String) : Option MicroserviceLabels :=
  s.microserviceLabels.get? (pairKey ns microservice)

/-! ## Domains and instructions -/

/-- The blue-green domain of a controller namespace. -/
def domain? (s : Store) (controller : String) : Option Domain := s.domains.get? controller

/-- The instruction of an id. -/
def instruction? (s : Store) (id : String) : Option Instruction := s.instructions.get? id

/-- The live instruction of a physical database. -/
def instructionFor? (s : Store) (physicalDatabaseId : String) : Option Instruction :=
  (s.instructionsByPhysical.get? physicalDatabaseId).bind s.instruction?

end Store

end DatabaseBroker
