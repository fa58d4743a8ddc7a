import DatabaseBroker.Store

/-!
# Tables by name

Every table as a map from keys to the JSON of its records: what is there whatever its type.
-/

namespace DatabaseBroker

/-- The ten tables. -/
inductive Table where
  | physicals
  | logicals
  | classifierIndex
  | namespaceRules
  | permanentEntries
  | microserviceRules
  | microserviceLabels
  | domains
  | instructions
  | instructionsByPhysical
deriving DecidableEq

namespace Table

/-- All tables. -/
def all : List Table := [
  physicals, logicals, classifierIndex, namespaceRules, permanentEntries, microserviceRules, microserviceLabels,
  domains, instructions, instructionsByPhysical]

/-- A table as it is named. -/
def text : Table → String
  | physicals => "physical_databases"
  | logicals => "logical_databases"
  | classifierIndex => "classifier_index"
  | namespaceRules => "namespace_rules"
  | permanentEntries => "permanent_rules"
  | microserviceRules => "microservice_rules"
  | microserviceLabels => "microservice_labels"
  | domains => "blue_green_domains"
  | instructions => "instructions"
  | instructionsByPhysical => "instructions_by_physical_db"

/-- The table of a name. -/
def ofName? (s : String) : Option Table := all.find? (·.text = s)

end Table

/-- The records of a table as JSON. -/
def Store.recordsOf (s : Store) : Table → KeyMap Json
  | .physicals => s.physicals.mapValues PhysicalDatabase.toJson
  | .logicals => s.logicals.mapValues LogicalDatabase.toJson
  | .classifierIndex => s.classifierIndex.mapValues .string
  | .namespaceRules => s.namespaceRules.mapValues NamespaceRule.toJson
  | .permanentEntries => s.permanentEntries.mapValues PermanentEntry.toJson
  | .microserviceRules => s.microserviceRules.mapValues MicroserviceRuleSet.toJson
  | .microserviceLabels => s.microserviceLabels.mapValues MicroserviceLabels.toJson
  | .domains => s.domains.mapValues Domain.toJson
  | .instructions => s.instructions.mapValues Instruction.toJson
  | .instructionsByPhysical => s.instructionsByPhysical.mapValues .string

end DatabaseBroker
