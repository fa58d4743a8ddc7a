import DatabaseBroker.Json.Decoder
import DatabaseBroker.Label

/-!
# Balancing rules

Three kinds of rules choose the physical database of a new logical database. A rule of a namespace sends a type to a
target; the lowest order wins, and the rule goes when its target is deregistered. A permanent entry does the same for a
namespace and a type once and for all. A rule on microservices looks at the labels that a microservice carries, and
either pins its target or takes a physical database that carries the same label.

Records of rules are stored under composite keys, two names joined by a slash.
-/

namespace DatabaseBroker

namespace Label

/-- A label as JSON, key and value in one text. -/
def toJson (l : Label) : Json := .string l.text

/-- A text that is no label is refused. -/
def decoder : Decoder Label := fun d => do
  let s ← Decoder.string d
  match parse? s with
  | some l => .ok l
  | none => .error .mismatch

end Label

/-- The key of a record that is named by a pair. -/
def pairKey (a b : String) : String := a ++ "/" ++ b

/-- A rule of a namespace for a type. -/
structure NamespaceRule where
  name : String
  ns : String
  dbType : String
  /-- Lower orders win. -/
  order : UInt32
  physicalDatabaseId : String
  updatedAt : UInt64
deriving DecidableEq

namespace NamespaceRule

/-- The key of a rule: its namespace and its name. -/
def key (r : NamespaceRule) : String := pairKey r.ns r.name

/-- A rule of a namespace as JSON. -/
def toJson (r : NamespaceRule) : Json := .ofMembers [
  ("name", .string r.name),
  ("namespace", .string r.ns),
  ("dbType", .string r.dbType),
  ("order", .ofUInt32 r.order),
  ("physicalDatabaseId", .string r.physicalDatabaseId),
  ("updatedAt", .ofUInt64 r.updatedAt)]

/-- The fields of a rule of a namespace. -/
def fields : Fields NamespaceRule :=
  NamespaceRule.mk <$> .required "name" .string
    <*> .required "namespace" .string
    <*> .required "dbType" .string
    <*> .required "order" .uint32
    <*> .required "physicalDatabaseId" .string
    <*> .required "updatedAt" .uint64

end NamespaceRule

/-- The permanent target of a type in a namespace. -/
structure PermanentEntry where
  ns : String
  dbType : String
  physicalDatabaseId : String
deriving DecidableEq

namespace PermanentEntry

/-- The key of an entry: its namespace and its type. -/
def key (e : PermanentEntry) : String := pairKey e.ns e.dbType

/-- An entry as JSON. -/
def toJson (e : PermanentEntry) : Json := .ofMembers [
  ("namespace", .string e.ns),
  ("dbType", .string e.dbType),
  ("physicalDatabaseId", .string e.physicalDatabaseId)]

/-- The fields of an entry. -/
def fields : Fields PermanentEntry :=
  PermanentEntry.mk <$> .required "namespace" .string
    <*> .required "dbType" .string
    <*> .required "physicalDatabaseId" .string

end PermanentEntry

/-- A rule on microservices. -/
structure MicroserviceRule where
  dbType : String
  order : UInt32
  /-- The microservices that the rule is for; all of the namespace when there are none. -/
  microservices : List String
  /-- The rule applies to a microservice that carries any of these. -/
  labels : List Label
  /-- The pinned target; without one, a physical database that carries the label. -/
  physicalDatabaseId : Option String
deriving DecidableEq

namespace MicroserviceRule

/-- Whether a rule is for a microservice: one that names none is for all. -/
def appliesTo (r : MicroserviceRule) (microservice : String) : Bool :=
  r.microservices.isEmpty || r.microservices.contains microservice

/-- The first label of the rule that the labels hold. -/
def matchedLabel? (r : MicroserviceRule) (labels : Labels) : Option Label := r.labels.find? (·.selects labels)

/-- A rule on microservices as JSON. -/
def toJson (r : MicroserviceRule) : Json := .ofMembers [
  ("type", .string r.dbType),
  ("order", .ofUInt32 r.order),
  ("microservices", .ofStrings r.microservices),
  ("labels", .ofList Label.toJson r.labels),
  ("physicalDatabaseId", .ofOption .string r.physicalDatabaseId)]

/-- The fields of a rule on microservices, of which type and labels have to be given. -/
def fields : Fields MicroserviceRule :=
  MicroserviceRule.mk <$> .required "type" .string
    <*> .defaulted "order" .uint32 0
    <*> .defaulted "microservices" (.list .string) []
    <*> .required "labels" (.list Label.decoder)
    <*> .absentable "physicalDatabaseId" .string

end MicroserviceRule

/-- The rules on microservices of a namespace for a type. -/
structure MicroserviceRuleSet where
  ns : String
  dbType : String
  rules : List MicroserviceRule
  updatedAt : UInt64
deriving DecidableEq

namespace MicroserviceRuleSet

/-- The key of a set of rules: its namespace and its type. -/
def key (s : MicroserviceRuleSet) : String := pairKey s.ns s.dbType

/-- A set of rules as JSON. -/
def toJson (s : MicroserviceRuleSet) : Json := .ofMembers [
  ("namespace", .string s.ns),
  ("dbType", .string s.dbType),
  ("rules", .ofList MicroserviceRule.toJson s.rules),
  ("updatedAt", .ofUInt64 s.updatedAt)]

/-- The fields of a set of rules. -/
def fields : Fields MicroserviceRuleSet :=
  MicroserviceRuleSet.mk <$> .required "namespace" .string
    <*> .required "dbType" .string
    <*> .required "rules" (.list MicroserviceRule.fields.decode)
    <*> .required "updatedAt" .uint64

end MicroserviceRuleSet

/-- The labels that a microservice of a namespace carries. -/
structure MicroserviceLabels where
  ns : String
  microservice : String
  labels : Labels
  updatedAt : UInt64
deriving DecidableEq

namespace MicroserviceLabels

/-- The key of labels: the namespace and the microservice. -/
def key (l : MicroserviceLabels) : String := pairKey l.ns l.microservice

/-- The labels of a microservice as JSON. -/
def toJson (l : MicroserviceLabels) : Json := .ofMembers [
  ("namespace", .string l.ns),
  ("microservice", .string l.microservice),
  ("labels", .ofStringMap l.labels),
  ("updatedAt", .ofUInt64 l.updatedAt)]

/-- The fields of the labels of a microservice. -/
def fields : Fields MicroserviceLabels :=
  MicroserviceLabels.mk <$> .required "namespace" .string
    <*> .required "microservice" .string
    <*> .required "labels" (.map .string)
    <*> .required "updatedAt" .uint64

end MicroserviceLabels

end DatabaseBroker
