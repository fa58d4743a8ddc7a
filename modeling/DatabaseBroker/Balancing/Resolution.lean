import DatabaseBroker.Balancing.View

/-!
# Resolution

Where a new logical database goes. Four tiers are asked in turn, and the first that names a registered physical database
of the type decides: the rules on microservices by order, the permanent entry of the namespace, the rules of the
namespace by order and name, and the global physical database of the type. A rule whose target is not registered with
the type is passed over.
-/

namespace DatabaseBroker

/-- Who asks, and for a database of which type. -/
structure Route where
  ns : String
  microservice : String
  dbType : String
deriving DecidableEq

/-- The rule that decided. -/
inductive AppliedRule where
  | onMicroservice (order : UInt32) (label : Label)
  | permanent (ns : String)
  | namespaced (name : String) (order : UInt32)
  | global
deriving DecidableEq

/-- The rule as JSON: its tier, and what names it within the tier. -/
def AppliedRule.toJson : AppliedRule → Json
  | .onMicroservice order label =>
    .ofMembers [("tier", .string "on_microservice"), ("order", .ofUInt32 order), ("label", .string label.text)]
  | .permanent ns => .ofMembers [("tier", .string "permanent"), ("namespace", .string ns)]
  | .namespaced name order =>
    .ofMembers [("tier", .string "namespace"), ("name", .string name), ("order", .ofUInt32 order)]
  | .global => .ofMembers [("tier", .string "global")]

/-- The physical database that was chosen, with its labels, and the rule that chose it. -/
structure Decision where
  physicalDatabaseId : String
  applied : AppliedRule
  labels : Labels
deriving DecidableEq

/-- The choice of a physical database by a rule. -/
def PhysicalDatabase.chosenBy (p : PhysicalDatabase) (rule : AppliedRule) : Decision := ⟨p.id, rule, p.labels⟩

namespace RoutingView

/-- The physical database of a type with an id. -/
def physical? (v : RoutingView) (dbType id : String) : Option PhysicalDatabase := (v.physicals dbType).find? (·.id = id)

/-- The target of a rule that applies by a label: the pinned physical database, or the first that carries the label. -/
def targetOf? (v : RoutingView) (dbType : String) (rule : MicroserviceRule) (label : Label) : Option PhysicalDatabase :=
  match rule.physicalDatabaseId with
  | some pinned => v.physical? dbType pinned
  | none => (v.physicals dbType).find? fun p => label.selects p.labels

/-- What one rule on microservices decides for a microservice with these labels. -/
def decideByRule? (v : RoutingView) (dbType : String) (labels : Labels) (rule : MicroserviceRule) : Option Decision :=
  (rule.matchedLabel? labels).bind fun label =>
    (v.targetOf? dbType rule label).map (·.chosenBy (.onMicroservice rule.order label))

/-- The rules on microservices that apply to a route, by order. -/
def applyingRules (v : RoutingView) (r : Route) : List MicroserviceRule :=
  ((v.microserviceRules r.ns r.dbType).filter fun rule => rule.dbType = r.dbType && rule.appliesTo r.microservice).mergeSort
    fun a b => decide (a.order ≤ b.order)

/-- The first tier: rules on microservices. -/
def decideOnMicroservice? (v : RoutingView) (r : Route) : Option Decision :=
  (v.applyingRules r).findSome? (v.decideByRule? r.dbType (v.labels r.ns r.microservice))

/-- The second tier: the permanent entry. -/
def decidePermanent? (v : RoutingView) (r : Route) : Option Decision :=
  (v.permanentEntry? r.ns r.dbType).bind fun e =>
    (v.physical? r.dbType e.physicalDatabaseId).map (·.chosenBy (.permanent e.ns))

/-- The rules of a namespace that are for a type, by order and name. -/
def orderedRules (v : RoutingView) (ns dbType : String) : List NamespaceRule :=
  (v.namespaceRules ns dbType).mergeSort fun a b => decide (a.order < b.order ∨ (a.order = b.order ∧ a.name ≤ b.name))

/-- The third tier: the rules of the namespace. -/
def decideNamespaced? (v : RoutingView) (r : Route) : Option Decision :=
  (v.orderedRules r.ns r.dbType).findSome? fun rule =>
    (v.physical? r.dbType rule.physicalDatabaseId).map (·.chosenBy (.namespaced rule.name rule.order))

/-- The last tier: the global physical database of the type. -/
def decideGlobal? (v : RoutingView) (r : Route) : Option Decision :=
  ((v.physicals r.dbType).find? (·.global)).map (·.chosenBy .global)

/-- Where a new database for a route goes; nowhere when no tier decides. -/
def resolve? (v : RoutingView) (r : Route) : Option Decision :=
  v.decideOnMicroservice? r <|> v.decidePermanent? r <|> v.decideNamespaced? r <|> v.decideGlobal? r

/-- The route of a classifier in a namespace. -/
def routeOf (c : Classifier) (dbType ns : String) : Route := ⟨ns, c.microserviceName.getD "", dbType⟩

end RoutingView

end DatabaseBroker
