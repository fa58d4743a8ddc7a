import DatabaseBroker.Store

/-!
# What rule resolution reads

Resolution looks at rules, labels and physical databases through a view. The view of a store shows what is stored; an
overlay shows rules and labels of one namespace as if they were stored. Overlaid rules take the place of the stored set
of their type, and leave the sets of other types in view.
-/

namespace DatabaseBroker

/-- Rules, labels and physical databases as resolution sees them. -/
structure RoutingView where
  /-- The rules on microservices of a namespace for a type. -/
  microserviceRules : String → String → List MicroserviceRule
  /-- The labels that a microservice of a namespace carries. -/
  labels : String → String → Labels
  /-- The permanent entry of a namespace for a type. -/
  permanentEntry? : String → String → Option PermanentEntry
  /-- The rules of a namespace for a type. -/
  namespaceRules : String → String → List NamespaceRule
  /-- The physical databases of a type, by id. -/
  physicals : String → List PhysicalDatabase

/-- The view of what is stored. -/
def Store.view (s : Store) : RoutingView where
  microserviceRules ns dbType := ((s.ruleSet? ns dbType).map (·.rules)).getD []
  labels ns microservice := ((s.labels? ns microservice).map (·.labels)).getD .empty
  permanentEntry? := s.permanentEntry?
  namespaceRules ns dbType := (s.namespaceRulesOf ns).filter (·.dbType = dbType)
  physicals := s.physicalsOf

/-- The view with rules and labels of a namespace laid over it. -/
def RoutingView.overlay (v : RoutingView) (ns : String) (rules : List MicroserviceRule) (labels : KeyMap Labels) :
    RoutingView :=
  { v with
    microserviceRules := fun ns' dbType =>
      let laid := rules.filter (·.dbType = dbType)
      if ns' = ns && !laid.isEmpty then laid else v.microserviceRules ns' dbType
    labels := fun ns' microservice =>
      if ns' = ns then (labels.get? microservice).getD (v.labels ns' microservice) else v.labels ns' microservice }

end DatabaseBroker
