import DatabaseBroker.Classifier

/-!
# Legacy classifiers

Before scopes there was a marker: `isServiceDb`, or `isService` in older clients, was true for the database of the
microservice as a whole. A classifier without a scope has the legacy shape. `toCurrent?` reads the scope off the marker
and the tenant, `legacyEquivalent?` writes the shape that a client without scopes would have used.
-/

namespace DatabaseBroker.Classifier

/-- The marker of current legacy clients and the one before it. -/
def markerKeys : List String := ["isServiceDb", "isService"]

/-- Whether the classifier has the shape from before scopes. -/
def isLegacy (c : Classifier) : Bool := c.scope.isNone

/-- A legacy classifier needs a namespace, and a microservice or a tenant. -/
def validateLegacy (c : Classifier) : Except Violation Unit := do
  let _ ← require .ns c.ns
  if c.microserviceName.isNone && c.tenantId.isNone then .error (.missingKey .microserviceName) else .ok ()

/-- The truth value of the marker in force: the first that is there, if it holds one. -/
def marker? (c : Classifier) : Option Bool :=
  (markerKeys.findSome? fun key => c.extensions.get? key).bind Json.asBool?

/-- The extensions without markers. -/
def unmarked (c : Classifier) : KeyMap Json := markerKeys.foldl KeyMap.erase c.extensions

/-- Whether a legacy classifier stands for a tenant's database: it names a tenant and no marker says otherwise. -/
def isTenantLegacy (c : Classifier) : Bool := c.tenantId.isSome && c.marker? != some true

/-- The current shape of a legacy classifier; none when it has a scope, fails the legacy check or names no
microservice. -/
def toCurrent? (c : Classifier) : Option Classifier :=
  if !c.isLegacy || (violation? c.validateLegacy).isSome || c.microserviceName.isNone then none
  else some
    { c with
      scope := some (if c.isTenantLegacy then tenantScope else serviceScope)
      tenantId := if c.isTenantLegacy then c.tenantId else none
      extensions := c.unmarked }

/-- The shape that a client without scopes would have stored; none for a classifier that has it already. -/
def legacyEquivalent? (c : Classifier) : Option Classifier :=
  c.scope.map fun scope =>
    { c with
      scope := none
      extensions := c.extensions.insert "isServiceDb" (.bool (scope = serviceScope)) }

end DatabaseBroker.Classifier
