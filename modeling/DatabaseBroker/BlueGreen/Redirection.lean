import DatabaseBroker.BlueGreen.Domains

/-!
# Redirection to the active namespace

A request for a controller namespace goes to the active member of its domain, unless the controller itself holds a
database for the classifier. A database of the active member that carries a version belongs to switchover and is refused.
-/

namespace DatabaseBroker

/-- Where a classifier leads. -/
structure Redirection where
  classifier : Classifier
  ns : String
  redirected : Bool

namespace Store

/-- The active member namespace of a controller. -/
def activeNamespace (s : Store) (controller : String) : Except BlueGreenError String :=
  match s.domain? controller with
  | none => .error (.domainNotFound controller)
  | some d => match d.activeMember? with
    | none => .error (.activeNamespaceNotFound controller)
    | some m => .ok m.ns

/-- Where a classifier for a namespace leads: to the namespace itself, or from a controller without a database of its own
to the active member. -/
def redirect (s : Store) (c : Classifier) (dbType ns : String) : Except BlueGreenError Redirection :=
  let here : Redirection := ⟨c.withNamespace ns, ns, false⟩
  if (s.domain? ns).isNone || (s.findLogical? dbType here.classifier).isSome then .ok here
  else do
    let active ← s.activeNamespace ns
    let there := c.withNamespace active
    match (s.findLogical? dbType there).bind fun db => db.bgVersion.map (db.id, ·) with
    | some (id, version) => .error (.versionedDatabase id version)
    | none => .ok ⟨there, active, true⟩

end Store

end DatabaseBroker
