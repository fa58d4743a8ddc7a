import DatabaseBroker.Store.Write
import DatabaseBroker.Text.Blank

/-!
# Keeping blue-green domains

A domain has members that are named, distinct and different from the controller, at most one of them active. No namespace
is a controller and a member at once: a member that is a controller is refused, and so is a controller that is a member
of another domain.
-/

namespace DatabaseBroker

/-- Why a domain is refused. -/
inductive InvalidDomain where
  | noMembers
  | manyActive (count : Nat)
  | blankMember
  | controllerAsMember
  | duplicateMember (ns : String)
  | memberIsController (ns : String)
  | controllerIsMember (controller other : String)
deriving DecidableEq

/-- Why a blue-green request fails. -/
inductive BlueGreenError where
  | domainNotFound (controller : String)
  | activeNamespaceNotFound (controller : String)
  | versionedDatabase (id version : String)
  | invalidDomain (reason : InvalidDomain)
deriving DecidableEq

/-- What is said of a refused domain. -/
def InvalidDomain.message : InvalidDomain → String
  | .noMembers => "domain has no members"
  | .manyActive count => toString count ++ " active members, at most one allowed"
  | .blankMember => "empty member namespace"
  | .controllerAsMember => "controller cannot be its own member"
  | .duplicateMember ns => "duplicate member " ++ ns
  | .memberIsController ns => "member " ++ ns ++ " is itself a controller namespace"
  | .controllerIsMember controller other => controller ++ " is already a member of domain " ++ other

/-- What is said of a failed blue-green request. -/
def BlueGreenError.message : BlueGreenError → String
  | .domainNotFound controller => "blue-green domain not found: " ++ controller
  | .activeNamespaceNotFound controller => "active namespace not found for blue-green domain: " ++ controller
  | .versionedDatabase id version =>
    "cannot interact with a versioned database " ++ id ++ " (version " ++ version ++ ")"
  | .invalidDomain reason => "invalid blue-green domain: " ++ reason.message

/-- What is wrong with the first bad member: it is blank, the controller, or one of those before it. -/
def memberProblem? (controller : String) : List String → List Member → Option InvalidDomain
  | _, [] => none
  | seen, m :: rest =>
    if Text.isBlank m.ns then some .blankMember
    else if m.ns = controller then some .controllerAsMember
    else if seen.contains m.ns then some (.duplicateMember m.ns)
    else memberProblem? controller (m.ns :: seen) rest

/-- What is wrong with the members of a domain by themselves. -/
def membersProblem? (controller : String) (members : List Member) : Option InvalidDomain :=
  let active := members.countP (·.state = .active)
  if members.isEmpty then some .noMembers
  else if active > 1 then some (.manyActive active)
  else memberProblem? controller [] members

namespace Store

/-- What is wrong with a domain beside the others. -/
def domainConflict? (s : Store) (controller : String) (members : List Member) : Option InvalidDomain :=
  match members.find? fun m => (s.domain? m.ns).isSome with
  | some m => some (.memberIsController m.ns)
  | none =>
    let others := s.domains.values.filter fun d => d.controller ≠ controller
    (others.find? fun d => d.members.any (·.ns = controller)).map fun d => .controllerIsMember controller d.controller

/-- Stores the domain of a controller, in place of the one it had. -/
def setDomain (s : Store) (now : UInt64) (controller : String) (members : List Member) :
    Except BlueGreenError (Domain × Store) :=
  match membersProblem? controller members <|> s.domainConflict? controller members with
  | some reason => .error (.invalidDomain reason)
  | none =>
    let domain : Domain := ⟨controller, members, now⟩
    .ok (domain, s.putDomain domain)

/-- The domain of a controller. -/
def getDomain (s : Store) (controller : String) : Except BlueGreenError Domain :=
  match s.domain? controller with
  | some d => .ok d
  | none => .error (.domainNotFound controller)

/-- Deletes the domain of a controller. -/
def removeDomain (s : Store) (controller : String) : Except BlueGreenError Store :=
  match s.domain? controller with
  | some _ => .ok (s.deleteDomain controller)
  | none => .error (.domainNotFound controller)

end Store

end DatabaseBroker
