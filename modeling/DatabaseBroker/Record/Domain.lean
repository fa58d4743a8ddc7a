import DatabaseBroker.Json.Decoder

/-!
# Blue-green domains

A controller namespace stands for a group of member namespaces, of which at most one is active. Requests for the
controller go to the active member.
-/

namespace DatabaseBroker

/-- Whether a member takes requests. -/
inductive MemberState where
  | active
  | idle
deriving DecidableEq

namespace MemberState

/-- The name of a state. -/
def text : MemberState → String
  | active => "active"
  | idle => "idle"

/-- The state of a name. -/
def ofName? (s : String) : Option MemberState :=
  if s = "active" then some active else if s = "idle" then some idle else none

end MemberState

/-- A member namespace. -/
structure Member where
  ns : String
  state : MemberState
  version : Option String
deriving DecidableEq

namespace Member

/-- A member as JSON. -/
def toJson (m : Member) : Json := .ofMembers [
  ("namespace", .string m.ns),
  ("state", .string m.state.text),
  ("version", .ofOption .string m.version)]

/-- The fields of a member, the version optional. -/
def fields : Fields Member :=
  Member.mk <$> .required "namespace" .string
    <*> .required "state" (.variant MemberState.ofName?)
    <*> .absentable "version" .string

end Member

/-- A controller namespace and its members. -/
structure Domain where
  controller : String
  members : List Member
  updatedAt : UInt64
deriving DecidableEq

namespace Domain

/-- The first member that is active. -/
def activeMember? (d : Domain) : Option Member := d.members.find? (·.state = .active)

/-- A domain as JSON. -/
def toJson (d : Domain) : Json := .ofMembers [
  ("controllerNamespace", .string d.controller),
  ("members", .ofList Member.toJson d.members),
  ("updatedAt", .ofUInt64 d.updatedAt)]

/-- The fields of a domain. -/
def fields : Fields Domain :=
  Domain.mk <$> .required "controllerNamespace" .string
    <*> .required "members" (.list Member.fields.decode)
    <*> .required "updatedAt" .uint64

end Domain

end DatabaseBroker
