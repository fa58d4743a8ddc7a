import DatabaseBroker.Http.Call
import DatabaseBroker.Http.Target

/-!
# Routes

Which call a request is. A path is matched segment by segment as it is written; a parameter takes one segment that is
not empty and is decoded only then. Where two patterns match, the one with a fixed segment at the first difference comes
first in the table. A request that is no call is rejected with a status and no body: for its path, its method, its
parameters, its query or its body, in this order.
-/

namespace DatabaseBroker.Http

/-- A request. -/
structure Request where
  method : String
  target : String
  /-- Whether the body is said to be JSON. -/
  isJson : Bool
  body : String
deriving DecidableEq

/-- Why a request is no call. -/
inductive Rejection where
  | unknownPath
  | otherMethod
  | badParameter
  | badQuery
  | noJson
  | malformedBody
  | mismatchedBody
deriving DecidableEq

/-- The status of a rejection, whose answer has no body. -/
def Rejection.status : Rejection → Nat
  | .unknownPath => 404
  | .otherMethod => 405
  | .badParameter | .badQuery | .malformedBody => 400
  | .noJson => 415
  | .mismatchedBody => 422

/-- A segment of a path: fixed, or a parameter. -/
inductive Segment where
  | fixed (text : String)
  | parameter
deriving DecidableEq

/-- The parameters of a path that matches a pattern. -/
def matchPath? : List Segment → List String → Option (List String)
  | [], [] => some []
  | .fixed t :: pattern, s :: segments => if t = s then matchPath? pattern segments else none
  | .parameter :: pattern, s :: segments => if s = "" then none else (matchPath? pattern segments).map (s :: ·)
  | _, _ => none

/-- What a route makes of the parameters, the query and the request. -/
abbrev Handler := List String → List (String × String) → Request → Except Rejection Call

/-- A route without query or body. -/
def plain (call : List String → Call) : Handler := fun parameters _ _ => .ok (call parameters)

/-- A route with a body. -/
def withBody {α : Type} (decode : Decoder α) (call : List String → α → Call) : Handler := fun parameters _ request =>
  if !request.isJson then .error .noJson
  else match decode.ofText request.body with
    | .ok a => .ok (call parameters a)
    | .error .malformed => .error .malformedBody
    | .error .mismatch => .error .mismatchedBody

/-- The content of a field that a query may hold once. -/
def queryField (query : List (String × String)) (name : String) : Except Rejection (Option String) :=
  match query.filter (·.1 = name) with
  | [] => .ok none
  | [field] => .ok (some field.2)
  | _ => .error .badQuery

/-- A route with a type in its query. -/
def withType (call : Option String → Call) : Handler := fun _ query _ => (queryField query "type").map call

/-- A route with a namespace and a type in its query. -/
def withNamespaceAndType (call : Option String → Option String → Call) : Handler := fun _ query _ => do
  let ns ← queryField query "namespace"
  let dbType ← queryField query "type"
  .ok (call ns dbType)

/-- The segment at a place of a path. -/
def parameterAt (parameters : List String) (i : Nat) : String := (parameters[i]?).getD ""

open Segment in
/-- The table of routes under the root of the interface. -/
def routes : List (List Segment × List (String × Handler)) := [
  ([fixed "healthz"], [("GET", plain fun _ => .health)]),
  ([fixed "databases"], [("POST", withBody DatabaseRequest.fields.decode fun _ => .createDatabase)]),
  ([fixed "databases", fixed "lookup"], [("POST", withBody DatabaseRequest.fields.decode fun _ => .lookupDatabase)]),
  ([fixed "databases", parameter], [("GET", plain fun p => .getDatabase (parameterAt p 0))]),
  ([fixed "databases", parameter, fixed "drop"], [("POST", plain fun p => .dropDatabase (parameterAt p 0))]),
  ([fixed "physical_databases"], [("GET", withType .listPhysical)]),
  ([fixed "namespaces", parameter, fixed "balancing", fixed "rules"],
    [("GET", plain fun p => .listNamespaceRules (parameterAt p 0))]),
  ([fixed "namespaces", parameter, fixed "balancing", fixed "rules", parameter], [
    ("PUT", withBody NamespaceRuleRequest.fields.decode fun p => .putNamespaceRule (parameterAt p 0) (parameterAt p 1)),
    ("DELETE", plain fun p => .deleteNamespaceRule (parameterAt p 0) (parameterAt p 1))]),
  ([fixed "namespaces", parameter, fixed "rules", fixed "onMicroservices"], [
    ("PUT", withBody (.list MicroserviceRule.fields.decode) fun p => .putMicroserviceRules (parameterAt p 0)),
    ("GET", plain fun p => .getMicroserviceRules (parameterAt p 0))]),
  ([fixed "namespaces", parameter, fixed "rules", fixed "onMicroservices", fixed "validation"],
    [("PUT", withBody (.list MicroserviceRule.fields.decode) fun p => .validateMicroserviceRules (parameterAt p 0))]),
  ([fixed "namespaces", parameter, fixed "rules", fixed "debug"],
    [("POST", withBody Hypothesis.fields.decode fun p => .evaluateRules (parameterAt p 0))]),
  ([fixed "namespaces", parameter, fixed "microservices", parameter, fixed "labels"], [
    ("PUT", withBody (.map .string) fun p => .putLabels (parameterAt p 0) (parameterAt p 1)),
    ("GET", plain fun p => .getLabels (parameterAt p 0) (parameterAt p 1))]),
  ([fixed "balancing", fixed "rules", fixed "permanent"], [
    ("PUT", withBody (.list PermanentRule.fields.decode) fun _ => .putPermanentRules),
    ("GET", withNamespaceAndType .getPermanentEntries),
    ("DELETE", withNamespaceAndType .deletePermanentEntries)]),
  ([fixed "bluegreen", fixed "domains"], [("GET", plain fun _ => .listDomains)]),
  ([fixed "bluegreen", fixed "domains", parameter], [
    ("PUT", withBody DomainRequest.fields.decode fun p => .putDomain (parameterAt p 0)),
    ("GET", plain fun p => .getDomain (parameterAt p 0)),
    ("DELETE", plain fun p => .deleteDomain (parameterAt p 0))]),
  ([parameter, fixed "physical_databases", parameter], [
    ("PUT", withBody Registration.fields.decode fun p => .register (parameterAt p 0) (parameterAt p 1)),
    ("GET", plain fun p => .getPhysical (parameterAt p 0) (parameterAt p 1)),
    ("DELETE", plain fun p => .deregister (parameterAt p 0) (parameterAt p 1))]),
  ([parameter, fixed "physical_databases", parameter, fixed "global"],
    [("PUT", plain fun p => .setGlobal (parameterAt p 0) (parameterAt p 1))]),
  ([parameter, fixed "physical_databases", parameter, fixed "instruction", parameter, fixed "additional-roles"],
    [("POST", withBody Acknowledgement.fields.decode fun p =>
      .acknowledge (parameterAt p 0) (parameterAt p 1) (parameterAt p 2))])]

/-- The segments that every path begins with. -/
def rootSegments : List Segment := [.fixed "", .fixed "api", .fixed "v1"]

/-- The methods of the route of a path, and the parameters as written. -/
def routeOf? (segments : List String) : Option (List (String × Handler) × List String) :=
  routes.findSome? fun (pattern, methods) => (matchPath? (rootSegments ++ pattern) segments).map (methods, ·)

/-- The method by which a request is answered: a request for the head alone is one for the whole. -/
def answeringMethod (method : String) : String := if method = "HEAD" then "GET" else method

/-- The call that a request is. -/
def Request.call (r : Request) : Except Rejection Call :=
  let target := Target.ofText r.target
  match routeOf? target.segments with
  | none => .error .unknownPath
  | some (methods, written) =>
    match methods.find? (·.1 = answeringMethod r.method) with
    | none => .error .otherMethod
    | some (_, handler) =>
      match written.mapM decodeSegment? with
      | none => .error .badParameter
      | some parameters => handler parameters target.query r

/-- Answers a request at a time. -/
def handle (c : ControlPlane) (now : UInt64) (r : Request) : Response × ControlPlane :=
  match r.call with
  | .error rejection => (⟨rejection.status, none⟩, c)
  | .ok call =>
    let (response, c) := call.run c now
    (if r.method = "HEAD" then ⟨response.status, none⟩ else response, c)

end DatabaseBroker.Http
