import DatabaseBroker.Json.Printer
import DatabaseBroker.Text.Blank

/-!
# Classifiers

A classifier identifies a logical database: a map from keys to JSON values in which four keys are known (`namespace`,
`microserviceName`, `scope`, `tenantId`). A known key that holds a text is a part of its own; everything else, known keys
over other values included, is an extension.

`Classifier.ofMap` takes a map apart and `Classifier.toMap` puts it together again. Identity is the map, never the order
the keys came in: `Classifier.canonicalKey` is its compact JSON text.
-/

namespace DatabaseBroker

/-- The identity of a logical database. -/
structure Classifier where
  ns : Option String
  microserviceName : Option String
  scope : Option String
  tenantId : Option String
  extensions : KeyMap Json

namespace Classifier

/-- The four known keys. -/
inductive Key where
  | ns
  | microserviceName
  | scope
  | tenantId
deriving DecidableEq

/-- A known key as it is written. -/
def Key.text : Key → String
  | .ns => "namespace"
  | .microserviceName => "microserviceName"
  | .scope => "scope"
  | .tenantId => "tenantId"

/-- The scope of a database that belongs to the microservice as a whole. -/
def serviceScope : String := "service"

/-- The scope of a database that belongs to one tenant. -/
def tenantScope : String := "tenant"

/-- The classifier of a microservice's own database. -/
def service (ns microservice : String) : Classifier :=
  ⟨some ns, some microservice, some serviceScope, none, .empty⟩

/-- The classifier of a tenant's database. -/
def tenant (ns microservice tenantId : String) : Classifier :=
  ⟨some ns, some microservice, some tenantScope, some tenantId, .empty⟩

/-- Sets an extension. -/
def withExtension (c : Classifier) (key : String) (value : Json) : Classifier :=
  { c with extensions := c.extensions.insert key value }

/-- The same identity in another namespace. -/
def withNamespace (c : Classifier) (ns : String) : Classifier := { c with ns := some ns }

/-! ## Parts and map -/

/-- Takes a known key out of a map when it holds a text; any other value stays. -/
def takeText (m : KeyMap Json) (key : Key) : Option String × KeyMap Json :=
  match m.get? key.text with
  | some (.string s) => (some s, m.erase key.text)
  | _ => (none, m)

/-- The classifier of a map. -/
def ofMap (m : KeyMap Json) : Classifier :=
  let (ns, m) := takeText m .ns
  let (microserviceName, m) := takeText m .microserviceName
  let (scope, m) := takeText m .scope
  let (tenantId, m) := takeText m .tenantId
  ⟨ns, microserviceName, scope, tenantId, m⟩

/-- Puts a part over an extension of the same key. -/
def putText (m : KeyMap Json) (key : Key) : Option String → KeyMap Json
  | some s => m.insert key.text (.string s)
  | none => m

/-- The map of a classifier: its extensions, and over them its parts. -/
def toMap (c : Classifier) : KeyMap Json :=
  putText (putText (putText (putText c.extensions .ns c.ns) .microserviceName c.microserviceName)
    .scope c.scope) .tenantId c.tenantId

/-- The classifier as a JSON object. -/
def toJson (c : Classifier) : Json := .ofMap c.toMap

/-- The text that stands for the classifier wherever identities are compared. -/
def canonicalKey (c : Classifier) : String := c.toJson.compact

/-- Equality part by part and extension by extension, with numbers compared as numbers. -/
def same (a b : Classifier) : Bool :=
  a.ns == b.ns && a.microserviceName == b.microserviceName && a.scope == b.scope &&
    a.tenantId == b.tenantId && a.extensions.same b.extensions

/-! ## Validity -/

/-- Why a classifier is refused. -/
inductive Violation where
  | missingKey (key : Key)
  | emptyValue (key : Key)
  | unknownScope (scope : String)
  | nonScalar (key : String)
deriving DecidableEq

/-- What is said of a violation. -/
def Violation.message : Violation → String
  | .missingKey key => "classifier is missing required key `" ++ key.text ++ "`"
  | .emptyValue key => "classifier key `" ++ key.text ++ "` must not be empty"
  | .unknownScope scope => "classifier scope `" ++ scope ++ "` must be `service` or `tenant`"
  | .nonScalar key => "classifier key `" ++ key ++ "` must hold a scalar value"

/-- A part that has to be there and may not be blank. -/
def require (key : Key) : Option String → Except Violation String
  | none => .error (.missingKey key)
  | some s => if Text.isBlank s then .error (.emptyValue key) else .ok s

/-- Extensions hold scalars. -/
def checkScalars (c : Classifier) : Except Violation Unit :=
  match c.extensions.entries.find? (·.2.isContainer) with
  | some (key, _) => .error (.nonScalar key)
  | none => .ok ()

/-- A tenant's database names its tenant; no other scopes are known. -/
def checkScope (c : Classifier) (scope : String) : Except Violation Unit :=
  if scope = serviceScope then .ok ()
  else if scope = tenantScope then do
    let _ ← require .tenantId c.tenantId
    .ok ()
  else .error (.unknownScope scope)

/-- Namespace, microservice and scope are required, and the tenant where the scope says so. -/
def validate (c : Classifier) : Except Violation Unit := do
  let _ ← require .ns c.ns
  let _ ← require .microserviceName c.microserviceName
  let scope ← require .scope c.scope
  c.checkScope scope
  c.checkScalars

/-- The violation of an outcome. -/
def violation? : Except Violation Unit → Option Violation
  | .ok _ => none
  | .error v => some v

/-- Whether a classifier meets the rules. -/
def isValid (c : Classifier) : Bool := (violation? c.validate).isNone

end Classifier

/-- The key of a classifier among the databases of a type. -/
def classifierKey (dbType : String) (c : Classifier) : String := dbType ++ "/" ++ c.canonicalKey

end DatabaseBroker
