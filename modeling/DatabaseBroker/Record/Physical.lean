import DatabaseBroker.Json.Decoder
import DatabaseBroker.Label

/-!
# Physical databases

A physical database is a registered cluster behind an adapter. The adapter declares its metadata: the roles it supports
and its features, of which `multiusers` says that it can make users for every role of a database. The order in which
roles are declared does not count, `AdapterMetadata.roleSet` lists them in order and once.
-/

namespace DatabaseBroker

/-- The different texts of a list, ascending. -/
def distinctTexts (l : List String) : List String := (KeyMap.ofList (l.map (·, ()))).keys

/-- What an adapter declares about itself. -/
structure AdapterMetadata where
  apiVersion : String
  supportedRoles : List String
  features : KeyMap Bool
deriving DecidableEq

namespace AdapterMetadata

/-- The feature of an adapter that can make users for every role. -/
def multiusersFeature : String := "multiusers"

/-- Whether the adapter declares that it can make users for every role. -/
def supportsMultiusers (m : AdapterMetadata) : Bool := (m.features.get? multiusersFeature).getD false

/-- The supported roles, ascending and each once. -/
def roleSet (m : AdapterMetadata) : List String := distinctTexts m.supportedRoles

/-- Metadata as JSON. -/
def toJson (m : AdapterMetadata) : Json := .ofMembers [
  ("apiVersion", .string m.apiVersion),
  ("supportedRoles", .ofStrings m.supportedRoles),
  ("features", .ofMap (m.features.mapValues .bool))]

/-- The fields of metadata; roles and features may be left out. -/
def fields : Fields AdapterMetadata :=
  AdapterMetadata.mk <$> .required "apiVersion" .string
    <*> .defaulted "supportedRoles" (.list .string) []
    <*> .defaulted "features" (.map .bool) .empty

end AdapterMetadata

/-- What an adapter says about its own state. -/
inductive AdapterStatus where
  | run
  | unknown
deriving DecidableEq

namespace AdapterStatus

/-- Any name but `run` is a state that is not known here. -/
def ofName (s : String) : AdapterStatus := if s = "run" then run else unknown

/-- The name of a state. -/
def text : AdapterStatus → String
  | run => "run"
  | unknown => "unknown"

/-- The state as messages name it. -/
def title : AdapterStatus → String
  | run => "Run"
  | unknown => "Unknown"

/-- A state is read from any name. -/
def decoder : Decoder AdapterStatus := .variant fun s => some (ofName s)

end AdapterStatus

/-- A registered cluster. -/
structure PhysicalDatabase where
  id : String
  dbType : String
  adapterAddress : String
  adapterId : Option String
  metadata : AdapterMetadata
  status : AdapterStatus
  labels : Labels
  /-- The target of its type where no rule says otherwise. -/
  global : Bool
  readOnlyHost : Option String
  registeredAt : UInt64
  updatedAt : UInt64
deriving DecidableEq

namespace PhysicalDatabase

/-- A physical database as JSON. -/
def toJson (p : PhysicalDatabase) : Json := .ofMembers [
  ("id", .string p.id),
  ("dbType", .string p.dbType),
  ("adapterAddress", .string p.adapterAddress),
  ("adapterId", .ofOption .string p.adapterId),
  ("metadata", p.metadata.toJson),
  ("status", .string p.status.text),
  ("labels", .ofStringMap p.labels),
  ("global", .bool p.global),
  ("readOnlyHost", .ofOption .string p.readOnlyHost),
  ("registeredAt", .ofUInt64 p.registeredAt),
  ("updatedAt", .ofUInt64 p.updatedAt)]

/-- The fields of a physical database. -/
def fields : Fields PhysicalDatabase :=
  PhysicalDatabase.mk <$> .required "id" .string
    <*> .required "dbType" .string
    <*> .required "adapterAddress" .string
    <*> .optional "adapterId" .string
    <*> .required "metadata" AdapterMetadata.fields.decode
    <*> .required "status" AdapterStatus.decoder
    <*> .required "labels" (.map .string)
    <*> .required "global" .bool
    <*> .optional "readOnlyHost" .string
    <*> .required "registeredAt" .uint64
    <*> .required "updatedAt" .uint64

end PhysicalDatabase

end DatabaseBroker
