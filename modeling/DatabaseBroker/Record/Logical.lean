import DatabaseBroker.Classifier
import DatabaseBroker.Json.Decoder
import DatabaseBroker.Json.Reread

/-!
# Logical databases

A logical database is what a microservice asks for: it is named by a classifier and bound to a physical database for
good. It keeps the roles that have connection properties, the resources that the adapter made, and, while its clients
migrate, the classifier it was known under before. A database that is marked for drop is archived.
-/

namespace DatabaseBroker

/-- Connection properties of one role, as an adapter reported them. -/
abbrev ConnectionProperties := KeyMap Json

namespace Classifier

/-- A classifier is any object: what its members mean is looked at later. -/
def decoder : Decoder Classifier := fun d => (Decoder.map .value d).map ofMap

/-- The classifier that its own text denotes. -/
def reread (c : Classifier) : Classifier := ofMap (c.toMap.mapValues Json.reread)

end Classifier

namespace ConnectionProperties

/-- Properties as JSON. -/
def toJson (p : ConnectionProperties) : Json := .ofMap p

/-- Properties are any object. -/
def decoder : Decoder ConnectionProperties := .map .value

/-- The properties that their own text denotes. -/
def reread (p : ConnectionProperties) : ConnectionProperties := p.mapValues Json.reread

end ConnectionProperties

/-- Something an adapter made for a logical database: a user, a schema. -/
structure Resource where
  kind : String
  name : String
deriving DecidableEq

namespace Resource

/-- A resource as JSON. -/
def toJson (r : Resource) : Json := .ofMembers [("kind", .string r.kind), ("name", .string r.name)]

/-- The fields of a resource. -/
def fields : Fields Resource := Resource.mk <$> .required "kind" .string <*> .required "name" .string

end Resource

/-- A database that a microservice asked for. -/
structure LogicalDatabase where
  id : String
  classifier : Classifier
  /-- The classifier from before scopes, kept while clients migrate. -/
  oldClassifier : Option Classifier
  dbType : String
  ns : String
  physicalDatabaseId : String
  /-- The roles that have connection properties. -/
  roles : List String
  resources : List Resource
  connectionProperties : List ConnectionProperties
  /-- Set on databases that belong to blue-green switchover. -/
  bgVersion : Option String
  /-- Archived: the database no longer holds its physical database. -/
  markedForDrop : Bool
  createdAt : UInt64

namespace LogicalDatabase

/-- The roles of `required` that the database does not have. -/
def missingRoles (db : LogicalDatabase) (required : List String) : List String :=
  required.filter fun role => !db.roles.contains role

/-- The classifiers that the database is known under. -/
def classifiers (db : LogicalDatabase) : List Classifier := db.classifier :: db.oldClassifier.toList

/-- A logical database as JSON. -/
def toJson (db : LogicalDatabase) : Json := .ofMembers [
  ("id", .string db.id),
  ("classifier", db.classifier.toJson),
  ("oldClassifier", .ofOption Classifier.toJson db.oldClassifier),
  ("dbType", .string db.dbType),
  ("namespace", .string db.ns),
  ("physicalDatabaseId", .string db.physicalDatabaseId),
  ("roles", .ofStrings db.roles),
  ("resources", .ofList Resource.toJson db.resources),
  ("connectionProperties", .ofList ConnectionProperties.toJson db.connectionProperties),
  ("bgVersion", .ofOption .string db.bgVersion),
  ("markedForDrop", .bool db.markedForDrop),
  ("createdAt", .ofUInt64 db.createdAt)]

/-- The fields of a logical database, its old classifier and version optional. -/
def fields : Fields LogicalDatabase :=
  LogicalDatabase.mk <$> .required "id" .string
    <*> .required "classifier" Classifier.decoder
    <*> .optional "oldClassifier" Classifier.decoder
    <*> .required "dbType" .string
    <*> .required "namespace" .string
    <*> .required "physicalDatabaseId" .string
    <*> .required "roles" (.list .string)
    <*> .required "resources" (.list Resource.fields.decode)
    <*> .required "connectionProperties" (.list ConnectionProperties.decoder)
    <*> .optional "bgVersion" .string
    <*> .required "markedForDrop" .bool
    <*> .required "createdAt" .uint64

/-- The record that its own text denotes. -/
def reread (db : LogicalDatabase) : LogicalDatabase :=
  { db with
    classifier := db.classifier.reread
    oldClassifier := db.oldClassifier.map Classifier.reread
    connectionProperties := db.connectionProperties.map ConnectionProperties.reread }

end LogicalDatabase

end DatabaseBroker
