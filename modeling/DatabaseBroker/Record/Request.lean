import DatabaseBroker.Record.Domain
import DatabaseBroker.Record.Logical
import DatabaseBroker.Record.Physical
import DatabaseBroker.Record.Rule

/-!
# Requests

What clients, adapters and operators send: a registration, a rule of a namespace, a permanent rule, a request for a
logical database, a question about hypothetical rules, the members of a blue-green domain, and the acknowledgement of a
portion of an instruction.
-/

namespace DatabaseBroker

/-- The declaration with which an adapter registers its physical database. -/
structure Registration where
  adapterAddress : String
  adapterId : Option String
  labels : Labels
  metadata : AdapterMetadata
  status : AdapterStatus
  readOnlyHost : Option String
deriving DecidableEq

namespace Registration

/-- A registration as JSON. -/
def toJson (r : Registration) : Json := .ofMembers [
  ("adapterAddress", .string r.adapterAddress),
  ("adapterId", .ofOption .string r.adapterId),
  ("labels", .ofStringMap r.labels),
  ("metadata", r.metadata.toJson),
  ("status", .string r.status.text),
  ("readOnlyHost", .ofOption .string r.readOnlyHost)]

/-- The fields of a registration; id of the adapter, labels and host for reading may be left out. -/
def fields : Fields Registration :=
  Registration.mk <$> .required "adapterAddress" .string
    <*> .absentable "adapterId" .string
    <*> .defaulted "labels" (.map .string) .empty
    <*> .required "metadata" AdapterMetadata.fields.decode
    <*> .required "status" AdapterStatus.decoder
    <*> .absentable "readOnlyHost" .string

end Registration

/-- A rule to store for a namespace. -/
structure NamespaceRuleRequest where
  dbType : String
  order : UInt32
  physicalDatabaseId : String
deriving DecidableEq

namespace NamespaceRuleRequest

/-- A request for a rule as JSON. -/
def toJson (r : NamespaceRuleRequest) : Json := .ofMembers [
  ("type", .string r.dbType),
  ("order", .ofUInt32 r.order),
  ("physicalDatabaseId", .string r.physicalDatabaseId)]

/-- The fields of a request for a rule; the order is 0 if left out. -/
def fields : Fields NamespaceRuleRequest :=
  NamespaceRuleRequest.mk <$> .required "type" .string
    <*> .defaulted "order" .uint32 0
    <*> .required "physicalDatabaseId" .string

end NamespaceRuleRequest

/-- A permanent rule: one target for a set of namespaces. -/
structure PermanentRule where
  dbType : String
  physicalDatabaseId : String
  namespaces : List String
deriving DecidableEq

namespace PermanentRule

/-- A permanent rule as JSON. -/
def toJson (r : PermanentRule) : Json := .ofMembers [
  ("type", .string r.dbType),
  ("physicalDatabaseId", .string r.physicalDatabaseId),
  ("namespaces", .ofStrings r.namespaces)]

/-- The fields of a permanent rule. -/
def fields : Fields PermanentRule :=
  PermanentRule.mk <$> .required "type" .string
    <*> .required "physicalDatabaseId" .string
    <*> .required "namespaces" (.list .string)

end PermanentRule

/-- A request for the logical database of a classifier. -/
structure DatabaseRequest where
  classifier : Classifier
  dbType : String
  /-- The namespace of the classifier, if it is given at all. -/
  ns : Option String
  /-- The physical database to bind to, whatever the rules say. -/
  physicalDatabaseId : Option String

namespace DatabaseRequest

/-- A request for a database as JSON. -/
def toJson (r : DatabaseRequest) : Json := .ofMembers [
  ("classifier", r.classifier.toJson),
  ("type", .string r.dbType),
  ("namespace", .ofOption .string r.ns),
  ("physicalDatabaseId", .ofOption .string r.physicalDatabaseId)]

/-- The fields of a request for a database; only classifier and type have to be given. -/
def fields : Fields DatabaseRequest :=
  DatabaseRequest.mk <$> .required "classifier" Classifier.decoder
    <*> .required "type" .string
    <*> .absentable "namespace" .string
    <*> .absentable "physicalDatabaseId" .string

end DatabaseRequest

/-- A microservice with the labels that it would carry. -/
structure Candidate where
  name : String
  labels : Labels
deriving DecidableEq

namespace Candidate

/-- A candidate as JSON. -/
def toJson (c : Candidate) : Json := .ofMembers [("name", .string c.name), ("labels", .ofStringMap c.labels)]

/-- The fields of a candidate; it has no labels if they are left out. -/
def fields : Fields Candidate :=
  Candidate.mk <$> .required "name" .string <*> .defaulted "labels" (.map .string) .empty

end Candidate

/-- A question about rules and labels that are not stored. -/
structure Hypothesis where
  /-- The rules that would be stored; the stored ones stay when there are none. -/
  rules : List MicroserviceRule
  candidates : List Candidate
  /-- The types asked about; the types of the rules when there are none. -/
  dbTypes : List String
deriving DecidableEq

namespace Hypothesis

/-- A hypothesis as JSON. -/
def toJson (h : Hypothesis) : Json := .ofMembers [
  ("rules", .ofList MicroserviceRule.toJson h.rules),
  ("microservices", .ofList Candidate.toJson h.candidates),
  ("dbTypes", .ofStrings h.dbTypes)]

/-- The fields of a hypothesis; rules and types may be left out. -/
def fields : Fields Hypothesis :=
  Hypothesis.mk <$> .defaulted "rules" (.list MicroserviceRule.fields.decode) []
    <*> .required "microservices" (.list Candidate.fields.decode)
    <*> .defaulted "dbTypes" (.list .string) []

end Hypothesis

/-- What an adapter made for one database of a portion. -/
structure Success where
  databaseId : String
  resources : List Resource
  connectionProperties : List ConnectionProperties

namespace Success

/-- A success as JSON. -/
def toJson (s : Success) : Json := .ofMembers [
  ("databaseId", .string s.databaseId),
  ("resources", .ofList Resource.toJson s.resources),
  ("connectionProperties", .ofList ConnectionProperties.toJson s.connectionProperties)]

/-- The fields of a success; what is left out is empty. -/
def fields : Fields Success :=
  Success.mk <$> .required "databaseId" .string
    <*> .defaulted "resources" (.list Resource.fields.decode) []
    <*> .defaulted "connectionProperties" (.list ConnectionProperties.decoder) []

end Success

/-- Why an adapter gave up. -/
structure Failure where
  code : Option Json
  message : String

namespace Failure

/-- A failure as JSON. -/
def toJson (f : Failure) : Json := .ofMembers [("code", .ofOption id f.code), ("message", .string f.message)]

/-- The fields of a failure; code and message may be left out. -/
def fields : Fields Failure :=
  Failure.mk <$> .absentable "code" .value <*> .defaulted "message" .string ""

end Failure

/-- The acknowledgement of a portion. -/
structure Acknowledgement where
  successes : List Success
  failure : Option Failure

namespace Acknowledgement

/-- An acknowledgement as JSON. -/
def toJson (a : Acknowledgement) : Json := .ofMembers [
  ("success", .ofList Success.toJson a.successes),
  ("failure", .ofOption Failure.toJson a.failure)]

/-- The fields of an acknowledgement, all of which may be left out. -/
def fields : Fields Acknowledgement :=
  Acknowledgement.mk <$> .defaulted "success" (.list Success.fields.decode) []
    <*> .absentable "failure" Failure.fields.decode

end Acknowledgement

/-- A blue-green domain to store. -/
structure DomainRequest where
  members : List Member
deriving DecidableEq

namespace DomainRequest

/-- The fields of a request for a domain. -/
def fields : Fields DomainRequest := DomainRequest.mk <$> .required "members" (.list Member.fields.decode)

end DomainRequest

end DatabaseBroker
