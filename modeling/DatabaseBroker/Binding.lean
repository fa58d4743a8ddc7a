import DatabaseBroker.Balancing.Resolution
import DatabaseBroker.Balancing.Error
import DatabaseBroker.BlueGreen.Redirection
import DatabaseBroker.Classifier.Legacy
import DatabaseBroker.Record.Request

/-!
# Binding logical databases

A request names a logical database by its classifier. `Store.lookup` finds it; `Store.getOrCreate` finds it or makes it on
the physical database that the rules choose, and binds it there for good.

A request is addressed first: a legacy classifier is brought into the current shape, the classifier is checked, and a
request for a controller namespace is redirected to the active member. A database is then looked for under the current
classifier and under its legacy equivalent. One that is found only under the latter is upgraded when the request may
write: it takes the current classifier and keeps the one it had as its old classifier. A new database joins a live
migration of its physical database, so that the migration leaves none behind.
-/

namespace DatabaseBroker

/-- Why the classifier of a request is refused. -/
inductive ClassifierRefusal where
  | violation (violation : Classifier.Violation)
  | unconvertible
  | otherNamespace (requested own : String)
deriving DecidableEq

/-- What is said of a classifier that is refused. -/
def ClassifierRefusal.message : ClassifierRefusal → String
  | .violation v => v.message
  | .unconvertible => "legacy classifier cannot be converted"
  | .otherNamespace requested own => "namespace " ++ requested ++ " does not match classifier namespace " ++ own

/-- The answer to a request for a logical database. -/
inductive BindingOutcome where
  /-- The database, whether it was made now, whether it is the active member's, and the rule that chose its place. -/
  | resolved (database : LogicalDatabase) (created redirected : Bool) (applied : Option AppliedRule)
  | noAdapter (dbType : String)
  | invalidClassifier (reason : ClassifierRefusal)
  | versionedDatabase (id version : String)
  /-- The database is bound to another physical database than the request pins. -/
  | boundElsewhere (databaseId physicalDatabaseId : String)
  | notFound

/-- How a request ends before a database is looked for. -/
inductive Ending where
  | answer (outcome : BindingOutcome)
  | failure (error : RoutingError)

/-- A request with the classifier and the namespace that it leads to. -/
structure Address where
  classifier : Classifier
  ns : String
  redirected : Bool

/-- A database that is there already, and the shape of the classifier under which it was found. -/
inductive Existing where
  | current (database : LogicalDatabase)
  | legacy (database : LogicalDatabase)

namespace Classifier

/-- The current shape of a classifier that is given in either. -/
def modernize (c : Classifier) : Except ClassifierRefusal Classifier :=
  if !c.isLegacy then .ok c
  else match c.toCurrent? with
    | some current => .ok current
    | none => .error (((violation? c.validateLegacy).map .violation).getD .unconvertible)

end Classifier

namespace DatabaseRequest

/-- The classifier of a request in its current shape, checked, with its namespace. -/
def identity (r : DatabaseRequest) : Except ClassifierRefusal (Classifier × String) := do
  let c ← r.classifier.modernize
  match c.validate with
  | .error v => .error (.violation v)
  | .ok _ =>
    let own := c.ns.getD ""
    match r.ns.filter (· ≠ own) with
    | some requested => .error (.otherNamespace requested own)
    | none => .ok (c, own)

/-- The answer for a database that is there already. -/
def bound (r : DatabaseRequest) (db : LogicalDatabase) (redirected : Bool) : BindingOutcome :=
  if r.physicalDatabaseId.any (· ≠ db.physicalDatabaseId) then .boundElsewhere db.id db.physicalDatabaseId
  else .resolved db false redirected none

end DatabaseRequest

namespace LogicalDatabase

/-- The database under a current classifier, with the one it had as its old classifier. -/
def upgrade (db : LogicalDatabase) (c : Classifier) : LogicalDatabase :=
  { db with oldClassifier := some db.classifier, classifier := c }

/-- A new database of a request on a physical database. -/
def make (id : String) (now : UInt64) (dbType : String) (a : Address) (target : PhysicalDatabase) : LogicalDatabase where
  id := id
  classifier := a.classifier
  oldClassifier := none
  dbType := dbType
  ns := a.ns
  physicalDatabaseId := target.id
  roles := target.metadata.supportedRoles
  resources := []
  connectionProperties := []
  bgVersion := none
  markedForDrop := false
  createdAt := now

end LogicalDatabase

namespace Store

/-- Where a request leads. -/
def address (s : Store) (r : DatabaseRequest) : Except Ending Address :=
  match r.identity with
  | .error reason => .error (.answer (.invalidClassifier reason))
  | .ok (c, ns) =>
    match s.redirect c r.dbType ns with
    | .ok there => .ok ⟨there.classifier, there.ns, there.redirected⟩
    | .error (.versionedDatabase id version) => .error (.answer (.versionedDatabase id version))
    | .error e => .error (.failure (.notFound (.activeNamespace e)))

/-- The database of a classifier in the current shape, or of its legacy equivalent. -/
def existing? (s : Store) (dbType : String) (c : Classifier) : Option Existing :=
  ((s.findLogical? dbType c).map .current) <|>
    (c.legacyEquivalent?.bind fun legacy => (s.findLogical? dbType legacy).map .legacy)

/-- The physical database for a new logical database, and the rule that chose it if it is not pinned. -/
def placeFor (s : Store) (r : DatabaseRequest) (a : Address) : Except Ending (PhysicalDatabase × Option AppliedRule) :=
  match r.physicalDatabaseId with
  | some id =>
    match (s.physical? id).filter (·.dbType = r.dbType) with
    | some p => .ok (p, none)
    | none => .error (.failure (.invalid (.pinnedNotRegistered id r.dbType)))
  | none =>
    match s.view.resolve? (RoutingView.routeOf a.classifier r.dbType a.ns) with
    | some decision =>
      match s.physical? decision.physicalDatabaseId with
      | some p => .ok (p, some decision.applied)
      | none => .error (.answer (.noAdapter r.dbType))
    | none => .error (.answer (.noAdapter r.dbType))

/-- Adds a new database to the live migration of its physical database, if it lacks a role of the target. -/
def joinMigration (s : Store) (now : UInt64) (db : LogicalDatabase) : Store :=
  match s.instructionFor? db.physicalDatabaseId with
  | none => s
  | some i =>
    let missing := db.missingRoles i.target.metadata.roleSet
    if missing.isEmpty then s
    else s.putInstruction
      { i.addEntry ⟨db.id, missing, db.connectionProperties, db.resources⟩ with updatedAt := now }

/-- Makes the database of a request on a physical database. -/
def create (s : Store) (now : UInt64) (id dbType : String) (a : Address) (target : PhysicalDatabase) :
    LogicalDatabase × Store :=
  let db := LogicalDatabase.make id now dbType a target
  (db, (s.putLogical db).joinMigration now db)

/-- Finds the database of a request and makes it, under the id `id`, if it is not there. -/
def getOrCreate (s : Store) (now : UInt64) (id : String) (r : DatabaseRequest) :
    Except RoutingError (BindingOutcome × Store) :=
  let ended : Ending → Except RoutingError (BindingOutcome × Store)
    | .answer outcome => .ok (outcome, s)
    | .failure e => .error e
  match s.address r with
  | .error ending => ended ending
  | .ok a =>
    match s.existing? r.dbType a.classifier with
    | some (.current db) => .ok (r.bound db a.redirected, s)
    | some (.legacy db) =>
      let db := db.upgrade a.classifier
      .ok (r.bound db a.redirected, s.putLogical db)
    | none =>
      match s.placeFor r a with
      | .error ending => ended ending
      | .ok (target, applied) =>
        let (db, s) := s.create now id r.dbType a target
        .ok (.resolved db true a.redirected applied, s)

/-- Finds the database of a request. -/
def lookup (s : Store) (r : DatabaseRequest) : Except RoutingError BindingOutcome :=
  match s.address r with
  | .error (.answer outcome) => .ok outcome
  | .error (.failure e) => .error e
  | .ok a =>
    match s.existing? r.dbType a.classifier with
    | some (.current db) | some (.legacy db) => .ok (r.bound db a.redirected)
    | none => .ok .notFound

/-- The logical database of an id. -/
def getLogical (s : Store) (id : String) : Except RoutingError LogicalDatabase :=
  match s.logical? id with
  | some db => .ok db
  | none => .error (.notFound (.logicalDatabase id))

/-- Archives a logical database, so that it no longer holds its physical database. -/
def markForDrop (s : Store) (id : String) : Except RoutingError (LogicalDatabase × Store) := do
  let db ← s.getLogical id
  let db := { db with markedForDrop := true }
  .ok (db, s.putLogical db)

end Store

end DatabaseBroker
