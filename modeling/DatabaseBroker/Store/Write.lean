import DatabaseBroker.Store

/-!
# Writing records

Each write keeps a record and what leads to it. A logical database is indexed under its classifier and its old one while
it is not archived; archiving or deleting it takes an index entry away only where the entry still leads to it. An
instruction is indexed under its physical database.

What is kept of a record is what its own text denotes, while the index is written for the record as given.
-/

namespace DatabaseBroker.Store

/-! ## Physical databases -/

/-- Keeps a physical database under its id. -/
def putPhysical (s : Store) (p : PhysicalDatabase) : Store := { s with physicals := s.physicals.insert p.id p }

/-- Deletes a physical database and nothing that names it. -/
def deletePhysical (s : Store) (id : String) : Store := { s with physicals := s.physicals.erase id }

/-! ## Logical databases -/

/-- Takes an index entry away if it leads to the database. -/
def unindex (s : Store) (key id : String) : Store :=
  if s.classifierIndex.get? key = some id then { s with classifierIndex := s.classifierIndex.erase key } else s

/-- Makes an index entry lead to the database. -/
def index (s : Store) (key id : String) : Store := { s with classifierIndex := s.classifierIndex.insert key id }

/-- Keeps a logical database, and makes the index lead to it under both classifiers unless it is archived. -/
def putLogical (s : Store) (db : LogicalDatabase) : Store :=
  let kept := { s with logicals := s.logicals.insert db.id db.reread }
  db.classifiers.foldl (fun s c =>
    let key := classifierKey db.dbType c
    if db.markedForDrop then s.unindex key db.id else s.index key db.id) kept

/-- Deletes a logical database, and its index entries that still lead to it. -/
def deleteLogical (s : Store) (id : String) : Store :=
  match s.logical? id with
  | none => s
  | some db =>
    let s := db.classifiers.foldl (fun s c => s.unindex (classifierKey db.dbType c) id) s
    { s with logicals := s.logicals.erase id }

/-! ## Rules and labels -/

/-- Keeps a rule of a namespace. -/
def putNamespaceRule (s : Store) (r : NamespaceRule) : Store :=
  { s with namespaceRules := s.namespaceRules.insert r.key r }

/-- Deletes a rule of a namespace. -/
def deleteNamespaceRule (s : Store) (ns name : String) : Store :=
  { s with namespaceRules := s.namespaceRules.erase (pairKey ns name) }

/-- Keeps a permanent entry. -/
def putPermanentEntry (s : Store) (e : PermanentEntry) : Store :=
  { s with permanentEntries := s.permanentEntries.insert e.key e }

/-- Deletes a permanent entry. -/
def deletePermanentEntry (s : Store) (ns dbType : String) : Store :=
  { s with permanentEntries := s.permanentEntries.erase (pairKey ns dbType) }

/-- Keeps the rules on microservices of a namespace and a type in place of those before. -/
def putRuleSet (s : Store) (r : MicroserviceRuleSet) : Store :=
  { s with microserviceRules := s.microserviceRules.insert r.key r }

/-- Keeps the labels of a microservice in place of those before. -/
def putLabels (s : Store) (l : MicroserviceLabels) : Store :=
  { s with microserviceLabels := s.microserviceLabels.insert l.key l }

/-! ## Domains and instructions -/

/-- Keeps a blue-green domain. -/
def putDomain (s : Store) (d : Domain) : Store := { s with domains := s.domains.insert d.controller d }

/-- Deletes a blue-green domain. -/
def deleteDomain (s : Store) (controller : String) : Store := { s with domains := s.domains.erase controller }

/-- Keeps an instruction, and makes the index lead to it from its physical database. -/
def putInstruction (s : Store) (i : Instruction) : Store :=
  { s with
    instructions := s.instructions.insert i.id i.reread
    instructionsByPhysical := s.instructionsByPhysical.insert i.physicalDatabaseId i.id }

/-- Deletes an instruction, and its index entry if that still leads to it. -/
def deleteInstruction (s : Store) (id : String) : Store :=
  match s.instruction? id with
  | none => s
  | some i =>
    { s with
      instructions := s.instructions.erase id
      instructionsByPhysical :=
        if s.instructionsByPhysical.get? i.physicalDatabaseId = some id then
          s.instructionsByPhysical.erase i.physicalDatabaseId
        else s.instructionsByPhysical }

end DatabaseBroker.Store
