import DatabaseBroker.Balancing.Validation
import DatabaseBroker.Record.Request

/-!
# Writing rules and labels

Every write is checked against the store that it changes. Names inside composite keys are not blank and hold no slash,
and a target is registered with the type of its rule. Two rules of a namespace may not share type and order, and a
namespace and type may not be claimed for two targets, neither within a batch of permanent rules nor beside the stored
entries. A refused write changes nothing.
-/

namespace DatabaseBroker.Store

/-- A name that may stand inside a composite key. -/
def checkName (kind : NameKind) (name : String) : Except RoutingError Unit :=
  if Text.isBlank name then .error (.invalid (.blankName kind))
  else if name.toList.contains '/' then .error (.invalid (.slashInName kind name))
  else .ok ()

/-- A target that is registered with the type of its rule. -/
def checkTarget (s : Store) (id dbType : String) : Except RoutingError Unit :=
  match s.physical? id with
  | none => .error (.invalid (.targetNotRegistered id))
  | some p => if p.dbType = dbType then .ok () else .error (.invalid (.targetOfOtherType id p.dbType dbType))

/-! ## Rules of a namespace -/

/-- Whether a write made a record or replaced one. -/
inductive RuleWrite where
  | created
  | updated
deriving DecidableEq

/-- Stores the rule of a name. Another rule of the namespace with the same type and order is in its way. -/
def setNamespaceRule (s : Store) (now : UInt64) (ns name : String) (r : NamespaceRuleRequest) :
    Except RoutingError ((NamespaceRule × RuleWrite) × Store) := do
  checkName .ns ns
  checkName .rule name
  checkName .dbType r.dbType
  s.checkTarget r.physicalDatabaseId r.dbType
  let rule : NamespaceRule := ⟨name, ns, r.dbType, r.order, r.physicalDatabaseId, now⟩
  let existing := s.namespaceRulesOf ns
  match existing.find? fun o => o.name ≠ name && o.dbType = r.dbType && o.order = r.order with
  | some other => .error (.orderTaken other.name r.order r.dbType)
  | none =>
    let write := if existing.any (·.name = name) then .updated else .created
    .ok ((rule, write), s.putNamespaceRule rule)

/-- Deletes the rule of a name. -/
def removeNamespaceRule (s : Store) (ns name : String) : Except RoutingError Store :=
  match s.namespaceRule? ns name with
  | some _ => .ok (s.deleteNamespaceRule ns name)
  | none => .error (.notFound (.rule ns name))

/-! ## Rules on microservices -/

/-- The rules of each type, by type and in each by order. -/
def ruleSets (ns : String) (now : UInt64) (rules : List MicroserviceRule) : List MicroserviceRuleSet :=
  (distinctTexts (rules.map (·.dbType))).map fun dbType =>
    ⟨ns, dbType, (rules.filter (·.dbType = dbType)).mergeSort fun a b => decide (a.order ≤ b.order), now⟩

/-- Replaces the rule sets of a namespace for every type that the rules mention. -/
def setMicroserviceRules (s : Store) (now : UInt64) (ns : String) (rules : List MicroserviceRule) :
    Except RoutingError (List MicroserviceRuleSet × Store) := do
  checkName .ns ns
  rules.forM fun rule => checkName .dbType rule.dbType
  match s.view.problems rules with
  | [] =>
    let sets := ruleSets ns now rules
    .ok (sets, sets.foldl putRuleSet s)
  | problems => .error (.invalid (.badRules problems))

/-- The stored rules on microservices of a namespace, by type and order. -/
def microserviceRulesOf (s : Store) (ns : String) : List MicroserviceRule := (s.ruleSetsOf ns).flatMap (·.rules)

/-! ## Permanent rules -/

/-- The target that each namespace and type is claimed for. -/
abbrev Claims := KeyMap (KeyMap String)

/-- The target that is claimed for a namespace and a type. -/
def claimed? (claims : Claims) (ns dbType : String) : Option String := (claims.get? ns).bind (·.get? dbType)

/-- Claims a namespace and type for a target. An earlier claim or a stored entry for another target is in its way. -/
def claim (s : Store) (claims : Claims) (ns dbType target : String) : Except RoutingError Claims :=
  let stored := (s.permanentEntry? ns dbType).map (·.physicalDatabaseId)
  match (claimed? claims ns dbType).filter (· ≠ target) <|> stored.filter (· ≠ target) with
  | some other => .error (.claimedTwice ns dbType other target)
  | none => .ok (claims.insert ns (((claims.get? ns).getD .empty).insert dbType target))

/-- Adds the claims of a rule. -/
def claimRule (s : Store) (claims : Claims) (rule : PermanentRule) : Except RoutingError Claims := do
  if rule.namespaces.isEmpty then .error (.invalid (.permanentRuleWithoutNamespace rule.physicalDatabaseId))
  checkName .dbType rule.dbType
  rule.namespaces.forM (checkName .ns)
  s.checkTarget rule.physicalDatabaseId rule.dbType
  rule.namespaces.foldlM (fun claims ns => s.claim claims ns rule.dbType rule.physicalDatabaseId) claims

/-- The entries that claims amount to, by namespace and type. -/
def claimedEntries (claims : Claims) : List PermanentEntry :=
  claims.entries.flatMap fun (ns, targets) => targets.entries.map fun (dbType, target) => ⟨ns, dbType, target⟩

/-- Stores the entries of a batch of permanent rules, all or none. -/
def setPermanentRules (s : Store) (rules : List PermanentRule) : Except RoutingError (List PermanentEntry × Store) := do
  if rules.isEmpty then .error (.invalid .noPermanentRules)
  let claims ← rules.foldlM s.claimRule .empty
  let entries := claimedEntries claims
  .ok (entries, entries.foldl putPermanentEntry s)

/-- Deletes the permanent entries of a namespace, or only the one of a type, and counts them. Each entry stands under its own key,
so as many are deleted as are found. -/
def removePermanentEntries (s : Store) (ns : String) (dbType : Option String) : Nat × Store :=
  let entries := (s.permanentEntriesOf (some ns)).filter fun e => dbType.all (· = e.dbType)
  (entries.length, entries.foldl (fun s e => s.deletePermanentEntry e.ns e.dbType) s)

/-! ## Labels -/

/-- Whether a label can be written as `key=value` and selected by. -/
def isSelectable (key value : String) : Bool :=
  !Text.isBlank key && !Text.isBlank value && !key.toList.contains '=' && !value.toList.contains '='

/-- Stores the labels of a microservice, in place of those it had. -/
def setLabels (s : Store) (now : UInt64) (ns microservice : String) (labels : Labels) :
    Except RoutingError (MicroserviceLabels × Store) := do
  checkName .ns ns
  checkName .microservice microservice
  match labels.entries.find? fun e => !isSelectable e.1 e.2 with
  | some (key, value) => .error (.invalid (.badLabel key value))
  | none =>
    let record : MicroserviceLabels := ⟨ns, microservice, labels, now⟩
    .ok (record, s.putLabels record)

/-- The labels of a microservice; none when none were stored. -/
def labelsOf (s : Store) (ns microservice : String) : Labels := s.view.labels ns microservice

end DatabaseBroker.Store
