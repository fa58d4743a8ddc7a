import DatabaseBroker.ControlPlane

/-!
# Calls and answers

What a client may ask of the control plane over HTTP, with parameters and body already decoded, and how each call is
answered: a status, and a body that holds the data asked for or says what went wrong.
-/

namespace DatabaseBroker.Http

/-- An answer: a status and a JSON body, if there is one. -/
structure Response where
  status : Nat
  body : Option Json

namespace Response

/-- An answer that carries data. -/
def data (status : Nat) (j : Json) : Response := ⟨status, some (.ofMembers [("success", .bool true), ("data", j)])⟩

/-- An answer that says what went wrong. -/
def failure (status : Nat) (message : String) : Response :=
  ⟨status, some (.ofMembers [("success", .bool false), ("error", .string message)])⟩

/-- Whether the request was carried out. -/
def isSuccess (r : Response) : Bool := 200 ≤ r.status && r.status < 300

end Response

/-- What a client asks for. -/
inductive Call where
  | health
  | createDatabase (request : DatabaseRequest)
  | lookupDatabase (request : DatabaseRequest)
  | getDatabase (id : String)
  | dropDatabase (id : String)
  | listPhysical (dbType : Option String)
  | register (dbType id : String) (registration : Registration)
  | getPhysical (dbType id : String)
  | deregister (dbType id : String)
  | setGlobal (dbType id : String)
  | acknowledge (dbType id instructionId : String) (acknowledgement : Acknowledgement)
  | listNamespaceRules (ns : String)
  | putNamespaceRule (ns name : String) (request : NamespaceRuleRequest)
  | deleteNamespaceRule (ns name : String)
  | putMicroserviceRules (ns : String) (rules : List MicroserviceRule)
  | getMicroserviceRules (ns : String)
  | validateMicroserviceRules (ns : String) (rules : List MicroserviceRule)
  | evaluateRules (ns : String) (hypothesis : Hypothesis)
  | putLabels (ns microservice : String) (labels : Labels)
  | getLabels (ns microservice : String)
  | putPermanentRules (rules : List PermanentRule)
  | getPermanentEntries (ns dbType : Option String)
  | deletePermanentEntries (ns dbType : Option String)
  | listDomains
  | putDomain (controller : String) (request : DomainRequest)
  | getDomain (controller : String)
  | deleteDomain (controller : String)

/-! ## Answers to failures -/

/-- The answer to a failed call on bindings and rules. -/
def routingFailure (e : RoutingError) : Response :=
  let status := match e with
    | .invalid _ | .claimedTwice .. => 400
    | .orderTaken .. => 409
    | .notFound _ => 404
  .failure status e.message

/-- The answer to a failed call on physical databases. -/
def registryFailure (e : RegistryError) : Response :=
  let status := match e with
    | .incomplete | .badAdapterState .. => 400
    | .conflict _ => 409
    | .notFound _ => 404
    | .migrationFailed _ => 500
  .failure status e.message

/-- The answer to a failed call on blue-green domains. -/
def blueGreenFailure (e : BlueGreenError) : Response :=
  let status := match e with
    | .domainNotFound _ | .activeNamespaceNotFound _ => 404
    | .versionedDatabase .. => 409
    | .invalidDomain _ => 400
  .failure status e.message

/-! ## Answers to outcomes -/

/-- The answer to a call that asks for a database: 201 if it was made for the call. -/
def bindingResponse : BindingOutcome → Response
  | .resolved db created redirected applied =>
    let rule := match applied with
      | some rule => [("appliedRule", rule.toJson)]
      | none => []
    .data (if created then 201 else 200) (.ofMembers ([
      ("database", db.toJson), ("created", .bool created), ("redirected", .bool redirected)] ++ rule))
  | .noAdapter dbType => .failure 404 ("no adapter available for type " ++ dbType)
  | .invalidClassifier reason => .failure 400 ("invalid classifier: " ++ reason.message)
  | .versionedDatabase id version =>
    .failure 409 ("cannot interact with versioned database " ++ id ++ " (version " ++ version ++ ")")
  | .boundElsewhere databaseId physicalDatabaseId =>
    .failure 409 ("database " ++ databaseId ++ " is already bound to physical database " ++ physicalDatabaseId)
  | .notFound => .failure 404 "logical database not found"

/-- What an adapter is told about an instruction. -/
def instructionSummary (i : Instruction) : Json := .ofMembers [
  ("id", .string i.id),
  ("physicalDatabaseId", .string i.physicalDatabaseId),
  ("state", .string i.state.text),
  ("pending", .ofNat i.entries.length)]

/-- The answer to a registration: 202 while roles are still to be migrated. -/
def registrationResponse : RegistrationOutcome → Response
  | .created p => .data 201 p.toJson
  | .updated p | .unchanged p => .data 200 p.toJson
  | .migrationPending i portion _ => .data 202 (.ofMembers [
      ("instruction", instructionSummary i), ("additionalRoles", .ofList AdditionalRoles.toJson portion)])
  | .adapterUnavailable reason => .failure 502 ("adapter unreachable: " ++ reason.message)

/-- The answer to an acknowledgement: the next portion, or the physical database when none is left. -/
def stepResponse : MigrationStep → Response
  | .portion _ entries => .data 202 (.ofList AdditionalRoles.toJson entries)
  | .completed p => .data 200 p.toJson

/-- The answer to a call that fails or succeeds. -/
def respond {ε α : Type} (failure : ε → Response) (success : α → Response) : Except ε α → Response
  | .ok a => success a
  | .error e => failure e

/-! ## Carrying out calls -/

/-- The physical database of a path, which names its type too. -/
def physicalAt (s : Store) (dbType id : String) : Except Response PhysicalDatabase :=
  match s.getPhysical id with
  | .error e => .error (registryFailure e)
  | .ok p =>
    if p.dbType = dbType then .ok p
    else .error (.failure 404 ("physical database " ++ id ++ " of type " ++ dbType ++ " not found"))

/-- Answers a call that reads only. -/
def read (c : ControlPlane) (response : Response) : Response × ControlPlane := (response, c)

/-- Answers a call that writes through the store. -/
def write {ε α : Type} (c : ControlPlane) (failure : ε → Response) (success : α → Response)
    (run : Store → Except ε (α × Store)) : Response × ControlPlane :=
  let (result, c) := c.attempt run
  (respond failure success result, c)

/-- Carries out a call at a time. -/
def Call.run (c : ControlPlane) (now : UInt64) : Call → Response × ControlPlane
  | health => read c (.data 200 (.string "ok"))
  | createDatabase r =>
    let (result, c) := c.getOrCreate now r
    (respond routingFailure bindingResponse result, c)
  | lookupDatabase r => read c (respond routingFailure bindingResponse (c.store.lookup r))
  | getDatabase id => read c (respond routingFailure (fun db => .data 200 db.toJson) (c.store.getLogical id))
  | dropDatabase id => write c routingFailure (fun db => .data 200 db.toJson) fun s => s.markForDrop id
  | listPhysical dbType =>
    read c (.data 200 (.ofList PhysicalDatabase.toJson (c.store.listPhysical dbType)))
  | register dbType id r =>
    let (result, c) := c.register now id dbType r
    (respond registryFailure registrationResponse result, c)
  | getPhysical dbType id =>
    read c (respond (fun response => response) (fun p => .data 200 p.toJson) (physicalAt c.store dbType id))
  | deregister dbType id =>
    match physicalAt c.store dbType id with
    | .error response => (response, c)
    | .ok _ => write c registryFailure (fun removed => .data 200 (.ofMembers [
        ("deleted", .string id), ("rulesRemoved", .ofNat removed)])) fun s => s.deregister id
  | setGlobal dbType id =>
    match physicalAt c.store dbType id with
    | .error response => (response, c)
    | .ok _ => write c registryFailure (fun p => .data 200 p.toJson) fun s => s.setGlobal now id
  | acknowledge _ id instructionId ack =>
    let (result, c) := c.acknowledge now id instructionId ack
    (respond registryFailure stepResponse result, c)
  | listNamespaceRules ns => read c (.data 200 (.ofList NamespaceRule.toJson (c.store.namespaceRulesOf ns)))
  | putNamespaceRule ns name r =>
    write c routingFailure
      (fun (rule, wrote) => .data (if wrote = Store.RuleWrite.created then 201 else 200) rule.toJson)
      fun s => s.setNamespaceRule now ns name r
  | deleteNamespaceRule ns name =>
    write c routingFailure (fun () => .data 200 (.string "deleted"))
      fun s => (s.removeNamespaceRule ns name).map ((), ·)
  | putMicroserviceRules ns rules =>
    write c routingFailure
      (fun sets => .data 201 (.ofList MicroserviceRule.toJson (sets.flatMap (·.rules))))
      fun s => s.setMicroserviceRules now ns rules
  | getMicroserviceRules ns =>
    read c (.data 200 (.ofList MicroserviceRule.toJson (c.store.microserviceRulesOf ns)))
  | validateMicroserviceRules _ rules =>
    read c (match c.store.view.problems rules with
      | [] => .data 200 (.string "valid")
      | problems => .failure 400 (problemsMessage problems))
  | evaluateRules ns h => read c (respond routingFailure (fun r => .data 200 (Report.toJson r)) (c.store.view.evaluate ns h))
  | putLabels ns microservice labels =>
    write c routingFailure (fun record => .data 200 (.ofStringMap record.labels))
      fun s => s.setLabels now ns microservice labels
  | getLabels ns microservice => read c (.data 200 (.ofStringMap (c.store.labelsOf ns microservice)))
  | putPermanentRules rules =>
    write c routingFailure (fun entries => .data 200 (.ofList PermanentEntry.toJson entries))
      fun s => s.setPermanentRules rules
  | getPermanentEntries ns dbType =>
    let entries := (c.store.permanentEntriesOf ns).filter fun e => dbType.all (· = e.dbType)
    read c (.data 200 (.ofList PermanentEntry.toJson entries))
  | deletePermanentEntries none _ => read c (.failure 400 "query parameter `namespace` is required")
  | deletePermanentEntries (some ns) dbType =>
    let (removed, s) := c.store.removePermanentEntries ns dbType
    (.data 200 (.ofMembers [("removed", .ofNat removed)]), c.withStore s)
  | listDomains => read c (.data 200 (.ofList Domain.toJson c.store.domains.values))
  | putDomain controller r =>
    write c blueGreenFailure (fun d => .data 200 d.toJson) fun s => s.setDomain now controller r.members
  | getDomain controller => read c (respond blueGreenFailure (fun d => .data 200 d.toJson) (c.store.getDomain controller))
  | deleteDomain controller =>
    write c blueGreenFailure (fun () => .data 200 (.string "deleted"))
      fun s => (s.removeDomain controller).map ((), ·)

end DatabaseBroker.Http
