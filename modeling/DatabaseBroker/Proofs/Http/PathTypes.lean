import DatabaseBroker.Proofs.Http.RuleValidation
import DatabaseBroker.Proofs.Registration.Answers

/-!
# The type in a path

The path of a physical database names its type before its id. A request whose path names another type than the registered one is
refused and leaves everything as it was, whatever its body: a registration is refused in its first step and again where it is
decided, and the physical database is not found for a look-up, a deregistration or a change of the global flag. An acknowledgement
does not look at the type. So such a request is refused exactly when it acknowledges no portion of a live instruction
(`refused_under_other_type`), and one that does is carried out as under the registered type (`acknowledged_under_other_type`).
-/

namespace DatabaseBroker

namespace Http

/-! ## Requests on a physical database -/

/-- What may be asked of a physical database: a method, and what follows the id in the path. -/
inductive PhysicalEndpoint : String → List String → Prop where
  | register : PhysicalEndpoint "PUT" []
  | get : PhysicalEndpoint "GET" []
  | head : PhysicalEndpoint "HEAD" []
  | deregister : PhysicalEndpoint "DELETE" []
  | setGlobal : PhysicalEndpoint "PUT" ["global"]
  | acknowledge (instructionId : String) : PhysicalEndpoint "POST" ["instruction", instructionId, "additional-roles"]

/-- A request asks something of a physical database, by a path that names its type and its id. -/
def Request.OnPhysical (r : Request) (dbType id : String) : Prop :=
  ∃ typeSegment idSegment rest,
    (Target.ofText r.target).segments = "" :: "api" :: "v1" :: typeSegment :: "physical_databases" :: idSegment :: rest ∧
    decodeSegment? typeSegment = some dbType ∧ decodeSegment? idSegment = some id ∧ PhysicalEndpoint r.method rest

/-- A call on the physical database of a type and an id. -/
inductive Call.OnPhysical (dbType id : String) : Call → Prop where
  | register (r : Registration) : OnPhysical dbType id (.register dbType id r)
  | getPhysical : OnPhysical dbType id (.getPhysical dbType id)
  | deregister : OnPhysical dbType id (.deregister dbType id)
  | setGlobal : OnPhysical dbType id (.setGlobal dbType id)
  | acknowledge (instructionId : String) (ack : Acknowledgement) :
    OnPhysical dbType id (.acknowledge dbType id instructionId ack)

/-! ### Paths that match -/

section Paths

variable {t s : String} {pattern : List Segment} {segments written : List String}

theorem matchPath?_fixed_iff :
    matchPath? (.fixed t :: pattern) (s :: segments) = some written ↔ s = t ∧ matchPath? pattern segments = some written := by
  rw [matchPath?]
  split
  · rename_i heq
    simp only [heq, true_and]
  · rename_i hne
    simp only [Ne.symm hne, false_and, reduceCtorEq]

theorem matchPath?_parameter_iff :
    matchPath? (.parameter :: pattern) (s :: segments) = some written ↔
      s ≠ "" ∧ ∃ rest, matchPath? pattern segments = some rest ∧ s :: rest = written := by
  rw [matchPath?]
  split
  · rename_i hempty
    simp only [hempty, ne_eq, not_true_eq_false, false_and, reduceCtorEq]
  · rename_i hfull
    simp only [Option.map_eq_some_iff, hfull, ne_eq, not_false_eq_true, true_and]

theorem matchPath?_nil_iff : matchPath? [] segments = some written ↔ segments = [] ∧ written = [] := by
  cases segments with
  | nil => simp [matchPath?, eq_comm]
  | cons s segments => simp [matchPath?]

theorem matchPath?_of_nil_iff : matchPath? pattern [] = some written ↔ pattern = [] ∧ written = [] := by
  cases pattern with
  | nil => simp [matchPath?, eq_comm]
  | cons segment pattern => cases segment <;> simp [matchPath?]

end Paths

/-! ### Handlers -/

/-- Of these parameters a handler makes calls on the physical database of a type and an id only. -/
def Handler.Asks (handler : Handler) (parameters : List String) (dbType id : String) : Prop :=
  ∀ query r call, handler parameters query r = .ok call → call.OnPhysical dbType id

section Handlers

variable {parameters : List String} {dbType id : String}

theorem asks_plain {call : List String → Call} (h : (call parameters).OnPhysical dbType id) :
    (plain call).Asks parameters dbType id := by
  rintro query r _ ⟨⟩
  exact h

theorem asks_withBody {α : Type} {decode : Decoder α} {call : List String → α → Call}
    (h : ∀ a, (call parameters a).OnPhysical dbType id) : (withBody decode call).Asks parameters dbType id := by
  intro query r made hmade
  unfold withBody at hmade
  split at hmade
  · cases hmade
  · split at hmade
    · cases hmade
      exact h _
    · cases hmade
    · cases hmade

/-- Every route that the path of a request on a physical database matches answers its method with calls on that physical database. -/
theorem asks_of_mem_routes {method typeSegment idSegment : String} {rest : List String}
    (htype : decodeSegment? typeSegment = some dbType) (hid : decodeSegment? idSegment = some id)
    (hendpoint : PhysicalEndpoint method rest) :
    ∀ route ∈ routes, ∀ written,
      matchPath? (rootSegments ++ route.1)
        ("" :: "api" :: "v1" :: typeSegment :: "physical_databases" :: idSegment :: rest) = some written →
      ∀ entry ∈ route.2, entry.1 = answeringMethod method → ∀ parameters, written.mapM decodeSegment? = some parameters →
        entry.2.Asks parameters dbType id := by
  have hdecoded : ∀ {more parameters : List String}, (typeSegment :: idSegment :: more).mapM decodeSegment? = some parameters →
      ∃ others, parameters = dbType :: id :: others := by
    intro more parameters hparameters
    simp only [List.mapM_cons, htype, hid, Option.pure_def, Option.bind_eq_bind, Option.bind_some, Option.bind_eq_some_iff,
      Option.some.injEq] at hparameters
    obtain ⟨_, ⟨others, -, rfl⟩, rfl⟩ := hparameters
    exact ⟨others, rfl⟩
  simp only [routes, List.forall_mem_cons, List.not_mem_nil, false_imp_iff, implies_true, and_true]
  and_intros
  all_goals
    intro written hmatch
    simp only [rootSegments, List.cons_append, List.nil_append, matchPath?_fixed_iff, matchPath?_parameter_iff,
      matchPath?_nil_iff, String.reduceEq, reduceCtorEq, true_and, false_and, and_false, exists_false] at hmatch
  -- The method and the end of the path leave one route, and a path under `databases` or `namespaces` ends otherwise.
  all_goals cases hendpoint
  all_goals simp only [matchPath?_fixed_iff, matchPath?_parameter_iff, matchPath?_nil_iff, matchPath?_of_nil_iff, answeringMethod,
    ne_eq, String.reduceEq, not_false_eq_true, ↓existsAndEq, ↓reduceIte, reduceCtorEq, List.cons_ne_self, exists_const,
    and_true, true_and, and_false, false_and, and_self, false_imp_iff, forall_const] at hmatch ⊢
  all_goals
    intro parameters hparameters
    obtain ⟨-, -, rfl⟩ := hmatch
    obtain ⟨others, rfl⟩ := hdecoded hparameters
  case register => exact asks_withBody .register
  case get => exact asks_plain .getPhysical
  case head => exact asks_plain .getPhysical
  case deregister => exact asks_plain .deregister
  case setGlobal => exact asks_plain .setGlobal
  case acknowledge => exact asks_withBody fun ack => .acknowledge _ ack

end Handlers

/-- A request on a physical database that is a call is one on that physical database. -/
theorem Request.OnPhysical.call {r : Request} {dbType id : String} (h : r.OnPhysical dbType id) {call : Call}
    (hcall : r.call = .ok call) : call.OnPhysical dbType id := by
  obtain ⟨typeSegment, idSegment, rest, hsegments, htype, hid, hendpoint⟩ := h
  obtain ⟨route, hmem, written, hmatch, entry, hentry, hanswers, parameters, hparameters, hmade⟩ := Request.route_of_call hcall
  rw [hsegments] at hmatch
  exact asks_of_mem_routes htype hid hendpoint route hmem written hmatch entry hentry hanswers parameters hparameters _ r call hmade

/-! ## Another type than the registered one -/

/-- A status of the kind 4xx: the request is at fault. -/
def IsRefusal (status : Nat) : Prop := 400 ≤ status ∧ status < 500

theorem Rejection.isRefusal (rejection : Rejection) : IsRefusal rejection.status := by
  cases rejection <;> exact ⟨by decide, by decide⟩

/-- A call on the registry is refused for every cause but a migration that failed. -/
theorem registryFailure_isRefusal_iff {e : RegistryError} :
    IsRefusal (registryFailure e).status ↔ ∀ reason, e ≠ .migrationFailed reason := by
  cases e <;> simp [IsRefusal, registryFailure, Response.failure]

section OtherType

variable {s : Store} {p : PhysicalDatabase} {dbType id : String} (hp : s.physical? id = some p) (hother : p.dbType ≠ dbType)
include hp hother

/-- The physical database is not found under the other type. -/
theorem physicalAt_of_otherType : physicalAt s dbType id =
    .error (.failure 404 ("physical database " ++ id ++ " of type " ++ dbType ++ " not found")) := by
  have hget : s.getPhysical id = .ok p := by rw [Store.getPhysical, hp]
  rw [physicalAt, hget]
  exact if_neg hother

/-- A declaration under the other type is in conflict with the one that is registered. -/
theorem checkIdentity_of_otherType (r : Registration) :
    s.checkIdentity id dbType r = .error (.conflict (.otherType id p.dbType)) := by
  have hfound : (s.physical? id).filter (·.dbType ≠ dbType) = some p := by simp [hp, hother]
  rw [Store.checkIdentity, hfound]

/-- It does not pass the first step, for the conflict or because nothing may be declared in this way. -/
theorem precheck_of_otherType (r : Registration) : ∃ e, s.precheck id dbType r = .error e := by
  cases hcheck : s.precheck id dbType r with
  | error e => exact ⟨e, rfl⟩
  | ok found =>
    have hadmissible : Handshake.Admissible ⟨id, dbType, r⟩ := Store.admissible_of_precheck hcheck
    have hidentity := Store.precheck_eq (s := s) hadmissible
    simp only [hcheck, checkIdentity_of_otherType hp hother r] at hidentity
    cases hidentity

/-- Nor does it pass the second one, where the first was passed before the type was registered. -/
theorem decide_of_otherType (now : UInt64) (instructionId : String) (size : Nat) (r : Registration) :
    s.decide now instructionId size id dbType r = .error (.conflict (.otherType id p.dbType)) := by
  rw [Store.decide, checkIdentity_of_otherType hp hother r]
  rfl

end OtherType

/-! ### Calls -/

/-- An acknowledgement of a portion of a live instruction of the physical database that it names. -/
inductive Call.AcknowledgesLive (s : Store) : Call → Prop where
  | intro {dbType id instructionId : String} {ack : Acknowledgement} {i : Instruction}
      (hi : s.instruction? instructionId = some i) (hphysical : i.physicalDatabaseId = id) :
      AcknowledgesLive s (.acknowledge dbType id instructionId ack)

section Calls

variable {c : ControlPlane} {now : UInt64} {call : Call}

/-- An acknowledgement of a portion of a live instruction is not refused: it is carried out, or the migration fails. -/
theorem Call.AcknowledgesLive.not_isRefusal (h : call.AcknowledgesLive c.store) : ¬ IsRefusal (call.run c now).1.status := by
  cases h with
  | @intro dbType id instructionId ack i hi hphysical =>
    obtain ⟨answer, s, hcase, hrun⟩ := run_acknowledge c now dbType id instructionId ack
    rw [hrun]
    cases hcase with
    | unknown hunknown => exact absurd hphysical (hunknown i hi)
    | @failed _ reason =>
      exact fun hrefused => (registryFailure_isRefusal_iff (e := .migrationFailed reason)).mp hrefused reason rfl
    | applied => exact fun hrefused => Nat.not_le_of_lt (stepResponse_status _) hrefused.1

/-- Every other call under another type than the registered one is refused and leaves everything, the adapter not asked. -/
theorem Call.OnPhysical.run_of_otherType {dbType id : String} (h : call.OnPhysical dbType id) {p : PhysicalDatabase}
    (hp : c.store.physical? id = some p) (hother : p.dbType ≠ dbType) (hlive : ¬ call.AcknowledgesLive c.store) :
    IsRefusal (call.run c now).1.status ∧ (call.run c now).2 = c := by
  have hnotFound : ∀ message, IsRefusal (Response.failure 404 message).status := fun _ =>
    ⟨show 400 ≤ 404 by decide, show 404 < 500 by decide⟩
  have hat := physicalAt_of_otherType hp hother
  cases h with
  | register r =>
    obtain ⟨e, he⟩ := precheck_of_otherType hp hother r
    simp only [Call.run, ControlPlane.register, he, and_true]
    exact registryFailure_isRefusal_iff.mpr (precheck_ne_failed he)
  | getPhysical =>
    simp only [Call.run, hat]
    exact ⟨hnotFound _, rfl⟩
  | deregister => simpa only [Call.run, hat, and_true] using hnotFound _
  | setGlobal => simpa only [Call.run, hat, and_true] using hnotFound _
  | acknowledge instructionId ack =>
    obtain ⟨answer, s, hcase, hrun⟩ := run_acknowledge c now dbType id instructionId ack
    rw [hrun]
    cases hcase with
    | unknown => exact ⟨hnotFound _, rfl⟩
    | failed hi hphysical => exact absurd (.intro hi hphysical) hlive
    | applied hi hphysical => exact absurd (.intro hi hphysical) hlive

end Calls

/-! ### Requests -/

/-- A request that acknowledges a portion of a live instruction of the physical database that it names. -/
def Request.AcknowledgesLive (r : Request) (s : Store) : Prop := ∃ call, r.call = .ok call ∧ call.AcknowledgesLive s

section Requests

variable {c : ControlPlane} {now : UInt64} {r : Request}

theorem Request.AcknowledgesLive.not_isRefusal (h : r.AcknowledgesLive c.store) : ¬ IsRefusal (handle c now r).1.status := by
  obtain ⟨call, hcall, hlive⟩ := h
  rw [status_handle hcall]
  exact hlive.not_isRefusal

/-- Every other request under another type than the registered one is refused and leaves everything, whether it is a call or not. -/
theorem Request.OnPhysical.handle_of_otherType {dbType id : String} (h : r.OnPhysical dbType id) {p : PhysicalDatabase}
    (hp : c.store.physical? id = some p) (hother : p.dbType ≠ dbType) (hlive : ¬ r.AcknowledgesLive c.store) :
    IsRefusal (handle c now r).1.status ∧ (handle c now r).2 = c := by
  rcases handle_cases c now r with ⟨rejection, -, hstatus, hleft⟩ | ⟨call, hcall, hstatus, hleft⟩
  · rw [hstatus]
    exact ⟨rejection.isRefusal, hleft⟩
  · rw [hstatus, hleft]
    exact (h.call hcall).run_of_otherType hp hother fun hcallLive => hlive ⟨call, hcall, hcallLive⟩

end Requests

/-- The type in a path is checked, but not for acknowledgements. For every control plane, every physical database that is registered
at it and every request on that physical database under another type, whatever its body:
1. it is refused exactly when it acknowledges no portion of a live instruction of the physical database;
2. and then everything is left as it was: the store, the names that were given out, and the adapters, of which none is asked;
3. an acknowledgement is answered with the status that it has under the registered type, and leaves what it leaves then;
4. a registration does not pass its second step either, which other operations may have come before. -/
theorem refused_under_other_type (c : ControlPlane) (now : UInt64) {dbType id : String} {p : PhysicalDatabase}
    (hp : c.store.physical? id = some p) (hother : p.dbType ≠ dbType) {r : Request} (hr : r.OnPhysical dbType id) :
    (400 ≤ (handle c now r).1.status ∧ (handle c now r).1.status < 500 ↔ ¬ r.AcknowledgesLive c.store) ∧
    (¬ r.AcknowledgesLive c.store → (handle c now r).2 = c) ∧
    (∀ (r' : Request) instructionId ack, r.call = .ok (.acknowledge dbType id instructionId ack) →
      r'.call = .ok (.acknowledge p.dbType id instructionId ack) →
      (handle c now r).1.status = (handle c now r').1.status ∧ (handle c now r).2 = (handle c now r').2) ∧
    ∀ instructionId size registration, c.store.decide now instructionId size id dbType registration =
      .error (.conflict (.otherType id p.dbType)) := by
  have hrefusal : ¬ r.AcknowledgesLive c.store → IsRefusal (handle c now r).1.status ∧ (handle c now r).2 = c :=
    hr.handle_of_otherType hp hother
  refine ⟨⟨fun hrefused hlive => hlive.not_isRefusal hrefused, fun hlive => (hrefusal hlive).1⟩, fun hlive => (hrefusal hlive).2,
    fun r' instructionId ack hcall hcall' => ⟨?_, ?_⟩,
    fun instructionId size => decide_of_otherType hp hother now instructionId size⟩
  · rw [status_handle hcall, status_handle hcall']
    rfl
  · simp only [handle, hcall, hcall']
    rfl

/-! ## An acknowledgement under another type -/

/-- The registration of an adapter whose physical database has users for each of some roles. -/
def sampleRoles (roles : String) : String :=
  "\x7b\"adapterAddress\":\"http://pg\",\"status\":\"run\",\"metadata\":" ++
    "\x7b\"apiVersion\":\"v2\",\"supportedRoles\":[" ++ roles ++ "],\"features\":\x7b\"multiusers\":true\x7d\x7d\x7d"

/-- A request for the database of a service. -/
def sampleDatabaseBody : String :=
  "\x7b\"classifier\":\x7b\"namespace\":\"shop\",\"microserviceName\":\"cart\",\"scope\":\"service\"\x7d,\"type\":\"postgresql\"\x7d"

/-- A control plane at which a physical database hosts a database and then declares another role. -/
def sampleServed : ControlPlane :=
  serve (.start 1 .empty)
    [(1, samplePut "postgresql/physical_databases/pg" (sampleRoles "\"admin\"")),
      (2, ⟨"POST", "/api/v1/databases", true, sampleDatabaseBody⟩),
      (3, samplePut "postgresql/physical_databases/pg" (sampleRoles "\"admin\",\"ro\""))]

/-- At the sample, the physical database is not found under another type to be deregistered, and everything is left as it was. -/
theorem refused_under_other_type_of_sampleServed :
    let r : Request := ⟨"DELETE", "/api/v1/mongodb/physical_databases/pg", false, ""⟩
    (sampleServed.store.physical? "pg").map (·.dbType) = some "postgresql" ∧ r.OnPhysical "mongodb" "pg" ∧
      (handle sampleServed 4 r).1.status = 404 ∧ (handle sampleServed 4 r).2 = sampleServed := by
  intro r
  obtain ⟨htype, hstatus⟩ : (sampleServed.store.physical? "pg").map (·.dbType) = some "postgresql" ∧
      (handle sampleServed 4 r).1.status = 404 := by decide +kernel
  have hr : r.OnPhysical "mongodb" "pg" :=
    ⟨"mongodb", "pg", [], by decide +kernel, by decide +kernel, by decide +kernel, .deregister⟩
  obtain ⟨p, hp, hregistered⟩ := Option.map_eq_some_iff.mp htype
  have hother : p.dbType ≠ "mongodb" := by
    rw [hregistered]
    decide
  obtain ⟨hrefused, hleft, -⟩ := refused_under_other_type sampleServed 4 hp hother hr
  exact ⟨htype, hr, hstatus, hleft (hrefused.mp (by rw [hstatus]; decide))⟩

/-- An acknowledgement under another type completes the migration: the physical database, which stays registered with its type, has
the added role. -/
theorem acknowledged_under_other_type :
    let r : Request := ⟨"POST", "/api/v1/mongodb/physical_databases/pg/instruction/instr-%231/additional-roles", true,
      "\x7b\"success\":[\x7b\"databaseId\":\"ldb-#1\"\x7d]\x7d"⟩
    let registered (c : ControlPlane) := (c.store.physical? "pg").map fun p => (p.dbType, p.metadata.roleSet)
    r.OnPhysical "mongodb" "pg" ∧ registered sampleServed = some ("postgresql", ["admin"]) ∧
      (handle sampleServed 4 r).1.status = 200 ∧
      registered (handle sampleServed 4 r).2 = some ("postgresql", ["admin", "ro"]) := by
  intro r registered
  have hr : r.OnPhysical "mongodb" "pg" :=
    ⟨"mongodb", "pg", _, by decide +kernel, by decide +kernel, by decide +kernel, .acknowledge "instr-%231"⟩
  exact ⟨hr, by decide +kernel⟩

end Http

end DatabaseBroker
