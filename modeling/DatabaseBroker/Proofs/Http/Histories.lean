import DatabaseBroker.Http.Route
import DatabaseBroker.Proofs.History
import DatabaseBroker.Proofs.Json.Fields

/-!
# Requests as histories

A control plane that answers requests keeps what it needs between two of them in its store and in its count of names, so a broker
without a handshake that awaits its decision can stand for it (`Broker.StandsFor`). What one call does is what one operation does,
or the two steps of a registration (`Broker.StandsFor.run`); a request that is no call does nothing. So the store that a control
plane has after any requests is one that a history leaves (`served_replay`), and what holds after every history holds of it,
whether records are named by running numbers or by identifiers that are drawn (`served_replay_drawn`).

A request for a database is read from JSON, so its classifier is an object (`Http.Request.sent_of_call`).
-/

namespace DatabaseBroker

/-! ## Requests for databases as they are read -/

/-- A request for a database that is read from a document was sent with an object for its classifier. -/
theorem DatabaseRequest.sent_of_decode {d : Document} {r : DatabaseRequest} (h : DatabaseRequest.fields.decode d = .ok r) :
    ∃ call : DatabaseCall, r = call.request := by
  obtain ⟨slots, hslots, hbuild⟩ := Fields.build_of_decode h
  simp only [DatabaseRequest.fields, Fields.build_seq_iff, Fields.build_map_iff, ↓existsAndEq, and_true, and_assoc] at hbuild
  obtain ⟨classifier, dbType, ns, hclassifier, -, -, physicalDatabaseId, -, rfl⟩ := hbuild
  obtain ⟨d, -, hd⟩ := Fields.from_required hslots hclassifier
  unfold Classifier.decoder at hd
  cases hm : Decoder.map .value d with
  | error e =>
    rw [hm] at hd
    cases hd
  | ok m =>
    rw [hm] at hd
    cases hd
    exact ⟨⟨m, dbType, ns, physicalDatabaseId⟩, rfl⟩

namespace Http

/-- A handler makes no request for a database, or one that was sent with an object for its classifier. -/
def Handler.Reads (handler : Handler) : Prop :=
  ∀ parameters query request r, handler parameters query request = .ok (.createDatabase r) →
    ∃ call : DatabaseCall, r = call.request

theorem reads_plain {call : List String → Call} (h : ∀ p r, call p ≠ .createDatabase r) : (plain call).Reads := by
  intro parameters query request r hcall
  exact absurd (Except.ok.inj hcall) (h parameters r)

theorem reads_withBody {α : Type} {decode : Decoder α} {call : List String → α → Call}
    (h : ∀ d a p r, decode d = .ok a → call p a = .createDatabase r → ∃ sent : DatabaseCall, r = sent.request) :
    (withBody decode call).Reads := by
  intro parameters query request r hcall
  unfold withBody at hcall
  split at hcall
  · cases hcall
  split at hcall
  · rename_i a hread
    simp only [Decoder.ofText, bind, Except.bind] at hread
    split at hread
    · cases hread
    · rename_i a' hdecode
      split at hread
      · cases hread
        exact h _ a parameters r hdecode (Except.ok.inj hcall)
      · cases hread
  · cases hcall
  · cases hcall

theorem reads_withType {call : Option String → Call} (h : ∀ t r, call t ≠ .createDatabase r) : (withType call).Reads := by
  intro parameters query request r hcall
  unfold withType at hcall
  cases hfield : queryField query "type" with
  | error e =>
    rw [hfield] at hcall
    cases hcall
  | ok t =>
    rw [hfield] at hcall
    exact absurd (Except.ok.inj hcall) (h t r)

theorem reads_withNamespaceAndType {call : Option String → Option String → Call}
    (h : ∀ ns t r, call ns t ≠ .createDatabase r) : (withNamespaceAndType call).Reads := by
  intro parameters query request r hcall
  simp only [withNamespaceAndType, bind, Except.bind] at hcall
  split at hcall
  · cases hcall
  split at hcall
  · cases hcall
  exact absurd (Except.ok.inj hcall) (h _ _ r)

/-- Every route has handlers that read the classifier of a request for a database from an object. -/
theorem reads_of_mem_routes : ∀ route ∈ routes, ∀ entry ∈ route.2, entry.2.Reads := by
  have hbody : ∀ {α : Type} {decode : Decoder α} {call : List String → α → Call},
      (∀ p a r, call p a ≠ .createDatabase r) → (withBody decode call).Reads :=
    fun h => reads_withBody fun d a p r _ hcall => absurd hcall (h p a r)
  have hcreate : (withBody DatabaseRequest.fields.decode fun _ => Call.createDatabase).Reads := by
    refine reads_withBody fun d a p r hdecode hcall => ?_
    cases hcall
    exact DatabaseRequest.sent_of_decode hdecode
  simp only [routes, List.forall_mem_cons, List.not_mem_nil, false_imp_iff, implies_true, and_true]
  and_intros
  all_goals first
    | exact hcreate
    | exact reads_plain fun _ _ => nofun
    | exact hbody fun _ _ _ => nofun
    | exact reads_withType fun _ _ => nofun
    | exact reads_withNamespaceAndType fun _ _ _ => nofun

/-- A request that is a call was answered by a route whose pattern its path matches, with the handler of its method. -/
theorem Request.route_of_call {r : Request} {call : Call} (h : r.call = .ok call) :
    ∃ route ∈ routes, ∃ written, matchPath? (rootSegments ++ route.1) (Target.ofText r.target).segments = some written ∧
      ∃ entry ∈ route.2, entry.1 = answeringMethod r.method ∧ ∃ parameters, written.mapM decodeSegment? = some parameters ∧
        entry.2 parameters (Target.ofText r.target).query r = .ok call := by
  unfold Request.call at h
  dsimp only at h
  split at h
  · cases h
  rename_i methods written hroute
  split at h
  · cases h
  rename_i method handler hmethod
  split at h
  · cases h
  rename_i parameters hparameters
  obtain ⟨route, hmem, hmatched⟩ := List.exists_of_findSome?_eq_some hroute
  obtain ⟨written', hmatch, heq⟩ := Option.map_eq_some_iff.mp hmatched
  obtain ⟨rfl, rfl⟩ := Prod.mk.inj heq
  have hanswers : method = answeringMethod r.method := by simpa using List.find?_some hmethod
  exact ⟨route, hmem, written', hmatch, (method, handler), List.mem_of_find?_eq_some hmethod, hanswers, parameters, hparameters, h⟩

/-- A request for a database that came in was sent with an object for its classifier. -/
theorem Request.sent_of_call {r : Request} {request : DatabaseRequest} (h : r.call = .ok (.createDatabase request)) :
    ∃ call : DatabaseCall, request = call.request := by
  obtain ⟨route, hmem, -, -, entry, hentry, -, parameters, -, hcall⟩ := Request.route_of_call h
  exact reads_of_mem_routes route hmem entry hentry parameters _ r request hcall

end Http

/-! ## Calls as operations -/

/-- A broker stands for a control plane: both have the same store, names and size of portions, and no handshake awaits its
decision. -/
structure Broker.StandsFor (b : Broker) (env : Surroundings) (c : ControlPlane) : Prop where
  store : b.store = c.store
  names : b.names = c.names
  naming : env.naming = c.naming
  size : env.portionSize = c.portionSize
  awaiting : b.awaiting = []

namespace Broker.StandsFor

variable {env : Surroundings} {b : Broker} {c : ControlPlane} (h : b.StandsFor env c)
include h

/-- The next logical database gets the same name. -/
theorem nextLogical : env.logicalName c.names.logicals = c.nextLogical := by
  rw [ControlPlane.nextLogical, ← h.naming]
  rfl

/-- So does the next instruction. -/
theorem nextInstruction : env.instructionName c.names.instructions = c.nextInstruction := by
  rw [ControlPlane.nextInstruction, ← h.naming]
  rfl

/-- A broker that puts a store in place stands for the control plane that does. -/
theorem withStore (s : Store) : (b.withStore s).StandsFor env (c.withStore s) :=
  ⟨rfl, h.names, h.naming, h.size, h.awaiting⟩

/-- What a broker keeps of an operation on its store, a call that writes through the store leaves. -/
theorem write {ε α : Type} (run : Store → Except ε (α × Store)) (failure : ε → Http.Response) (success : α → Http.Response) :
    (b.keep (run b.store)).StandsFor env (Http.write c failure success run).2 := by
  rw [h.store]
  unfold Http.write ControlPlane.attempt keep
  cases run c.store with
  | error e => exact h
  | ok out => exact h.withStore out.2

/-- A request for a database. -/
theorem getOrCreate (now : UInt64) (r : DatabaseRequest) :
    (b.getOrCreate env now r).StandsFor env (c.getOrCreate now r).2 := by
  unfold Broker.getOrCreate ControlPlane.getOrCreate
  rw [h.store, h.names, h.nextLogical]
  cases c.store.getOrCreate now c.nextLogical r with
  | error e => exact h
  | ok out => exact ⟨rfl, rfl, h.naming, h.size, h.awaiting⟩

/-- A registration: the first step, and if there is something to decide and the adapter answers, the second. -/
theorem register (now : UInt64) (id dbType : String) (r : Registration) :
    ∃ events, (b.runAll env events).StandsFor env (c.register now id dbType r).2 := by
  have hprobed : ∀ address, b.StandsFor env { c with probed := address :: c.probed } :=
    fun address => ⟨h.store, h.names, h.naming, h.size, h.awaiting⟩
  unfold ControlPlane.register
  cases hcheck : c.store.precheck id dbType r with
  | error e => exact ⟨[], h⟩
  | ok found =>
    cases found with
    | some p => exact ⟨[], h⟩
    | none =>
      simp only [ControlPlane.probe]
      cases c.faults.get? r.adapterAddress with
      | some reason => exact ⟨[], hprobed _⟩
      | none =>
        let handshake : Handshake := ⟨id, dbType, r⟩
        refine ⟨[⟨now, .precheck handshake none⟩, ⟨now, .decide handshake⟩], ?_⟩
        have hchecked : b.precheck handshake none = { b with awaiting := [handshake] } := by
          simp only [Broker.precheck, h.store, handshake, hcheck, h.awaiting]
        have hboth : b.runAll env [⟨now, .precheck handshake none⟩, ⟨now, .decide handshake⟩] =
            Broker.decide env { b with awaiting := [handshake] } now handshake := by
          rw [← hchecked]
          rfl
        rw [hboth]
        simp only [Broker.decide, List.mem_singleton, if_true, List.erase_cons_head, h.nextInstruction,
          ControlPlane.nextInstruction_probed, h.store, h.size, h.names, handshake]
        cases c.store.decide now c.nextInstruction c.portionSize id dbType r with
        | error e => exact ⟨rfl, rfl, h.naming, h.size, rfl⟩
        | ok out => exact ⟨rfl, rfl, h.naming, h.size, rfl⟩

/-- A call that was sent does what some operations do. -/
theorem run (now : UInt64) {call : Http.Call} (hsent : ∀ r, call = .createDatabase r → ∃ sent : DatabaseCall, r = sent.request) :
    ∃ events, (b.runAll env events).StandsFor env (call.run c now).2 := by
  have hread : ∃ events, (b.runAll env events).StandsFor env c := ⟨[], h⟩
  have hone : ∀ (op : Operation) {c' : ControlPlane}, (b.run env now op).StandsFor env c' →
      ∃ events, (b.runAll env events).StandsFor env c' :=
    fun op _ hrun => ⟨[⟨now, op⟩], hrun⟩
  cases call with
  | createDatabase r =>
    obtain ⟨sent, rfl⟩ := hsent r rfl
    exact hone (.getOrCreate sent) (h.getOrCreate now sent.request)
  | dropDatabase id => exact hone (.drop id) (h.write (·.markForDrop id) _ _)
  | register dbType id r => exact h.register now id dbType r
  | deregister dbType id =>
    simp only [Http.Call.run]
    split
    · exact hread
    · exact hone (.deregister id) (h.write (·.deregister id) _ _)
  | setGlobal dbType id =>
    simp only [Http.Call.run]
    split
    · exact hread
    · exact hone (.setGlobal id) (h.write (·.setGlobal now id) _ _)
  | acknowledge dbType id instructionId ack =>
    refine hone (.acknowledge id instructionId ack) ?_
    simp only [Broker.run, h.store, h.size]
    exact h.withStore _
  | putNamespaceRule ns name r =>
    exact hone (.putNamespaceRule ns name r) (h.write (·.setNamespaceRule now ns name r) _ _)
  | deleteNamespaceRule ns name =>
    exact hone (.deleteNamespaceRule ns name) (h.write (fun s => (s.removeNamespaceRule ns name).map ((), ·)) _ _)
  | putMicroserviceRules ns rules =>
    exact hone (.putMicroserviceRules ns rules) (h.write (·.setMicroserviceRules now ns rules) _ _)
  | putLabels ns microservice labels =>
    exact hone (.putLabels ns microservice labels) (h.write (·.setLabels now ns microservice labels) _ _)
  | putPermanentRules rules => exact hone (.putPermanentRules rules) (h.write (·.setPermanentRules rules) _ _)
  | deletePermanentEntries ns dbType =>
    cases ns with
    | none => exact hread
    | some ns =>
      refine hone (.deletePermanentEntries ns dbType) ?_
      simp only [Broker.run, h.store]
      exact h.withStore _
  | putDomain controller r =>
    exact hone (.putDomain controller r.members) (h.write (·.setDomain now controller r.members) _ _)
  | deleteDomain controller =>
    exact hone (.deleteDomain controller) (h.write (fun s => (s.removeDomain controller).map ((), ·)) _ _)
  | _ => exact hread

/-- A request does what some operations do, or nothing. -/
theorem handle (now : UInt64) (r : Http.Request) :
    ∃ events, (b.runAll env events).StandsFor env (Http.handle c now r).2 := by
  unfold Http.handle
  cases hcall : r.call with
  | error rejection => exact ⟨[], h⟩
  | ok call =>
    refine h.run now fun request hrequest => ?_
    subst hrequest
    exact Http.Request.sent_of_call hcall

end Broker.StandsFor

/-! ## Requests one after another -/

/-- The control plane after requests, each at its own time. -/
def Http.serve (c : ControlPlane) (requests : List (UInt64 × Http.Request)) : ControlPlane :=
  requests.foldl (fun c request => (Http.handle c request.1 request.2).2) c

/-- Requests one after another do what some operations do. -/
theorem Broker.StandsFor.serve {env : Surroundings} {b : Broker} {c : ControlPlane} (h : b.StandsFor env c)
    (requests : List (UInt64 × Http.Request)) :
    ∃ events, (b.runAll env events).StandsFor env (Http.serve c requests) := by
  induction requests generalizing b c with
  | nil => exact ⟨[], h⟩
  | cons request rest ih =>
    obtain ⟨first, hfirst⟩ := h.handle request.1 request.2
    obtain ⟨later, hlater⟩ := ih hfirst
    refine ⟨first ++ later, ?_⟩
    rw [runAll_append]
    exact hlater

/-- After any requests, each at its own time, the store of a control plane that started without records is one that a history
leaves, whatever the adapters answer. -/
theorem served_replay (env : Surroundings) (faults : KeyMap AdapterError) (requests : List (UInt64 × Http.Request)) :
    ∃ events, (replay env events).store = (Http.serve (.startWith env.naming env.portionSize faults) requests).store := by
  have hsize : env.portionSize = max env.portionSize 1 := (Nat.max_eq_left env.portionSize_pos).symm
  have hstart : Broker.start.StandsFor env (.startWith env.naming env.portionSize faults) := ⟨rfl, rfl, rfl, hsize, rfl⟩
  obtain ⟨events, h⟩ := hstart.serve requests
  exact ⟨events, h.store⟩

/-- So it is with identifiers for names, as long as no digits are drawn twice for a kind. -/
theorem served_replay_drawn {logicals instructions : Nat → Identifier.Source} {portionSize : Nat}
    (hlogicals : Function.Injective fun n => Identifier.tail (logicals n))
    (hinstructions : Function.Injective fun n => Identifier.tail (instructions n)) (hsize : 0 < portionSize)
    (faults : KeyMap AdapterError) (requests : List (UInt64 × Http.Request)) :
    ∃ events, (replay (.drawn logicals instructions portionSize hlogicals hinstructions) events).store =
      (Http.serve (.startWith (.drawn logicals instructions) portionSize faults) requests).store := by
  have hserved := served_replay (.drawn logicals instructions portionSize hlogicals hinstructions) faults requests
  have hmax : (Surroundings.drawn logicals instructions portionSize hlogicals hinstructions).portionSize = portionSize :=
    Nat.max_eq_left hsize
  rwa [hmax] at hserved

end DatabaseBroker
