import DatabaseBroker.Proofs.Binding.References
import DatabaseBroker.Proofs.Http.Histories

/-!
# What a refused request leaves

A handler may fail, and then its transaction is not committed; or it succeeds with an outcome that is answered as a refusal, and
then whatever was written before is kept. `Http.Call.Leaves` lists what a refused call may leave: everything, or, where an
acknowledgement is answered that the migration failed, everything but the instruction with its index entry. Requests that are no
calls leave everything.

A request for a database could upgrade one and then find it bound elsewhere. No history leaves a database that could be upgraded
by a request that is read from JSON, so this does not happen (`refused_without_trace`).
-/

namespace DatabaseBroker

open Store

namespace Http

/-! ## Calls -/

/-- What a call that is refused with a status leaves of a store. -/
inductive Call.Leaves (s : Store) : Call → Nat → Store → Prop where
  | everything {call : Call} {status : Nat} (hstatus : status ≠ 500) : Leaves s call status s
  /-- A migration that failed is given up. -/
  | allButInstruction {dbType id instructionId : String} {ack : Acknowledgement} {i : Instruction}
      (hi : s.instruction? instructionId = some i) (hphysical : i.physicalDatabaseId = id) :
      Leaves s (.acknowledge dbType id instructionId ack) 500 (s.deleteInstruction instructionId)

/-! ### Statuses -/

theorem routingFailure_status (e : RoutingError) : (routingFailure e).status ≠ 500 := by
  cases e <;> simp [routingFailure, Response.failure]

theorem blueGreenFailure_status (e : BlueGreenError) : (blueGreenFailure e).status ≠ 500 := by
  cases e <;> simp [blueGreenFailure, Response.failure]

/-- Only a failed migration is an error of the server. -/
theorem registryFailure_status {e : RegistryError} (h : ∀ reason, e ≠ .migrationFailed reason) :
    (registryFailure e).status ≠ 500 := by
  cases e with
  | migrationFailed reason => exact absurd rfl (h reason)
  | _ => simp [registryFailure, Response.failure]

theorem bindingResponse_status (outcome : BindingOutcome) : (bindingResponse outcome).status ≠ 500 := by
  cases outcome with
  | resolved db created redirected applied => cases created <;> simp [bindingResponse, Response.data]
  | _ => simp [bindingResponse, Response.failure]

/-- A registration is refused in its answer only when the adapter cannot be reached. -/
theorem registrationResponse_status {outcome : RegistrationOutcome} (h : ∀ reason, outcome ≠ .adapterUnavailable reason) :
    (registrationResponse outcome).status < 400 := by
  cases outcome with
  | adapterUnavailable reason => exact absurd rfl (h reason)
  | _ => simp [registrationResponse, Response.data]

theorem stepResponse_status (step : MigrationStep) : (stepResponse step).status < 400 := by
  cases step <;> simp [stepResponse, Response.data]

variable {c : ControlPlane} {now : UInt64}

/-- A call that reads only leaves everything. -/
theorem leaves_of_read {call : Call} {response : Response} (h : response.status ≠ 500) :
    call.Leaves c.store (read c response).1.status (read c response).2.store := .everything h

/-- A call that writes and is refused for its failure only leaves everything. -/
theorem leaves_of_write {ε α : Type} {call : Call} {failure : ε → Response} {success : α → Response}
    {run : Store → Except ε (α × Store)} (hsuccess : ∀ a, (success a).status < 400)
    (hfailure : ∀ e, run c.store = .error e → (failure e).status ≠ 500)
    (hrefused : 400 ≤ (write c failure success run).1.status) :
    call.Leaves c.store (write c failure success run).1.status (write c failure success run).2.store := by
  simp only [write, ControlPlane.attempt] at hrefused ⊢
  cases hrun : run c.store with
  | ok out =>
    simp only [hrun, respond] at hrefused
    exact absurd hrefused (Nat.not_le_of_lt (hsuccess out.1))
  | error e => exact .everything (hfailure e hrun)

/-! ### Requests for databases -/

/-- A request for a database that is refused leaves everything: one that was upgraded would have been found under a classifier
without a scope. -/
theorem leaves_createDatabase (hreferences : c.store.References) {r : DatabaseRequest} (hlifted : r.classifier.ScopeLifted)
    (hrefused : 400 ≤ ((Call.createDatabase r).run c now).1.status) :
    (Call.createDatabase r).Leaves c.store ((Call.createDatabase r).run c now).1.status
      ((Call.createDatabase r).run c now).2.store := by
  simp only [Call.run, ControlPlane.getOrCreate] at hrefused ⊢
  cases hok : c.store.getOrCreate now c.nextLogical r with
  | error e => exact .everything (routingFailure_status e)
  | ok out =>
    obtain ⟨outcome, s⟩ := out
    simp only [hok, respond] at hrefused ⊢
    have hsame : s = c.store := by
      cases bound_of_getOrCreate hok with
      | refused => rfl
      | found => rfl
      | unplaced => rfl
      | upgraded haddress hmissing hlegacy hfound =>
        rw [hreferences.findLogical?_legacy ((address_scope haddress).2 hlifted) hlegacy] at hfound
        cases hfound
      | created => exact absurd hrefused (by simp [bindingResponse, Response.data])
    rw [hsame]
    exact .everything (bindingResponse_status outcome)

/-! ### Physical databases -/

/-- A physical database that a path does not name is not found. -/
theorem physicalAt_status {s : Store} {dbType id : String} {response : Response}
    (h : physicalAt s dbType id = .error response) : response.status ≠ 500 := by
  unfold physicalAt getPhysical at h
  split at h
  · rename_i e hget
    split at hget
    · cases hget
    · cases hget
      cases h
      simp [registryFailure, Response.failure]
  · split at h
    · cases h
    · cases h
      simp [Response.failure]

theorem deregister_ne_failed {s : Store} {id : String} {e : RegistryError} (h : s.deregister id = .error e) :
    ∀ reason, e ≠ .migrationFailed reason := by
  rintro reason rfl
  simp only [Store.deregister, getPhysical, bind, Except.bind] at h
  split at h
  · rename_i hget
    split at hget <;> cases hget
    cases h
  · split at h
    · cases h
    · split at h <;> cases h

theorem setGlobal_ne_failed {s : Store} {id : String} {e : RegistryError} (h : s.setGlobal now id = .error e) :
    ∀ reason, e ≠ .migrationFailed reason := by
  rintro reason rfl
  simp only [Store.setGlobal, getPhysical, bind, Except.bind] at h
  split at h
  · rename_i hget
    split at hget <;> cases hget
    cases h
  · cases h

theorem checkIdentity_ne_failed {s : Store} {id dbType : String} {r : Registration} {e : RegistryError}
    (h : s.checkIdentity id dbType r = .error e) : ∀ reason, e ≠ .migrationFailed reason := by
  rintro reason rfl
  unfold checkIdentity at h
  split at h
  · cases h
  · split at h <;> cases h

theorem precheck_ne_failed {s : Store} {id dbType : String} {r : Registration} {e : RegistryError}
    (h : s.precheck id dbType r = .error e) : ∀ reason, e ≠ .migrationFailed reason := by
  simp only [precheck, bind, Except.bind] at h
  split at h
  · cases h
    exact nofun
  split at h
  · cases h
    exact nofun
  split at h
  · rename_i hidentity
    cases h
    exact checkIdentity_ne_failed hidentity
  · cases h

/-- A decision that fails does so for the identity of the declaration. -/
theorem decide_ne_failed {s : Store} {instructionId : String} {size : Nat} {id dbType : String} {r : Registration}
    {e : RegistryError} (h : s.decide now instructionId size id dbType r = .error e) : ∀ reason, e ≠ .migrationFailed reason := by
  simp only [Store.decide, bind, Except.bind] at h
  split at h
  · rename_i hidentity
    cases h
    exact checkIdentity_ne_failed hidentity
  · split at h
    · cases h
    · split at h
      · cases h
      · split at h
        · split at h <;> cases h
        · cases h

/-- A decision is made after the adapter answered. -/
theorem outcome_of_decided {s s' : Store} {instructionId : String} {size : Nat} {id dbType : String} {r : Registration}
    {outcome : RegistrationOutcome} (h : s.Decided now instructionId size id dbType r outcome s') :
    ∀ reason, outcome ≠ .adapterUnavailable reason := by
  have hissued : ∀ {s₁ s₂ : Store} {i : Instruction} {resumed : Bool} {outcome : RegistrationOutcome},
      s₁.issue now size i resumed = (outcome, s₂) → ∀ reason, outcome ≠ .adapterUnavailable reason := by
    intro s₁ s₂ i resumed outcome hissue reason
    unfold issue at hissue
    split at hissue <;> cases hissue <;> exact nofun
  cases h with
  | created => exact nofun
  | kept => exact nofun
  | updated => exact nofun
  | resumed _ _ _ _ _ _ _ hissue => exact hissued hissue
  | begun _ _ _ _ _ _ hissue => exact hissued hissue

/-- A registration that is refused leaves everything, whether its declaration is refused or its adapter is not reached. -/
theorem leaves_register {dbType id : String} {r : Registration}
    (hrefused : 400 ≤ ((Call.register dbType id r).run c now).1.status) :
    (Call.register dbType id r).Leaves c.store ((Call.register dbType id r).run c now).1.status
      ((Call.register dbType id r).run c now).2.store := by
  simp only [Call.run, ControlPlane.register, ControlPlane.probe] at hrefused ⊢
  cases hprecheck : c.store.precheck id dbType r with
  | error e => exact .everything (registryFailure_status (precheck_ne_failed hprecheck))
  | ok found =>
    cases found with
    | some p => exact absurd (by simpa only [hprecheck] using hrefused) (by simp [respond, registrationResponse, Response.data])
    | none =>
      cases hprobe : c.faults.get? r.adapterAddress with
      | some reason => exact .everything (by simp [respond, registrationResponse, Response.failure])
      | none =>
        cases hdecide : c.store.decide now c.nextInstruction c.portionSize id dbType r with
        | error e =>
          simp only [ControlPlane.nextInstruction_probed, hdecide]
          exact .everything (registryFailure_status (decide_ne_failed hdecide))
        | ok out =>
          simp only [hprecheck, hprobe, ControlPlane.nextInstruction_probed, hdecide, respond] at hrefused
          have hanswered := outcome_of_decided (decided_of_decide hdecide).2
          exact absurd hrefused (Nat.not_le_of_lt (registrationResponse_status hanswered))

/-- An acknowledgement is answered, and leaves a store, as it ends in one of the cases; the type in its path does not count. -/
theorem run_acknowledge (c : ControlPlane) (now : UInt64) (dbType id instructionId : String) (ack : Acknowledgement) :
    ∃ answer s, c.store.Acknowledged now c.portionSize id instructionId ack answer s ∧
      (Call.acknowledge dbType id instructionId ack).run c now = (respond registryFailure stepResponse answer, c.withStore s) :=
  ⟨_, _, c.store.acknowledged now c.portionSize id instructionId ack, rfl⟩

/-- An acknowledgement that is refused leaves everything when it names no instruction of the physical database, and else everything
but that instruction. -/
theorem leaves_acknowledge {dbType id instructionId : String} {ack : Acknowledgement}
    (hrefused : 400 ≤ ((Call.acknowledge dbType id instructionId ack).run c now).1.status) :
    (Call.acknowledge dbType id instructionId ack).Leaves c.store
      ((Call.acknowledge dbType id instructionId ack).run c now).1.status
      ((Call.acknowledge dbType id instructionId ack).run c now).2.store := by
  obtain ⟨answer, s, hcase, hrun⟩ := run_acknowledge c now dbType id instructionId ack
  rw [hrun] at hrefused ⊢
  cases hcase with
  | unknown => exact .everything (by simp [respond, registryFailure, Response.failure])
  | failed hlive hphysical => exact .allButInstruction hlive hphysical
  | applied => exact absurd hrefused (Nat.not_le_of_lt (stepResponse_status _))

/-! ### All calls -/

/-- A call that is refused leaves one of the stores that it may. -/
theorem Call.leaves_of_refused (hreferences : c.store.References) {call : Call}
    (hlifted : ∀ r, call = .createDatabase r → r.classifier.ScopeLifted) (hrefused : 400 ≤ (call.run c now).1.status) :
    call.Leaves c.store (call.run c now).1.status (call.run c now).2.store := by
  have hresponse : ∀ {α ε : Type} {failure : ε → Response} {success : α → Response} {result : Except ε α},
      (∀ e, (failure e).status ≠ 500) → (∀ a, (success a).status ≠ 500) → (respond failure success result).status ≠ 500 := by
    intro α ε failure success result hfailure hsuccess
    cases result with
    | ok a => exact hsuccess a
    | error e => exact hfailure e
  cases call with
  | health => exact leaves_of_read (by simp [Response.data])
  | createDatabase r => exact leaves_createDatabase hreferences (hlifted r rfl) hrefused
  | lookupDatabase r => exact leaves_of_read (hresponse routingFailure_status bindingResponse_status)
  | getDatabase id => exact leaves_of_read (hresponse routingFailure_status fun _ => by simp [Response.data])
  | dropDatabase id =>
    exact leaves_of_write (fun _ => by simp [Response.data]) (fun e _ => routingFailure_status e) hrefused
  | listPhysical dbType => exact leaves_of_read (by simp [Response.data])
  | register dbType id r => exact leaves_register hrefused
  | getPhysical dbType id =>
    refine leaves_of_read ?_
    cases hphysical : physicalAt c.store dbType id with
    | ok p => simp [respond, Response.data]
    | error response => exact physicalAt_status hphysical
  | deregister dbType id =>
    simp only [Call.run] at hrefused ⊢
    cases hphysical : physicalAt c.store dbType id with
    | error response => exact .everything (physicalAt_status hphysical)
    | ok p =>
      simp only [hphysical] at hrefused
      exact leaves_of_write (fun _ => by simp [Response.data])
        (fun e he => registryFailure_status (deregister_ne_failed he)) hrefused
  | setGlobal dbType id =>
    simp only [Call.run] at hrefused ⊢
    cases hphysical : physicalAt c.store dbType id with
    | error response => exact .everything (physicalAt_status hphysical)
    | ok p =>
      simp only [hphysical] at hrefused
      exact leaves_of_write (fun _ => by simp [Response.data])
        (fun e he => registryFailure_status (setGlobal_ne_failed he)) hrefused
  | acknowledge dbType id instructionId ack => exact leaves_acknowledge hrefused
  | listNamespaceRules ns => exact leaves_of_read (by simp [Response.data])
  | putNamespaceRule ns name r =>
    refine leaves_of_write (fun a => ?_) (fun e _ => routingFailure_status e) hrefused
    simp only [Response.data]
    split <;> simp
  | deleteNamespaceRule ns name =>
    exact leaves_of_write (fun _ => by simp [Response.data]) (fun e _ => routingFailure_status e) hrefused
  | putMicroserviceRules ns rules =>
    exact leaves_of_write (fun _ => by simp [Response.data]) (fun e _ => routingFailure_status e) hrefused
  | getMicroserviceRules ns => exact leaves_of_read (by simp [Response.data])
  | validateMicroserviceRules ns rules =>
    refine leaves_of_read ?_
    split <;> simp [Response.data, Response.failure]
  | evaluateRules ns h => exact leaves_of_read (hresponse routingFailure_status fun _ => by simp [Response.data])
  | putLabels ns microservice labels =>
    exact leaves_of_write (fun _ => by simp [Response.data]) (fun e _ => routingFailure_status e) hrefused
  | getLabels ns microservice => exact leaves_of_read (by simp [Response.data])
  | putPermanentRules rules =>
    exact leaves_of_write (fun _ => by simp [Response.data]) (fun e _ => routingFailure_status e) hrefused
  | getPermanentEntries ns dbType => exact leaves_of_read (by simp [Response.data])
  | deletePermanentEntries ns dbType =>
    cases ns with
    | none => exact leaves_of_read (by simp [Response.failure])
    | some ns => exact absurd hrefused (by simp [Call.run, Response.data])
  | listDomains => exact leaves_of_read (by simp [Response.data])
  | putDomain controller r =>
    exact leaves_of_write (fun _ => by simp [Response.data]) (fun e _ => blueGreenFailure_status e) hrefused
  | getDomain controller => exact leaves_of_read (hresponse blueGreenFailure_status fun _ => by simp [Response.data])
  | deleteDomain controller =>
    exact leaves_of_write (fun _ => by simp [Response.data]) (fun e _ => blueGreenFailure_status e) hrefused

/-- A request leaves what its call leaves, and everything when it is no call. -/
theorem handle_cases (c : ControlPlane) (now : UInt64) (r : Request) :
    (∃ rejection, r.call = .error rejection ∧ (handle c now r).1.status = rejection.status ∧ (handle c now r).2 = c) ∨
      ∃ call, r.call = .ok call ∧ (handle c now r).1.status = (call.run c now).1.status ∧
        (handle c now r).2 = (call.run c now).2 := by
  unfold handle
  cases hcall : r.call with
  | error rejection => exact Or.inl ⟨rejection, rfl, rfl, rfl⟩
  | ok call =>
    refine Or.inr ⟨call, rfl, ?_, rfl⟩
    dsimp only
    split <;> rfl

theorem Rejection.status_ne (rejection : Rejection) : rejection.status ≠ 500 := by
  cases rejection <;> decide

end Http

/-- Refused requests leave no trace. After every history, and for every control plane over its store,
1. a request that is refused with another status than 500 leaves the store as it was;
2. one that is answered 500 acknowledges a portion of a live instruction of the physical database that it names, and leaves
   everything but that instruction and the index entry that leads to it.
A registration may have other operations between its two steps:
3. the first step leaves the store as it was, whatever the adapter answers;
4. the second step does when the registration is refused. -/
theorem refused_without_trace (env : Surroundings) (events : List Event) :
    let b := replay env events
    (∀ c : ControlPlane, c.store = b.store → ∀ now (r : Http.Request), 400 ≤ (Http.handle c now r).1.status →
      ((Http.handle c now r).1.status ≠ 500 → (Http.handle c now r).2.store = b.store) ∧
      ((Http.handle c now r).1.status = 500 → ∃ dbType id instructionId ack i,
        r.call = .ok (.acknowledge dbType id instructionId ack) ∧
        b.store.instruction? instructionId = some i ∧ i.physicalDatabaseId = id ∧
        b.store.instructionsByPhysical.get? id = some instructionId ∧
        (Http.handle c now r).2.store = { b.store with
          instructions := b.store.instructions.erase instructionId
          instructionsByPhysical := b.store.instructionsByPhysical.erase id })) ∧
    (∀ now h probe, (b.run env now (.precheck h probe)).store = b.store) ∧
    (∀ now h e, b.store.decide now (env.instructionName b.names.instructions) env.portionSize h.id h.dbType h.registration =
      .error e → (b.run env now (.decide h)).store = b.store) := by
  intro b
  have htabled : b.store.Tabled := (Broker.consistent_replay env events).migrations.tabled
  have hreferences : b.store.References := references_replay env events
  refine ⟨?_, fun now h probe => ?_, fun now h e herror => ?_⟩
  · rintro c hstore now r hrefused
    rw [← hstore] at htabled hreferences ⊢
    rcases Http.handle_cases c now r with ⟨rejection, -, hstatus, hsame⟩ | ⟨call, hcall, hstatus, hrun⟩
    · rw [hstatus, hsame]
      exact ⟨fun _ => rfl, fun h500 => absurd h500 rejection.status_ne⟩
    · rw [hstatus] at hrefused ⊢
      rw [hrun]
      have hleaves := Http.Call.leaves_of_refused hreferences (fun r' hr' => ?_) hrefused
      · generalize (call.run c now).1.status = status at hleaves
        generalize (call.run c now).2.store = s at hleaves
        cases hleaves with
        | everything hother => exact ⟨fun _ => rfl, fun h500 => absurd h500 hother⟩
        | @allButInstruction dbType id instructionId ack i hi hphysical =>
          refine ⟨fun hother => absurd rfl hother, fun _ => ⟨dbType, id, instructionId, ack, i, hcall, hi, hphysical, ?_, ?_⟩⟩
          · exact (htabled.inverse _ _).mpr ⟨i, hi, hphysical⟩
          · rw [htabled.deleteInstruction_eq hi, hphysical]
      · subst hr'
        obtain ⟨sent, rfl⟩ := Http.Request.sent_of_call hcall
        exact Classifier.scopeLifted_ofMap sent.classifier
  · simp only [Broker.run, Broker.precheck]
    split <;> rfl
  · simp only [Broker.run, Broker.decide, herror]
    split <;> rfl

/-- A control plane over the store that the sample of a migration leaves. -/
def sampleControlPlane : ControlPlane := ⟨(replay (.numbered 1) sampleMigration).store, ⟨2, 1⟩, 1, .empty, [], .numbered⟩

/-- The failure of the migration in the sample, as the adapter reports it. -/
def sampleFailure : Http.Request :=
  ⟨"POST", "/api/v1/postgresql/physical_databases/pg/instruction/instr-%231/additional-roles", true,
    "\x7b\"failure\":\x7b\"message\":\"no\"\x7d\x7d"⟩

/-- An adapter that reports the failure of its migration is answered 500, and the instruction is gone with its entry. -/
theorem refused_without_trace_of_sampleMigration :
    let c := sampleControlPlane
    (Http.handle c 7 sampleFailure).1.status = 500 ∧
      ∃ id, (c.store.instruction? id).isSome = true ∧ (Http.handle c 7 sampleFailure).2.store.instruction? id = none := by
  intro c
  have hstatus : (Http.handle c 7 sampleFailure).1.status = 500 := by decide +kernel
  obtain ⟨-, hfailed⟩ := (refused_without_trace (.numbered 1) sampleMigration).1 c rfl 7 sampleFailure (by rw [hstatus]; decide)
  obtain ⟨_, _, id, _, i, -, hi, -, -, hstore⟩ := hfailed hstatus
  refine ⟨hstatus, id, Option.isSome_iff_exists.mpr ⟨i, hi⟩, ?_⟩
  rw [hstore, instruction?, KeyMap.get?_erase, if_pos rfl]

end DatabaseBroker
