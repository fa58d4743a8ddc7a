import DatabaseBroker.Proofs.History
import DatabaseBroker.Proofs.Store.Outcomes

/-!
# What an operation leaves

`Broker.Effect` lists what an operation may leave of a broker, with what is known of it then. An operation on rules, entries
or labels leaves databases, instructions and domains alone, and a failed operation leaves everything.
-/

namespace DatabaseBroker

namespace Broker

/-- What an operation at a time leaves of a broker. -/
inductive Effect (env : Surroundings) (b : Broker) (now : UInt64) : Operation → Broker → Prop where
  | nothing {op : Operation} : Effect env b now op b
  | checked {h : Handshake} {probe : Option AdapterError} :
      Effect env b now (.precheck h probe) { b with awaiting := h :: b.awaiting }
  | undecided {h : Handshake} : Effect env b now (.decide h) { b with awaiting := b.awaiting.erase h }
  | decided {h : Handshake} {outcome : RegistrationOutcome} {s : Store}
      (hok : b.store.decide now (env.instructionName b.names.instructions) env.portionSize h.id h.dbType h.registration =
        .ok (outcome, s)) :
      Effect env b now (.decide h)
        ⟨s, if ControlPlane.RegistrationOutcome.isMigrationStart outcome then
          { b.names with instructions := b.names.instructions + 1 } else b.names, b.awaiting.erase h⟩
  | acknowledged {id instructionId : String} {ack : Acknowledgement} {answer : Except RegistryError MigrationStep} {s : Store}
      (hcase : b.store.Acknowledged now env.portionSize id instructionId ack answer s) :
      Effect env b now (.acknowledge id instructionId ack) (b.withStore s)
  | continued {instructionId : String} {step : MigrationStep} {s : Store}
      (hok : b.store.nextPortion now env.portionSize instructionId = .ok (step, s)) :
      Effect env b now (.nextPortion instructionId) (b.withStore s)
  | madeGlobal {id : String} {p : PhysicalDatabase} {s : Store} (hok : b.store.setGlobal now id = .ok (p, s)) :
      Effect env b now (.setGlobal id) (b.withStore s)
  | deregistered {id : String} {rules : Nat} {s : Store} (hok : b.store.deregister id = .ok (rules, s)) :
      Effect env b now (.deregister id) (b.withStore s)
  | bound {call : DatabaseCall} {outcome : BindingOutcome} {s : Store}
      (hok : b.store.getOrCreate now (env.logicalName b.names.logicals) call.request = .ok (outcome, s)) :
      Effect env b now (.getOrCreate call)
        { b with
          store := s
          names := if ControlPlane.BindingOutcome.isCreated outcome then
            { b.names with logicals := b.names.logicals + 1 } else b.names }
  | dropped {id : String} {out : LogicalDatabase} {s : Store} (hok : b.store.markForDrop id = .ok (out, s)) :
      Effect env b now (.drop id) (b.withStore s)
  | ruled {op : Operation} {s : Store} (hsame : b.store.SameButRules s) : Effect env b now op (b.withStore s)
  | grouped {controller : String} {members : List Member} (hmembers : membersProblem? controller members = none) :
      Effect env b now (.putDomain controller members) (b.withStore (b.store.putDomain ⟨controller, members, now⟩))
  | ungrouped {controller : String} :
      Effect env b now (.deleteDomain controller) (b.withStore (b.store.deleteDomain controller))

/-- What is kept of an operation that may fail is nothing, or what it came to. -/
theorem effect_keep {ε α : Type} {env : Surroundings} {b : Broker} {now : UInt64} {op : Operation}
    {result : Except ε (α × Store)} (hok : ∀ a s, result = .ok (a, s) → b.Effect env now op (b.withStore s)) :
    b.Effect env now op (b.keep result) :=
  b.keep_invariant .nothing hok

/-- An operation leaves one of the effects. -/
theorem effect (env : Surroundings) (b : Broker) (now : UInt64) (op : Operation) :
    b.Effect env now op (b.run env now op) := by
  cases op with
  | precheck h probe =>
    simp only [run, precheck]
    split
    · exact .checked
    · exact .nothing
  | decide h =>
    simp only [run, decide]
    split
    · split
      · exact .undecided
      · rename_i hok
        exact .decided hok
    · exact .nothing
  | acknowledge id instructionId ack => exact .acknowledged (b.store.acknowledged now env.portionSize id instructionId ack)
  | nextPortion instructionId => exact effect_keep fun _ _ hok => .continued hok
  | setGlobal id => exact effect_keep fun _ _ hok => .madeGlobal hok
  | deregister id => exact effect_keep fun _ _ hok => .deregistered hok
  | getOrCreate call =>
    simp only [run, getOrCreate]
    split
    · exact .nothing
    · rename_i hok
      exact .bound hok
  | drop id => exact effect_keep fun _ _ hok => .dropped hok
  | putNamespaceRule ns name r => exact effect_keep fun _ _ hok => .ruled (Store.sameButRules_setNamespaceRule hok)
  | deleteNamespaceRule ns name =>
    exact b.keep_map_invariant .nothing fun _ hok => .ruled (Store.sameButRules_removeNamespaceRule hok)
  | putMicroserviceRules ns rules => exact effect_keep fun _ _ hok => .ruled (Store.sameButRules_setMicroserviceRules hok)
  | putPermanentRules rules => exact effect_keep fun _ _ hok => .ruled (Store.sameButRules_setPermanentRules hok)
  | deletePermanentEntries ns dbType => exact .ruled (b.store.sameButRules_removePermanentEntries ns dbType)
  | putLabels ns microservice labels => exact effect_keep fun _ _ hok => .ruled (Store.sameButRules_setLabels hok)
  | putDomain controller members =>
    refine effect_keep fun d s hok => ?_
    obtain ⟨hmembers, rfl⟩ := Store.setDomain_eq_ok hok
    exact .grouped hmembers
  | deleteDomain controller =>
    refine b.keep_map_invariant .nothing fun _ hok => ?_
    rw [Store.removeDomain_eq_ok hok]
    exact .ungrouped

end Broker

end DatabaseBroker
