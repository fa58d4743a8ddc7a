import DatabaseBroker.ControlPlane
import DatabaseBroker.Text.Numeral
import Mathlib.Data.List.Induction
import Mathlib.Logic.Function.Basic

/-!
# Histories

What may happen to a broker, one operation after another, from an empty store. `Operation` lists what clients, adapters and
operators do; each operation runs at a time of its own, and the times of a history need not ascend. A registration takes two
operations: `precheck` looks at the declaration and probes the adapter, `decide` stores what follows, and anything may come
between them.

A statement about every reached state is a statement about `replay env events` for every list of events. `replay_invariant`
proves one: the broker starts with it, and each operation keeps it.
-/

namespace DatabaseBroker

/-- What operations need from outside: names for new records, no name given twice, and the size of a portion. -/
structure Surroundings where
  /-- The name of the logical database made after `n` others. -/
  logicalName : Nat → String
  /-- The name of the instruction made after `n` others. -/
  instructionName : Nat → String
  portionSize : Nat
  logicalName_injective : Function.Injective logicalName
  instructionName_injective : Function.Injective instructionName
  portionSize_pos : 0 < portionSize

/-- A registration whose declaration was looked at and whose adapter answered, so that it may be decided. -/
structure Handshake where
  id : String
  dbType : String
  registration : Registration
deriving DecidableEq

/-- A request for a database as it is sent: its classifier is an object. -/
structure DatabaseCall where
  classifier : KeyMap Json
  dbType : String
  ns : Option String
  physicalDatabaseId : Option String

/-- The request that a call is read as. -/
def DatabaseCall.request (c : DatabaseCall) : DatabaseRequest :=
  ⟨.ofMap c.classifier, c.dbType, c.ns, c.physicalDatabaseId⟩

/-- A broker between two operations. -/
structure Broker where
  store : Store
  names : NameSupply
  /-- The handshakes that still have to be decided. -/
  awaiting : List Handshake

/-- What may be asked of a broker that changes something. -/
inductive Operation where
  /-- The first step of a registration, with what the probe of the adapter came to. -/
  | precheck (h : Handshake) (probe : Option AdapterError)
  /-- The second step of a registration. -/
  | decide (h : Handshake)
  | acknowledge (physicalDatabaseId instructionId : String) (ack : Acknowledgement)
  | nextPortion (instructionId : String)
  | setGlobal (id : String)
  | deregister (id : String)
  | getOrCreate (call : DatabaseCall)
  | drop (id : String)
  | putNamespaceRule (ns name : String) (request : NamespaceRuleRequest)
  | deleteNamespaceRule (ns name : String)
  | putMicroserviceRules (ns : String) (rules : List MicroserviceRule)
  | putPermanentRules (rules : List PermanentRule)
  | deletePermanentEntries (ns : String) (dbType : Option String)
  | putLabels (ns microservice : String) (labels : Labels)
  | putDomain (controller : String) (members : List Member)
  | deleteDomain (controller : String)

/-- An operation and the time at which it runs. -/
structure Event where
  time : UInt64
  operation : Operation

namespace Broker

/-- A broker over an empty store. -/
def start : Broker := ⟨.empty, ⟨0, 0⟩, []⟩

/-- Puts a store in place of the one before. -/
def withStore (b : Broker) (s : Store) : Broker := { b with store := s }

/-- Keeps what an operation on the store came to; one that fails changes nothing. -/
def keep {ε α : Type} (b : Broker) (result : Except ε (α × Store)) : Broker :=
  match result with
  | .ok (_, s) => b.withStore s
  | .error _ => b

/-- Looks at a declaration; the handshake awaits its decision if there is one to make and the adapter answered. -/
def precheck (b : Broker) (h : Handshake) (probe : Option AdapterError) : Broker :=
  match b.store.precheck h.id h.dbType h.registration, probe with
  | .ok none, none => { b with awaiting := h :: b.awaiting }
  | _, _ => b

/-- Decides a handshake that awaits its decision. -/
def decide (env : Surroundings) (b : Broker) (now : UInt64) (h : Handshake) : Broker :=
  if h ∈ b.awaiting then
    let b := { b with awaiting := b.awaiting.erase h }
    match b.store.decide now (env.instructionName b.names.instructions) env.portionSize h.id h.dbType h.registration with
    | .error _ => b
    | .ok (outcome, s) =>
      let names := if ControlPlane.RegistrationOutcome.isMigrationStart outcome then
        { b.names with instructions := b.names.instructions + 1 } else b.names
      { b with store := s, names := names }
  else b

/-- Finds the database of a request and makes it if it is not there. -/
def getOrCreate (env : Surroundings) (b : Broker) (now : UInt64) (r : DatabaseRequest) : Broker :=
  match b.store.getOrCreate now (env.logicalName b.names.logicals) r with
  | .error _ => b
  | .ok (outcome, s) =>
    let names := if ControlPlane.BindingOutcome.isCreated outcome then
      { b.names with logicals := b.names.logicals + 1 } else b.names
    { b with store := s, names := names }

/-- Runs an operation at a time. -/
def run (env : Surroundings) (b : Broker) (now : UInt64) : Operation → Broker
  | .precheck h probe => b.precheck h probe
  | .decide h => b.decide env now h
  | .acknowledge id instructionId ack => b.withStore (b.store.acknowledge now env.portionSize id instructionId ack).2
  | .nextPortion instructionId => b.keep (b.store.nextPortion now env.portionSize instructionId)
  | .setGlobal id => b.keep (b.store.setGlobal now id)
  | .deregister id => b.keep (b.store.deregister id)
  | .getOrCreate call => b.getOrCreate env now call.request
  | .drop id => b.keep (b.store.markForDrop id)
  | .putNamespaceRule ns name r => b.keep (b.store.setNamespaceRule now ns name r)
  | .deleteNamespaceRule ns name => b.keep ((b.store.removeNamespaceRule ns name).map ((), ·))
  | .putMicroserviceRules ns rules => b.keep (b.store.setMicroserviceRules now ns rules)
  | .putPermanentRules rules => b.keep (b.store.setPermanentRules rules)
  | .deletePermanentEntries ns dbType => b.withStore (b.store.removePermanentEntries ns dbType).2
  | .putLabels ns microservice labels => b.keep (b.store.setLabels now ns microservice labels)
  | .putDomain controller members => b.keep (b.store.setDomain now controller members)
  | .deleteDomain controller => b.keep ((b.store.removeDomain controller).map ((), ·))

/-- Runs events one after another. -/
def runAll (env : Surroundings) (b : Broker) (events : List Event) : Broker :=
  events.foldl (fun b e => b.run env e.time e.operation) b

end Broker

/-- The broker after a history. -/
def replay (env : Surroundings) (events : List Event) : Broker := Broker.start.runAll env events

/-- A history that goes on is run from where it stood. -/
theorem replay_append (env : Surroundings) (events later : List Event) :
    replay env (events ++ later) = (replay env events).runAll env later := by
  simp only [replay, Broker.runAll, List.foldl_append]

/-- The first event is run first. -/
theorem Broker.runAll_cons (env : Surroundings) (b : Broker) (e : Event) (later : List Event) :
    b.runAll env (e :: later) = (b.run env e.time e.operation).runAll env later := rfl

/-- Events in two parts are run one part after the other. -/
theorem Broker.runAll_append (env : Surroundings) (b : Broker) (events later : List Event) :
    b.runAll env (events ++ later) = (b.runAll env events).runAll env later := by
  simp only [runAll, List.foldl_append]

/-- What each event of a list keeps, the whole list keeps. -/
theorem runAll_invariant {env : Surroundings} {P : Broker → Prop} {events : List Event}
    (hstep : ∀ e ∈ events, ∀ b, P b → P (b.run env e.time e.operation)) {b : Broker} (hb : P b) :
    P (b.runAll env events) := by
  induction events generalizing b with
  | nil => exact hb
  | cons e rest ih =>
    exact ih (fun e' he' => hstep e' (List.mem_cons_of_mem _ he')) (hstep e (List.mem_cons_self ..) b hb)

/-- What the empty broker has and each event of a history keeps, the broker after the history has. -/
theorem replay_invariant {env : Surroundings} {P : Broker → Prop} {events : List Event} (hstart : P .start)
    (hstep : ∀ e ∈ events, ∀ b, P b → P (b.run env e.time e.operation)) : P (replay env events) :=
  runAll_invariant hstep hstart

/-- What a broker has at each point of a list of events, if each event keeps it under a condition: the condition holds of each. -/
theorem runAll_throughout_iff {env : Surroundings} {b : Broker} {P : Broker → Prop} {Q : Broker → Event → Prop}
    {events : List Event} (hb : P b)
    (hstep : ∀ before e after, events = before ++ e :: after → P (b.runAll env before) →
      (P ((b.runAll env before).run env e.time e.operation) ↔ Q (b.runAll env before) e)) :
    (∀ before after, events = before ++ after → P (b.runAll env before)) ↔
      ∀ before e after, events = before ++ e :: after → Q (b.runAll env before) e := by
  have hrun : ∀ before e, b.runAll env (before ++ [e]) = (b.runAll env before).run env e.time e.operation :=
    fun before e => b.runAll_append env before [e]
  have hsplit : ∀ before e (after : List Event), before ++ [e] ++ after = before ++ e :: after := by
    intro before e after
    rw [List.append_assoc, List.singleton_append]
  constructor
  · rintro hall before e after rfl
    have hafter := hall (before ++ [e]) after (hsplit before e after).symm
    rw [hrun] at hafter
    exact (hstep before e after rfl (hall before (e :: after) rfl)).mp hafter
  · intro hall before
    -- By induction on how far the events have gone, the last one first.
    induction before using List.reverseRecOn with
    | nil => exact fun _ _ => hb
    | append_singleton before e ih =>
      intro after hevents
      rw [hsplit] at hevents
      rw [hrun]
      exact (hstep before e after hevents (ih (e :: after) hevents)).mpr (hall before e after hevents)

/-- A failed operation keeps everything, so what success keeps is kept. -/
theorem Broker.keep_invariant {ε α : Type} {P : Broker → Prop} {b : Broker} {result : Except ε (α × Store)} (hb : P b)
    (hok : ∀ a s, result = .ok (a, s) → P (b.withStore s)) : P (b.keep result) := by
  cases result with
  | error e => exact hb
  | ok out => exact hok out.1 out.2 rfl

/-- So it is with an operation that answers nothing. -/
theorem Broker.keep_map_invariant {ε : Type} {P : Broker → Prop} {b : Broker} {result : Except ε Store} (hb : P b)
    (hok : ∀ s, result = .ok s → P (b.withStore s)) : P (b.keep (result.map ((), ·))) := by
  cases result with
  | error e => exact hb
  | ok s => exact hok s rfl

namespace Surroundings

/-- A prefix before a running number gives no name twice. -/
theorem numbered_injective (start : String) : Function.Injective fun n : Nat => start ++ toString (n + 1) := by
  intro m n h
  have hrepr : Nat.repr (m + 1) = Nat.repr (n + 1) := by simpa using h
  have hdigits : Text.Numeral.ofNat (m + 1) = Text.Numeral.ofNat (n + 1) := by
    simpa [Nat.repr, Text.Numeral.ofNat] using congrArg String.toList hrepr
  have hread := Text.Numeral.toNat?_ofNat (m + 1)
  rw [hdigits, Text.Numeral.toNat?_ofNat, Option.some.injEq] at hread
  omega

/-- How records are named. -/
def naming (env : Surroundings) : Naming := ⟨env.logicalName, env.instructionName⟩

/-- Surroundings in which records are named in a given way; a portion holds at least one entry. -/
def ofNaming (naming : Naming) (portionSize : Nat) (hlogical : Function.Injective naming.logical)
    (hinstruction : Function.Injective naming.instruction) : Surroundings where
  logicalName := naming.logical
  instructionName := naming.instruction
  portionSize := max portionSize 1
  logicalName_injective := hlogical
  instructionName_injective := hinstruction
  portionSize_pos := by omega

/-- Identifiers as names: no name is given twice when no digits are drawn twice for a kind. -/
def drawn (logicals instructions : Nat → Identifier.Source) (portionSize : Nat)
    (hlogicals : Function.Injective fun n => Identifier.tail (logicals n))
    (hinstructions : Function.Injective fun n => Identifier.tail (instructions n)) : Surroundings :=
  ofNaming (.drawn logicals instructions) portionSize (fun _ _ h => hlogicals (Identifier.draw_inj.mp h))
    fun _ _ h => hinstructions (Identifier.draw_inj.mp h)

/-- Running numbers as names. -/
def numbered (portionSize : Nat) : Surroundings :=
  ofNaming .numbered portionSize (numbered_injective "ldb-#") (numbered_injective "instr-#")

end Surroundings

end DatabaseBroker
