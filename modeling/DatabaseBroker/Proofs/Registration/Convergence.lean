import DatabaseBroker.Proofs.Registration.Meanwhile

/-!
# A handshake that is sent again

A handshake may be sent any number of times, whatever happens to other physical databases meanwhile: it is decided once, and from
then on it is answered with what was decided (`registration_converges`). What is handed out of a migration is handed out again,
as the instruction was read back since, so a float among the connection properties may have become a neighbour
(`portion_changes_when_sent_again`).
-/

namespace DatabaseBroker

open Store

/-- A handshake that was decided after any history, and then is sent again, in four parts. Its first step is some event of that
history; where it is the last one, nothing came between the two steps.
1. The store is the one that the decision came to. When that is a physical database and not a migration, the handshake is answered
   as unchanged if it is sent again, and changes nothing.
2. When it is a migration, the handshake is answered with that migration, resumed, and with that portion, as it was read back since,
   if it is sent again after any operations that spare the handshake and do not acknowledge the instruction. It is the very portion
   after all of them exactly when each value of its connection properties reads back as itself.
3. Once the migration was acknowledged to completion, with operations that spare the handshake before and after, the handshake is
   answered as unchanged, and changes nothing.
4. In parts 2 and 3 the handshake is refused only when another physical database has its address. At every point of the operations
   the address is free exactly when none of them completes the migration of another physical database onto it. -/
theorem registration_converges (env : Surroundings) (events : List Event) (now : UInt64) (h : Handshake)
    {outcome : RegistrationOutcome} {s : Store} (hawaits : h ∈ (replay env events).awaiting)
    (hok : (replay env events).store.decide now (env.instructionName (replay env events).names.instructions) env.portionSize
      h.id h.dbType h.registration = .ok (outcome, s)) :
    let b := (replay env events).run env now (.decide h)
    (b.store = s ∧ ∀ p, outcome = .created p ∨ outcome = .updated p ∨ outcome = .unchanged p →
      ∀ t name, s.register t name env.portionSize h = .ok (.unchanged p, s)) ∧
    (∀ i portion resumed, outcome = .migrationPending i portion resumed →
      (∀ later, Spared h later → (∀ e ∈ later, ¬ e.operation.Acknowledges i.id) →
        (b.runAll env later).store.Answers env.portionSize h fun answer _ =>
          ∃ i' again, answer = .migrationPending i' (portion.map (AdditionalRoles.reread^[again + 1])) true ∧ i'.id = i.id) ∧
      ((∀ later, Spared h later → (∀ e ∈ later, ¬ e.operation.Acknowledges i.id) →
        (b.runAll env later).store.Answers env.portionSize h fun answer _ =>
          ∃ i', answer = .migrationPending i' portion true ∧ i'.id = i.id) ↔ ∀ e ∈ portion, e.Steady)) ∧
    (∀ i portion resumed, outcome = .migrationPending i portion resumed →
      ∀ before e after, Spared h (before ++ e :: after) → e.operation.Acknowledges i.id →
        ((b.runAll env before).completes env e.time e.operation).isSome →
        (b.runAll env (before ++ e :: after)).store.Answers env.portionSize h fun answer s' =>
          s' = (b.runAll env (before ++ e :: after)).store ∧ ∃ p, answer = .unchanged p) ∧
    (∀ later, Spared h later →
      ((∀ before after, later = before ++ after →
        (b.runAll env before).store.AddressFree h.registration.adapterAddress h.id) ↔
      ∀ before e after, later = before ++ e :: after → ∀ p, (b.runAll env before).completes env e.time e.operation = some p →
        p.adapterAddress = h.registration.adapterAddress → p.id = h.id)) := by
  intro b
  have hbefore := Broker.consistent_replay env events
  have hissued := Broker.issued_replay env events
  have hadmissible := Broker.admissible_of_awaiting env events h hawaits
  have hconsistent : b.Consistent env := hbefore.effect (Broker.effect ..)
  have hstore : b.store = s := Broker.store_run_decide hawaits hok
  have hfree : b.store.AddressFree h.registration.adapterAddress h.id := by
    have hidentity := (decided_of_decide hok).1
    have hfree := addressFree_of_checkIdentity hbefore.migrations.tabled hidentity
    have hspares : (Operation.decide h).Spares h := Or.inl rfl
    exact (Broker.addressFree_run_iff hbefore hfree hspares).mpr fun _ => nofun
  refine ⟨⟨hstore, fun p houtcome t name => ?_⟩, fun i portion resumed houtcome => ?_, fun i portion resumed houtcome => ?_,
    fun later hspares => Broker.addressFree_runAll_iff hconsistent hfree hspares⟩
  · obtain ⟨hsettled, hp⟩ := hbefore.migrations.settled_of_decide hok houtcome
    have htabled : s.Tabled := hstore ▸ hconsistent.migrations.tabled
    obtain ⟨answer, s', hanswer, rfl, q, hq, rfl⟩ :=
      (hsettled.answers htabled hadmissible env.portionSize).1 (hstore ▸ hfree) t name
    obtain rfl := Option.some.inj (hp.symm.trans hq)
    exact hanswer
  · subst houtcome
    obtain ⟨hne, j, hj, hleads, hoffers⟩ := hbefore.migrations.underWay_of_decide hissued env.portionSize_pos hok
    rw [← hstore] at hj
    have hanswers : ∀ later, Spared h later → (∀ e ∈ later, ¬ e.operation.Acknowledges i.id) →
        (b.runAll env later).store.Answers env.portionSize h fun answer _ => ∃ i' again,
          answer = .migrationPending i' (portion.map (AdditionalRoles.reread^[again + 1])) true ∧ i'.id = i.id :=
      fun _ => Broker.answers_runAll_of_offers hconsistent hadmissible hj hleads hoffers hne
    refine ⟨hanswers, fun hsame => ?_, fun hsteady later hspares hack => (hanswers later hspares hack).imp ?_⟩
    · have hatOnce := hsame [] (by simp [Spared]) (by simp)
      exact Broker.steady_of_answers hconsistent hadmissible hj hleads hoffers hne hfree hatOnce
    · rintro answer - ⟨i', again, rfl, hid⟩
      have heq : portion.map (AdditionalRoles.reread^[again + 1]) = portion :=
        map_eq_self_iff.mpr fun e he => AdditionalRoles.iterate_reread_of_steady (hsteady e he) (again + 1)
      exact ⟨i', by rw [heq], hid⟩
  · subst houtcome
    rintro before e after hspares hack hcompleted
    obtain ⟨-, j, hj, hleads, -⟩ := hbefore.migrations.underWay_of_decide hissued env.portionSize_pos hok
    rw [← hstore] at hj
    have hleading : Broker.Leading env h i.id b := Broker.leading_of_live hconsistent hj hleads
    have hsettled := Broker.settled_of_completed hconsistent hleading hspares hack hcompleted
    refine (hsettled.answers (hconsistent.runAll _).migrations.tabled hadmissible env.portionSize).imp ?_
    rintro answer s' ⟨hs', p, -, hanswer⟩
    exact ⟨hs', p, hanswer⟩

/-- A handshake that is answered with a migration, and the store that is left. -/
structure Pending where
  instruction : Instruction
  portion : List AdditionalRoles
  resumed : Bool
  store : Store

/-- Reads an answer as one with a migration. -/
def Pending.ofAnswer? : Except RegistryError (RegistrationOutcome × Store) → Option Pending
  | .ok (.migrationPending i portion resumed, s) => some ⟨i, portion, resumed, s⟩
  | _ => none

/-- An answer that is read so is one. -/
theorem Pending.ofAnswer?_eq_some {answer : Except RegistryError (RegistrationOutcome × Store)} {m : Pending}
    (h : ofAnswer? answer = some m) : answer = .ok (.migrationPending m.instruction m.portion m.resumed, m.store) := by
  unfold ofAnswer? at h
  split at h
  · cases h
    rfl
  · cases h

/-- Both databases of the sample of a migration are acknowledged. -/
def sampleAcknowledgement : Operation := .acknowledge "pg" "instr-#1" ⟨[⟨"ldb-#1", [], []⟩, ⟨"ldb-#2", [], []⟩], none⟩

/-- In the sample of a migration the declaration of the other role, sent again once another database was made, is answered with the
first portion; and as unchanged once both databases are acknowledged. -/
theorem registration_of_sampleMigration :
    let h := sampleDeclaration ["admin", "ro"]
    let b := replay (.numbered 1) sampleMigration
    let b' := b.run (.numbered 1) 7 sampleAcknowledgement
    (∃ i portion s, b.store.register 7 "instr-#2" 1 h = .ok (.migrationPending i portion true, s) ∧ i.id = "instr-#1" ∧
      portion.map (·.databaseId) = ["ldb-#1"]) ∧
    ∃ p, b'.store.register 8 "instr-#2" 1 h = .ok (.unchanged p, b'.store) := by
  intro h b b'
  have hawaits : sampleDeclaration ["admin", "ro"] ∈ (replay (.numbered 1) (sampleMigration.take 4)).awaiting := by decide +kernel
  have hdecided : (Pending.ofAnswer? ((replay (.numbered 1) (sampleMigration.take 4)).store.decide 5
      ((Surroundings.numbered 1).instructionName (replay (.numbered 1) (sampleMigration.take 4)).names.instructions)
      (Surroundings.numbered 1).portionSize "pg" "postgresql" (sampleDeclaration ["admin", "ro"]).registration)).any
      (fun m => decide (m.instruction.id = "instr-#1" ∧ m.portion.map (·.databaseId) = ["ldb-#1"])) = true := by
    decide +kernel
  have hidentity : (replay (.numbered 1) sampleMigration).store.checkIdentity "pg" "postgresql"
      (sampleDeclaration ["admin", "ro"]).registration = .ok () := by decide +kernel
  have hidentity' : ((replay (.numbered 1) sampleMigration).run (.numbered 1) 7 sampleAcknowledgement).store.checkIdentity
      "pg" "postgresql" (sampleDeclaration ["admin", "ro"]).registration = .ok () := by decide +kernel
  have hcompletes : ((replay (.numbered 1) sampleMigration).completes (.numbered 1) 7 sampleAcknowledgement).isSome = true := by
    decide +kernel
  have hconsistent : b.Consistent (.numbered 1) := Broker.consistent_replay (.numbered 1) sampleMigration
  have hconsistent' : b'.Consistent (.numbered 1) := hconsistent.effect (b.effect (.numbered 1) 7 sampleAcknowledgement)
  obtain ⟨m, hm, hdecided⟩ := (Option.any_eq_true _ _).mp hdecided
  obtain ⟨hid, hportion⟩ := of_decide_eq_true hdecided
  obtain ⟨-, hpending, hcompleted, -⟩ := registration_converges (.numbered 1) (sampleMigration.take 4) 5
    (sampleDeclaration ["admin", "ro"]) hawaits (Pending.ofAnswer?_eq_some hm)
  have hb : b = ((replay (.numbered 1) (sampleMigration.take 4)).run (.numbered 1) 5 (.decide h)).runAll (.numbered 1)
      (sampleMigration.drop 5) :=
    (replay_append (.numbered 1) (sampleMigration.take 4) (sampleMigration.drop 4)).trans (Broker.runAll_cons ..)
  have hlater : ∀ e ∈ sampleMigration.drop 5, e.operation.Spares h ∧ ¬ e.operation.Acknowledges m.instruction.id :=
    fun e he => by
      obtain rfl := List.mem_singleton.mp he
      exact ⟨trivial, not_false⟩
  constructor
  · have hanswers := (hpending m.instruction m.portion m.resumed rfl).1 _ (fun e he => (hlater e he).1)
      fun e he => (hlater e he).2
    rw [← hb] at hanswers
    obtain ⟨_, s', hanswer, i', again, rfl, hid'⟩ :=
      hanswers.1 (addressFree_of_checkIdentity hconsistent.migrations.tabled hidentity) 7 "instr-#2"
    refine ⟨i', _, s', hanswer, hid'.trans hid, ?_⟩
    rw [Instruction.databaseIds_iterate_reread, hportion]
  · have hspares : Spared h (sampleMigration.drop 5 ++ [⟨7, sampleAcknowledgement⟩]) := fun e he => by
      rcases List.mem_append.mp he with he | he
      · exact (hlater e he).1
      · obtain rfl := List.mem_singleton.mp he
        trivial
    have hanswers := hcompleted m.instruction m.portion m.resumed rfl _ ⟨7, sampleAcknowledgement⟩ [] hspares hid.symm
      (by rwa [← hb])
    rw [Broker.runAll_append, ← hb, Broker.runAll_cons] at hanswers
    obtain ⟨_, s', hanswer, rfl, p, rfl⟩ :=
      hanswers.1 (addressFree_of_checkIdentity hconsistent'.migrations.tabled hidentity') 8 "instr-#2"
    exact ⟨p, hanswer⟩

/-! ## A portion that drifts -/

/-- A portion that is handed out again need not be the one that was handed out: once the properties of a role are acknowledged with
a weight that is not kept as it is, and another role is declared twice, the portion has another weight the second time, and not
even one that is the same number. -/
theorem portion_changes_when_sent_again :
    let h := sampleDeclaration ["admin", "ro", "rw"]
    ∃ i portion s i' portion' s',
      (replay (.numbered 1) (sampleWeights.take 6)).store.register 7 "instr-#2" 1 h = .ok (.migrationPending i portion false, s) ∧
      s.register 8 "instr-#3" 1 h = .ok (.migrationPending i' portion' true, s') ∧ i'.id = i.id ∧ portion' ≠ portion := by
  have hdrifted : (Pending.ofAnswer? ((replay (.numbered 1) (sampleWeights.take 6)).store.register 7 "instr-#2" 1
      (sampleDeclaration ["admin", "ro", "rw"]))).any (fun m =>
        (Pending.ofAnswer? (m.store.register 8 "instr-#3" 1 (sampleDeclaration ["admin", "ro", "rw"]))).any fun m' =>
          decide (m.resumed = false ∧ m'.resumed = true ∧ m'.instruction.id = m.instruction.id ∧
            Json.sameOption (lastWeight? m'.portion) (lastWeight? m.portion) = false)) = true := by decide +kernel
  obtain ⟨⟨i, portion, resumed, s⟩, hm, hdrifted⟩ := (Option.any_eq_true _ _).mp hdrifted
  obtain ⟨⟨i', portion', resumed', s'⟩, hm', hdrifted⟩ := (Option.any_eq_true _ _).mp hdrifted
  obtain ⟨rfl, rfl, hid, hweight⟩ := of_decide_eq_true hdrifted
  exact ⟨i, portion, s, i', portion', s', Pending.ofAnswer?_eq_some hm, Pending.ofAnswer?_eq_some hm', hid,
    ne_of_lastWeight? hweight⟩

end DatabaseBroker
