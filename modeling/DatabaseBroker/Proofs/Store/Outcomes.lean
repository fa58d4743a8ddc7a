import DatabaseBroker.ControlPlane
import DatabaseBroker.Proofs.Store.Writes

/-!
# What an operation comes to

Each operation on the store splits into a few cases, and this module says once which: a request for a database is `Bound`, a
handshake is `Decided`, an acknowledgement is `Acknowledged`. A case names what led to it and the store that it leaves, so a
statement about all operations goes case by case and never through their definitions.
-/

namespace DatabaseBroker

namespace Instruction

/-- The instruction with another declaration of the same roles. -/
def retarget (i : Instruction) (now : UInt64) (target : PhysicalDatabase) : Instruction :=
  { i with target := target, updatedAt := now }

/-- A new instruction for a target. -/
def onto (id : String) (now : UInt64) (target : PhysicalDatabase) (entries : List AdditionalRoles) : Instruction :=
  ⟨id, target.id, .created, target, entries, none, now, now⟩

end Instruction

namespace Store

/-- A database that the index finds is stored. -/
theorem findLogical?_eq_some_iff {s : Store} {dbType : String} {c : Classifier} {db : LogicalDatabase} :
    s.findLogical? dbType c = some db ↔
      ∃ id, s.classifierIndex.get? (classifierKey dbType c) = some id ∧ s.logical? id = some db := by
  simp only [findLogical?, Option.bind_eq_some_iff]

/-! ## Requests for databases -/

/-- A database found under the current classifier is the one that the index holds for it. -/
theorem existing?_eq_current_iff {s : Store} {dbType : String} {c : Classifier} {db : LogicalDatabase} :
    s.existing? dbType c = some (.current db) ↔ s.findLogical? dbType c = some db := by
  cases hfind : s.findLogical? dbType c <;> simp [existing?, hfind, Option.bind_eq_some_iff]

/-- A database found under a legacy classifier is none that the index holds for the current one. -/
theorem existing?_eq_legacy_iff {s : Store} {dbType : String} {c : Classifier} {db : LogicalDatabase} :
    s.existing? dbType c = some (.legacy db) ↔
      s.findLogical? dbType c = none ∧ ∃ legacy, c.legacyEquivalent? = some legacy ∧
        s.findLogical? dbType legacy = some db := by
  cases hfind : s.findLogical? dbType c <;> simp [existing?, hfind, Option.bind_eq_some_iff]

/-- Where no database is there, the index holds none for the current classifier. -/
theorem findLogical?_of_missing {s : Store} {dbType : String} {c : Classifier} (h : s.existing? dbType c = none) :
    s.findLogical? dbType c = none := by
  cases hfind : s.findLogical? dbType c with
  | none => rfl
  | some db =>
    rw [existing?_eq_current_iff.mpr hfind] at h
    cases h

/-- A database that is there already is answered, unless it is bound to another physical database than the request pins. -/
theorem bound_cases (r : DatabaseRequest) (db : LogicalDatabase) (redirected : Bool) :
    r.bound db redirected = .boundElsewhere db.id db.physicalDatabaseId ∨
      r.bound db redirected = .resolved db false redirected none := by
  unfold DatabaseRequest.bound
  split
  · exact Or.inl rfl
  · exact Or.inr rfl

/-- Where a request for a database leads: to an answer without a change, to a database that is there, to one that takes the
current classifier, or to a new one. -/
inductive Bound (s : Store) (now : UInt64) (id : String) (r : DatabaseRequest) : BindingOutcome → Store → Prop where
  | refused {outcome : BindingOutcome} (haddress : s.address r = .error (.answer outcome)) : Bound s now id r outcome s
  | found {a : Address} {db : LogicalDatabase} (haddress : s.address r = .ok a)
      (hfound : s.findLogical? r.dbType a.classifier = some db) : Bound s now id r (r.bound db a.redirected) s
  | upgraded {a : Address} {legacy : Classifier} {db : LogicalDatabase} (haddress : s.address r = .ok a)
      (hmissing : s.findLogical? r.dbType a.classifier = none) (hlegacy : a.classifier.legacyEquivalent? = some legacy)
      (hfound : s.findLogical? r.dbType legacy = some db) :
      Bound s now id r (r.bound (db.upgrade a.classifier) a.redirected) (s.putLogical (db.upgrade a.classifier))
  | unplaced {a : Address} {outcome : BindingOutcome} (haddress : s.address r = .ok a)
      (hmissing : s.existing? r.dbType a.classifier = none) (hplace : s.placeFor r a = .error (.answer outcome)) :
      Bound s now id r outcome s
  | created {a : Address} {target : PhysicalDatabase} {applied : Option AppliedRule} (haddress : s.address r = .ok a)
      (hmissing : s.existing? r.dbType a.classifier = none) (hplace : s.placeFor r a = .ok (target, applied)) :
      Bound s now id r (.resolved (.make id now r.dbType a target) true a.redirected applied)
        (s.create now id r.dbType a target).2

/-- A request that does not fail ends in one of the cases. -/
theorem bound_of_getOrCreate {s s' : Store} {now : UInt64} {id : String} {r : DatabaseRequest} {outcome : BindingOutcome}
    (h : s.getOrCreate now id r = .ok (outcome, s')) : s.Bound now id r outcome s' := by
  unfold getOrCreate at h
  dsimp only at h
  split at h
  · rename_i ending haddress
    cases ending with
    | answer outcome' =>
      cases h
      exact .refused haddress
    | failure e => cases h
  · rename_i a haddress
    split at h
    · rename_i db hexisting
      cases h
      exact .found haddress (existing?_eq_current_iff.mp hexisting)
    · rename_i db hexisting
      cases h
      obtain ⟨hmissing, legacy, hlegacy, hfound⟩ := existing?_eq_legacy_iff.mp hexisting
      exact .upgraded haddress hmissing hlegacy hfound
    · rename_i hmissing
      split at h
      · rename_i ending hplace
        cases ending with
        | answer outcome' =>
          cases h
          exact .unplaced haddress hmissing hplace
        | failure e => cases h
      · rename_i target applied hplace
        cases h
        exact .created haddress hmissing hplace

/-- A request is answered before a database is looked for only when it is refused: for its classifier, or for the version of the
database that it would be redirected to. -/
theorem refusal_of_address {s : Store} {r : DatabaseRequest} {outcome : BindingOutcome}
    (h : s.address r = .error (.answer outcome)) :
    (∃ reason, outcome = .invalidClassifier reason) ∨ ∃ id version, outcome = .versionedDatabase id version := by
  unfold address at h
  split at h
  · cases h
    exact Or.inl ⟨_, rfl⟩
  · split at h
    · cases h
    · cases h
      exact Or.inr ⟨_, _, rfl⟩
    · cases h

/-- A new database is put on a physical database that is stored, or nowhere: the request pins one that is not registered with its
type, or pins none and is led to none. -/
theorem placeFor_cases {s : Store} {r : DatabaseRequest} {a : Address} :
    (∃ target applied id, s.placeFor r a = .ok (target, applied) ∧ s.physical? id = some target) ∨
      s.placeFor r a = .error (.answer (.noAdapter r.dbType)) ∨
      ∃ id, r.physicalDatabaseId = some id ∧
        s.placeFor r a = .error (.failure (.invalid (.pinnedNotRegistered id r.dbType))) := by
  unfold placeFor
  split
  · rename_i id hpin
    split
    · rename_i p hp
      exact Or.inl ⟨p, none, id, rfl, (Option.filter_eq_some_iff.mp hp).1⟩
    · exact Or.inr (Or.inr ⟨id, hpin, rfl⟩)
  · split
    · rename_i decision _
      split
      · rename_i p hp
        exact Or.inl ⟨p, some decision.applied, decision.physicalDatabaseId, rfl, hp⟩
      · exact Or.inr (Or.inl rfl)
    · exact Or.inr (Or.inl rfl)

/-- The physical database of a new database is stored. -/
theorem physical?_of_placeFor {s : Store} {r : DatabaseRequest} {a : Address} {target : PhysicalDatabase}
    {applied : Option AppliedRule} (h : s.placeFor r a = .ok (target, applied)) : ∃ id, s.physical? id = some target := by
  rcases s.placeFor_cases (r := r) (a := a) with ⟨target', applied', id, hok, hp⟩ | hno | ⟨_, -, he⟩
  · rw [hok] at h
    cases h
    exact ⟨id, hp⟩
  · rw [hno] at h
    cases h
  · rw [he] at h
    cases h

/-- A request for a new database that gets no place is answered that there is no adapter, if it does not fail. -/
theorem noAdapter_of_placeFor {s : Store} {r : DatabaseRequest} {a : Address} {outcome : BindingOutcome}
    (h : s.placeFor r a = .error (.answer outcome)) : outcome = .noAdapter r.dbType := by
  rcases s.placeFor_cases (r := r) (a := a) with ⟨_, _, _, hok, -⟩ | hno | ⟨_, -, he⟩
  · rw [hok] at h
    cases h
  · rw [hno] at h
    cases h
    rfl
  · rw [he] at h
    cases h

/-- An answer makes a database exactly when the request was for one that was not there and got a place. -/
theorem Bound.cases_on_created {s s' : Store} {now : UInt64} {id : String} {r : DatabaseRequest} {outcome : BindingOutcome}
    (h : s.Bound now id r outcome s') :
    (ControlPlane.BindingOutcome.isCreated outcome = false ∧
      (s' = s ∨ ∃ c db, (∃ id', s.logical? id' = some db) ∧ s' = s.putLogical (db.upgrade c))) ∨
    (ControlPlane.BindingOutcome.isCreated outcome = true ∧
      ∃ a target applied, s.address r = .ok a ∧ s.existing? r.dbType a.classifier = none ∧
        (∃ id', s.physical? id' = some target) ∧
        outcome = .resolved (.make id now r.dbType a target) true a.redirected applied ∧
        s' = (s.create now id r.dbType a target).2) := by
  cases h with
  | refused haddress =>
    refine Or.inl ⟨?_, Or.inl rfl⟩
    rcases refusal_of_address haddress with ⟨_, rfl⟩ | ⟨_, _, rfl⟩ <;> rfl
  | @found a db _ _ =>
    refine Or.inl ⟨?_, Or.inl rfl⟩
    rcases bound_cases r db a.redirected with heq | heq <;> rw [heq] <;> rfl
  | @upgraded a legacy db haddress hmissing hlegacy hfound =>
    obtain ⟨id', -, hdb⟩ := findLogical?_eq_some_iff.mp hfound
    refine Or.inl ⟨?_, Or.inr ⟨_, _, ⟨id', hdb⟩, rfl⟩⟩
    rcases bound_cases r (db.upgrade a.classifier) a.redirected with heq | heq <;> rw [heq] <;> rfl
  | unplaced haddress hmissing hplace =>
    obtain rfl := noAdapter_of_placeFor hplace
    exact Or.inl ⟨rfl, Or.inl rfl⟩
  | created haddress hmissing hplace =>
    exact Or.inr ⟨rfl, _, _, _, haddress, hmissing, physical?_of_placeFor hplace, rfl, rfl⟩

/-- Dropping a database stores it archived. -/
theorem markForDrop_eq_ok {s s' : Store} {id : String} {out : LogicalDatabase} (h : s.markForDrop id = .ok (out, s')) :
    ∃ db, s.logical? id = some db ∧ s' = s.putLogical { db with markedForDrop := true } := by
  unfold markForDrop getLogical at h
  cases hdb : s.logical? id with
  | none =>
    rw [hdb] at h
    cases h
  | some db =>
    rw [hdb] at h
    cases h
    exact ⟨db, rfl, rfl⟩

/-! ## Handshakes -/

/-- A declaration that passes keeps the type of its id and takes no other physical database's address. -/
theorem checkIdentity_eq_ok {s : Store} {id dbType : String} {r : Registration} (h : s.checkIdentity id dbType r = .ok ()) :
    (∀ p, s.physical? id = some p → p.dbType = dbType) ∧
      ∀ p ∈ s.physicalList, p.id ≠ id → p.adapterAddress ≠ r.adapterAddress := by
  unfold checkIdentity at h
  split at h
  · cases h
  · rename_i htype
    split at h
    · cases h
    · rename_i haddress
      refine ⟨fun p hp => ?_, fun p hp hne heq => ?_⟩
      · simpa [hp] using htype
      · have := List.find?_eq_none.mp haddress p hp
        simp [hne, heq] at this

/-- What a decision comes to: a first registration, the declaration that is registered already, a declaration in place of the
one before, or a migration that goes on or begins. -/
inductive Decided (s : Store) (now : UInt64) (instructionId : String) (size : Nat) (id dbType : String) (r : Registration) :
    RegistrationOutcome → Store → Prop where
  | created (hnew : s.physical? id = none) :
      Decided s now instructionId size id dbType r (s.registerNew now id dbType r).1 (s.registerNew now id dbType r).2
  | kept {current : PhysicalDatabase} (hstored : s.physical? id = some current) (hagrees : current.agreesWith r = true) :
      Decided s now instructionId size id dbType r (.unchanged current) (s.keepRegistered current).2
  | updated {current : PhysicalDatabase} {s₁ : Store} (hstored : s.physical? id = some current)
      (hdiffers : current.agreesWith r = false)
      (hdirect : current.metadata.roleSet ≠ (current.declare now r).metadata.roleSet →
        (current.declare now r).metadata.supportsMultiusers = true →
        s.needsOn (current.declare now r).id (current.declare now r).metadata.roleSet = [])
      (hbefore : s₁ = s ∨ s₁ = s.discardMigration (current.declare now r).id) :
      Decided s now instructionId size id dbType r (.updated (current.declare now r))
        (s₁.updateInPlace (current.declare now r)).2
  | resumed {current : PhysicalDatabase} {live : Instruction} (hstored : s.physical? id = some current)
      (hdiffers : current.agreesWith r = false)
      (hroles : current.metadata.roleSet ≠ (current.declare now r).metadata.roleSet)
      (hmultiusers : (current.declare now r).metadata.supportsMultiusers = true)
      (hlive : s.instructionFor? (current.declare now r).id = some live)
      (hsame : live.target.metadata.roleSet = (current.declare now r).metadata.roleSet)
      {i : Instruction} (hi : i = live.retarget now (current.declare now r))
      {outcome : RegistrationOutcome} {s' : Store} (hissue : (s.putInstruction i).issue now size i true = (outcome, s')) :
      Decided s now instructionId size id dbType r outcome s'
  | begun {current : PhysicalDatabase} (hstored : s.physical? id = some current)
      (hdiffers : current.agreesWith r = false)
      (hroles : current.metadata.roleSet ≠ (current.declare now r).metadata.roleSet)
      (hmultiusers : (current.declare now r).metadata.supportsMultiusers = true)
      (hneeds : s.needsOn (current.declare now r).id (current.declare now r).metadata.roleSet ≠ [])
      {i : Instruction} (hi : i = .onto instructionId now (current.declare now r)
        (s.needsOn (current.declare now r).id (current.declare now r).metadata.roleSet))
      {outcome : RegistrationOutcome} {s' : Store}
      (hissue : ((s.discardMigration (current.declare now r).id).putInstruction i).issue now size i false = (outcome, s')) :
      Decided s now instructionId size id dbType r outcome s'

/-- Discarding a migration takes nothing from what databases need. -/
theorem needsOn_discardMigration (s : Store) (id physicalDatabaseId : String) (required : List String) :
    (s.discardMigration id).needsOn physicalDatabaseId required = s.needsOn physicalDatabaseId required := by
  obtain ⟨_, _, h⟩ := s.discardMigration_eq id
  rw [h]
  rfl

/-- A decision that does not fail is about an identity that passes, and ends in one of the cases. -/
theorem decided_of_decide {s s' : Store} {now : UInt64} {instructionId : String} {size : Nat} {id dbType : String}
    {r : Registration} {outcome : RegistrationOutcome}
    (h : s.decide now instructionId size id dbType r = .ok (outcome, s')) :
    s.checkIdentity id dbType r = .ok () ∧ s.Decided now instructionId size id dbType r outcome s' := by
  simp only [decide, bind, Except.bind] at h
  split at h
  · cases h
  · rename_i u hidentity
    refine ⟨hidentity, ?_⟩
    split at h
    · rename_i hnew
      cases h
      exact .created hnew
    · rename_i current hstored
      split at h
      · rename_i hagrees
        cases h
        exact .kept hstored hagrees
      · rename_i hagrees
        have hdiffers : current.agreesWith r = false := by simpa using hagrees
        split at h
        · rename_i hmigrate
          unfold startMigration at h
          dsimp only at h
          split at h
          · rename_i hstart
            split at hstart
            · rename_i live hlive
              obtain ⟨hlive, hsame⟩ := Option.filter_eq_some_iff.mp hlive
              cases hstart
              exact .resumed hstored hdiffers hmigrate.1 hmigrate.2 hlive (by simpa using hsame) rfl (Except.ok.inj h)
            · split at hstart
              · cases hstart
              · rename_i hneeds
                rw [needsOn_discardMigration] at hneeds hstart
                cases hstart
                exact .begun hstored hdiffers hmigrate.1 hmigrate.2 hneeds rfl (Except.ok.inj h)
          · rename_i hstart
            split at hstart
            · cases hstart
            · split at hstart
              · rename_i hneeds
                rw [needsOn_discardMigration] at hneeds
                cases hstart
                cases h
                exact .updated hstored hdiffers (fun _ _ => hneeds) (Or.inr rfl)
              · cases hstart
        · rename_i hdirect
          cases h
          exact .updated hstored hdiffers (fun hroles hmultiusers => absurd ⟨hroles, hmultiusers⟩ hdirect) (Or.inl rfl)

/-! ## Acknowledgements and portions -/

/-- What an acknowledgement comes to: the instruction is not the physical database's, the migration fails, or what the adapter
made is recorded and the migration goes on. -/
inductive Acknowledged (s : Store) (now : UInt64) (size : Nat) (physicalDatabaseId instructionId : String)
    (ack : Acknowledgement) : Except RegistryError MigrationStep → Store → Prop where
  | unknown (hunknown : ∀ i, s.instruction? instructionId = some i → i.physicalDatabaseId ≠ physicalDatabaseId) :
      Acknowledged s now size physicalDatabaseId instructionId ack
        (.error (.notFound (.instructionOf instructionId physicalDatabaseId))) s
  | failed {i : Instruction} {reason : MigrationFailure} (hlive : s.instruction? instructionId = some i)
      (hphysical : i.physicalDatabaseId = physicalDatabaseId)
      (hreason : (∃ f, ack.failure = some f ∧ reason = .reported f.message) ∨
        (ack.failure = none ∧ applySuccesses i s ack.successes = .error reason)) :
      Acknowledged s now size physicalDatabaseId instructionId ack (.error (.migrationFailed reason))
        (s.deleteInstruction instructionId)
  | applied {i i' : Instruction} {s₁ s' : Store} {step : MigrationStep} (hlive : s.instruction? instructionId = some i)
      (hphysical : i.physicalDatabaseId = physicalDatabaseId) (hfailure : ack.failure = none)
      (happly : applySuccesses i s ack.successes = .ok (i', s₁))
      (hadvance : s₁.advance now size { i' with currentPortion := none } = (step, s')) :
      Acknowledged s now size physicalDatabaseId instructionId ack (.ok step) s'

/-- An acknowledgement ends in one of the cases. -/
theorem acknowledged (s : Store) (now : UInt64) (size : Nat) (physicalDatabaseId instructionId : String)
    (ack : Acknowledgement) :
    s.Acknowledged now size physicalDatabaseId instructionId ack
      (s.acknowledge now size physicalDatabaseId instructionId ack).1
      (s.acknowledge now size physicalDatabaseId instructionId ack).2 := by
  unfold acknowledge
  split
  · rename_i hnone
    refine .unknown fun i hi => ?_
    simpa [hi] using hnone
  · rename_i i hsome
    obtain ⟨hlive, hphysical⟩ := Option.filter_eq_some_iff.mp hsome
    have hphysical : i.physicalDatabaseId = physicalDatabaseId := by simpa using hphysical
    cases hfailure : ack.failure with
    | some f => exact .failed hlive hphysical (Or.inl ⟨f, hfailure, rfl⟩)
    | none =>
      cases happly : applySuccesses i s ack.successes with
      | error reason => exact .failed hlive hphysical (Or.inr ⟨hfailure, happly⟩)
      | ok out => exact .applied hlive hphysical hfailure happly rfl

/-- A success that is recorded is about a pending database that is stored. -/
theorem applySuccess_eq_ok {i i' : Instruction} {s s' : Store} {done : Success}
    (h : applySuccess i s done = .ok (i', s')) :
    ∃ entry ∈ i.entries, ∃ db, entry.databaseId = done.databaseId ∧ s.logical? done.databaseId = some db ∧
      i' = i.removeEntry done.databaseId ∧ s' = s.putLogical (db.acknowledge entry done) := by
  unfold applySuccess at h
  split at h
  · cases h
  · rename_i entry hentry
    split at h
    · cases h
    · rename_i db hdb
      cases h
      have hnamed : entry.databaseId = done.databaseId := by simpa using List.find?_some hentry
      exact ⟨entry, List.mem_of_find?_eq_some hentry, db, hnamed, hdb, rfl, rfl⟩

/-- The successes of a list are recorded one after another. -/
theorem applySuccesses_cons (i : Instruction) (s : Store) (done : Success) (rest : List Success) :
    applySuccesses i s (done :: rest) =
      match applySuccess i s done with
      | .ok (i', s') => applySuccesses i' s' rest
      | .error reason => .error reason := by
  simp only [applySuccesses, List.foldlM_cons, bind, Except.bind]
  cases applySuccess i s done <;> rfl

/-- What each success keeps, a list of successes keeps. -/
theorem applySuccesses_invariant {P : Store → Prop}
    (hstep : ∀ s db entry done, P s → s.logical? done.databaseId = some db → P (s.putLogical (db.acknowledge entry done)))
    {done : List Success} {i i' : Instruction} {s s' : Store} (hs : P s) (h : applySuccesses i s done = .ok (i', s')) :
    P s' := by
  induction done generalizing i s with
  | nil =>
    cases h
    exact hs
  | cons d rest ih =>
    rw [applySuccesses_cons] at h
    split at h
    · rename_i i₁ s₁ hone
      obtain ⟨entry, -, db, -, hdb, rfl, rfl⟩ := applySuccess_eq_ok hone
      exact ih (hstep s db entry d hs hdb) h
    · cases h

/-- An instruction with entries left hands out its next portion. -/
theorem advance_of_pending {s : Store} {now : UInt64} {size : Nat} {i : Instruction} (h : i.entries ≠ []) :
    s.advance now size i =
      (.portion i.id (i.nextPortion size), s.putInstruction (i.handOut now (i.nextPortion size))) := by
  rw [advance, if_neg (by simpa using h)]

/-- An instruction without entries is completed. -/
theorem advance_of_done {s : Store} {now : UInt64} {size : Nat} {i : Instruction} (h : i.entries = []) :
    s.advance now size i =
      (.completed (s.completedTarget now i.target),
        (s.putPhysical (s.completedTarget now i.target)).deleteInstruction i.id) := by
  rw [advance, if_pos (by simpa using h)]

/-- A migration with entries left is issued as pending. -/
theorem issue_of_pending {s : Store} {now : UInt64} {size : Nat} {i : Instruction} (h : i.entries ≠ []) (resumed : Bool) :
    s.issue now size i resumed =
      (.migrationPending (i.handOut now (i.nextPortion size)).reread (i.nextPortion size) resumed,
        s.putInstruction (i.handOut now (i.nextPortion size))) := by
  simp only [issue, advance_of_pending h, putInstruction, instruction?]
  have hid : (i.handOut now (i.nextPortion size)).id = i.id := rfl
  rw [hid, KeyMap.get?_insert_self, Option.getD_some]

/-- Issuing a migration leaves what going on with it leaves. -/
theorem issue_eq {s s' : Store} {now : UInt64} {size : Nat} {i : Instruction} {resumed : Bool} {outcome : RegistrationOutcome}
    (h : s.issue now size i resumed = (outcome, s')) : ∃ step, s.advance now size i = (step, s') := by
  unfold issue at h
  split at h
  · rename_i hadvance
    cases h
    exact ⟨_, hadvance⟩
  · rename_i hadvance
    cases h
    exact ⟨_, hadvance⟩

/-- The next portion is handed out from an instruction that is stored. -/
theorem nextPortion_eq_ok {s s' : Store} {now : UInt64} {size : Nat} {instructionId : String} {step : MigrationStep}
    (h : s.nextPortion now size instructionId = .ok (step, s')) :
    ∃ i, s.instruction? instructionId = some i ∧ s.advance now size i = (step, s') := by
  unfold nextPortion at h
  split at h
  · rename_i i hi
    exact ⟨i, hi, Except.ok.inj h⟩
  · cases h

/-! ## The registry -/

/-- Taking the global flag away rewrites at most the physical database that had it. -/
theorem clearGlobal_cases (s : Store) (now : UInt64) (dbType id : String) :
    s.clearGlobal now dbType id = s ∨
      ∃ p, (∃ id', s.physical? id' = some p) ∧
        s.clearGlobal now dbType id = s.putPhysical { p with global := false, updatedAt := now } := by
  unfold clearGlobal
  split
  · rename_i p hp
    refine Or.inr ⟨p, ?_, rfl⟩
    exact (mem_physicalsOf_iff.mp (List.mem_of_find?_eq_some (Option.filter_eq_some_iff.mp hp).1)).1
  · exact Or.inl rfl

/-- A physical database that is made global is stored, and keeps all but its flag and its time. -/
theorem setGlobal_eq_ok {s s' : Store} {now : UInt64} {id : String} {out : PhysicalDatabase}
    (h : s.setGlobal now id = .ok (out, s')) :
    ∃ p, s.physical? id = some p ∧ s' = (s.clearGlobal now p.dbType id).putPhysical { p with global := true, updatedAt := now } := by
  unfold setGlobal getPhysical at h
  cases hp : s.physical? id with
  | none =>
    rw [hp] at h
    cases h
  | some p =>
    rw [hp] at h
    cases h
    exact ⟨p, rfl, rfl⟩

/-- A physical database that is deregistered is stored, not global and hosts nothing; its rules and its migration go with
it. -/
theorem deregister_eq_ok {s s' : Store} {id : String} {out : Nat} (h : s.deregister id = .ok (out, s')) :
    ∃ p, s.physical? id = some p ∧ p.global = false ∧ s.logicalsOn id = [] ∧
      s' = ((s.removeRulesTo id).2.discardMigration id).deletePhysical id := by
  simp only [deregister, getPhysical, bind, Except.bind] at h
  split at h
  · cases h
  · rename_i p hp
    split at h
    · cases h
    · rename_i hglobal
      split at h
      · cases h
      · rename_i hhosted
        cases h
        split at hp
        · rename_i p' hp'
          cases hp
          exact ⟨_, hp', by simpa using hglobal, by simpa using hhosted, rfl⟩
        · cases hp

/-- Of the physical databases only that one goes. -/
theorem physical?_of_deregister {s s' : Store} {id : String} {out : Nat} (h : s.deregister id = .ok (out, s')) (id' : String) :
    s'.physical? id' = if id = id' then none else s.physical? id' := by
  obtain ⟨p, -, -, -, rfl⟩ := deregister_eq_ok h
  obtain ⟨_, _, heq⟩ := (s.removeRulesTo id).2.discardMigration_eq id
  simp only [physical?, deletePhysical, heq, KeyMap.get?_erase, (s.sameButRules_removeRulesTo id).physicals]

end Store

end DatabaseBroker
