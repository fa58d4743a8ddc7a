import DatabaseBroker.Proofs.Registration.Meanwhile

/-!
# Where a declaration comes from

An adapter declares all of its fields at once, and a declaration travels through three places: the handshake, the target of a
migration, and the registry. What one operation does to the declaration of a physical database and to its migration is a
`Broker.Turn`: it stores the whole declaration of a handshake, or the whole target of a migration that is completed, or nothing.
Over a history, each registered declaration is that of one handshake (`Requested`), and a live migration leads to the declaration
of the last handshake that was answered with it (`Underway`), while the declaration that is registered stays what it was when the
migration began (`declarations_whole`).
-/

namespace DatabaseBroker

open Store

/-- What the adapter of a physical database declares. -/
def PhysicalDatabase.declaration (p : PhysicalDatabase) : Registration where
  adapterAddress := p.adapterAddress
  adapterId := p.adapterId
  labels := p.labels
  metadata := p.metadata
  status := p.status
  readOnlyHost := p.readOnlyHost

namespace Store

/-- The declaration that is registered under an id. -/
def declared? (s : Store) (id : String) : Option Registration := (s.physical? id).map (·.declaration)

/-- The live migration of a physical database: the name of its instruction, and its target. -/
def underway? (s : Store) (id : String) : Option (String × PhysicalDatabase) :=
  (s.instructionFor? id).map fun i => (i.id, i.target)

variable {s s' : Store} {id name : String} {now : UInt64} {size : Nat} {h : Handshake}

/-- An instruction that was looked for was found, and names the physical database and leads to the target. -/
def Leads (found : Option Instruction) (id : String) (target : PhysicalDatabase) : Prop :=
  ∃ i, found = some i ∧ i.physicalDatabaseId = id ∧ i.target = target

@[simp]
theorem leads_some_iff {i : Instruction} {id : String} {target : PhysicalDatabase} :
    Leads (some i) id target ↔ i.physicalDatabaseId = id ∧ i.target = target := by
  simp [Leads]

@[simp]
theorem not_leads_none {id : String} {target : PhysicalDatabase} : ¬ Leads none id target := by
  simp [Leads]

/-- What is underway is an instruction that names the physical database. -/
theorem Tabled.underway?_eq_some_iff (htabled : s.Tabled) {target : PhysicalDatabase} :
    s.underway? id = some (name, target) ↔ Leads (s.instruction? name) id target := by
  simp only [underway?, Option.map_eq_some_iff, Prod.mk.injEq, htabled.instructionFor?_eq_some_iff]
  constructor
  · rintro ⟨i, ⟨hi, hp⟩, rfl, htarget⟩
    exact ⟨i, hi, hp, htarget⟩
  · rintro ⟨i, hi, hp, htarget⟩
    have hid : i.id = name := htabled.instruction_id _ _ hi
    exact ⟨i, ⟨hid ▸ hi, hp⟩, hid, htarget⟩

/-- Nothing is underway when no instruction names the physical database. -/
theorem Tabled.underway?_eq_none (htabled : s.Tabled)
    (hnone : ∀ name i, s.instruction? name = some i → i.physicalDatabaseId ≠ id) : s.underway? id = none := by
  refine Option.eq_none_iff_forall_ne_some.mpr fun ⟨name, target⟩ hunderway => ?_
  obtain ⟨i, hi, hp, -⟩ := htabled.underway?_eq_some_iff.mp hunderway
  exact hnone name i hi hp

/-- The same is underway where the instructions that name the physical database are the same, by name and target. -/
theorem Tabled.underway?_congr (htabled : s.Tabled) (htabled' : s'.Tabled)
    (hsame : ∀ name target, Leads (s'.instruction? name) id target ↔ Leads (s.instruction? name) id target) :
    s'.underway? id = s.underway? id := by
  refine Option.ext fun ⟨name, target⟩ => ?_
  rw [htabled.underway?_eq_some_iff, htabled'.underway?_eq_some_iff, hsame]

end Store

/-- An instruction that no handshake concerns and that does not end is of the same physical database and leads to the same
target; and one that is of another physical database is no matter. -/
theorem Instruction.Fate.leads_iff {s : Store} {size : Nat} {now : UInt64} {name' name id : String}
    {found found' : Option Instruction} {op : Operation} (hfate : Fate s size now name' name found op found')
    (htabled : s.Tabled) (hdecide : ∀ h, op = .decide h → h.id ≠ id) (hderegister : op ≠ .deregister id)
    (hlasts : ∀ ack, op = .acknowledge id name ack → found'.isSome = true) (target : PhysicalDatabase) :
    Leads found' id target ↔ Leads found id target := by
  -- Neither side holds of an instruction that names another physical database.
  have hother : ∀ {i : Instruction}, i.physicalDatabaseId ≠ id → ¬ Leads (some i) id target :=
    fun hne hleads => hne (leads_some_iff.mp hleads).1
  have hsame : ∀ {i j : Instruction}, j.physicalDatabaseId = i.physicalDatabaseId → j.target = i.target →
      (Leads (some j) id target ↔ Leads (some i) id target) := by
    intro i j hp ht
    rw [leads_some_iff, leads_some_iff, hp, ht]
  cases hfate with
  | kept => exact Iff.rfl
  | begun _ hp =>
    exact iff_of_false (hother fun h => hdecide _ rfl ((htabled.physical_id _ _ hp).symm.trans h)) not_leads_none
  | resumed hid =>
    have hne := fun h => hdecide _ rfl (hid.trans h)
    exact iff_of_false (hother hne) (hother hne)
  | superseded hid => exact iff_of_false not_leads_none (hother fun h => hdecide _ rfl (hid.trans h))
  | joined => exact hsame rfl rfl
  | continued => exact hsame rfl rfl
  | advanced hj =>
    subst hj
    exact hsame rfl rfl
  | @ended i ack =>
    refine iff_of_false not_leads_none (hother fun h => ?_)
    subst h
    cases hlasts ack rfl
  | deregistered => exact iff_of_false not_leads_none (hother fun h => hderegister (congrArg _ h))

/-- Once the one instruction of a physical database is gone, no migration of it is underway. -/
theorem Store.MigrationsSound.underway?_of_erased {s s' : Store} (hsound : s.MigrationsSound) (htabled : s'.Tabled)
    {name : String} {i : Instruction} (hi : s.instruction? name = some i)
    (hleft : ∀ other, s'.instruction? other = if name = other then none else s.instruction? other) :
    s'.underway? i.physicalDatabaseId = none := by
  refine htabled.underway?_eq_none fun other j hj hp => ?_
  rw [hleft] at hj
  split at hj
  · cases hj
  · rename_i hne
    exact hne (hsound.tabled.instruction_unique hi hj hp.symm).1

/-! ## Decisions -/

namespace Store

variable {s s' : Store} {id name : String} {now : UInt64} {size : Nat} {h : Handshake}

/-- What the answer to a handshake says of the registry and of the migration. -/
structure Reply (s : Store) (name : String) (h : Handshake) (outcome : RegistrationOutcome) (s' : Store) : Prop where
  /-- What is registered anew, or in place of another declaration, is the declaration of the handshake. -/
  stored : ∀ p, outcome = .created p ∨ outcome = .updated p → p.declaration = h.registration
  /-- A declaration that is found registered leaves the registry alone. -/
  unchanged : ∀ p, outcome = .unchanged p → s'.physicals = s.physicals
  /-- So does a migration, of which the declaration is the target from then on. Its instruction was live for the physical database,
  or has the new name. -/
  pending : ∀ i portion resumed, outcome = .migrationPending i portion resumed →
    s'.physicals = s.physicals ∧ Leads (s'.instruction? i.id) h.id i.target ∧ i.target.declaration = h.registration ∧
      ((∃ target, Leads (s.instruction? i.id) h.id target) ∨ i.id = name)
  available : ∀ reason, outcome ≠ .adapterUnavailable reason

/-- Each answer that is given to a handshake says so. -/
theorem MigrationsSound.reply_of_decide (hsound : s.MigrationsSound) {outcome : RegistrationOutcome}
    (hok : s.decide now name size h.id h.dbType h.registration = .ok (outcome, s')) : s.Reply name h outcome s' := by
  -- A migration that is answered is stored as it is answered.
  have hpending : ∀ {s₁ : Store} {j : Instruction} {portion : List AdditionalRoles} {resumed : Bool},
      s₁.physicals = s.physicals → j.physicalDatabaseId = h.id → j.target.declaration = h.registration →
      ((∃ target, Leads (s.instruction? j.id) h.id target) ∨ j.id = name) →
      s.Reply name h (.migrationPending j.reread portion resumed) (s₁.putInstruction j) := by
    intro s₁ j portion resumed hs hp hdeclared hname
    refine ⟨by rintro _ (⟨⟨⟩⟩ | ⟨⟨⟩⟩), by rintro _ ⟨⟩, ?_, by rintro _ ⟨⟩⟩
    rintro _ _ _ ⟨⟩
    refine ⟨hs, ?_, hdeclared, hname⟩
    rw [instruction?_putInstruction, if_pos (by rfl)]
    exact leads_some_iff.mpr ⟨hp, rfl⟩
  obtain ⟨-, hanswered⟩ := hsound.answered_of_decide hok
  cases hanswered with
  | created =>
    refine ⟨?_, by rintro _ ⟨⟩, by rintro _ _ _ ⟨⟩, by rintro _ ⟨⟩⟩
    rintro p (⟨⟨⟩⟩ | ⟨⟨⟩⟩)
    rfl
  | @kept current =>
    refine ⟨by rintro _ (⟨⟨⟩⟩ | ⟨⟨⟩⟩), fun _ _ => ?_, by rintro _ _ _ ⟨⟩, by rintro _ ⟨⟩⟩
    simp only [keepRegistered]
    split
    · obtain ⟨_, heq⟩ := s.deleteInstruction_eq _
      rw [heq]
    · rfl
  | updated =>
    refine ⟨?_, by rintro _ ⟨⟩, by rintro _ _ _ ⟨⟩, by rintro _ ⟨⟩⟩
    rintro p (⟨⟨⟩⟩ | ⟨⟨⟩⟩)
    rfl
  | @resumed current live j hstored hroles hmultiusers hlive hnamed hsame hj =>
    subst hj
    exact hpending rfl hnamed rfl (Or.inl ⟨live.target, live, hlive, hnamed, rfl⟩)
  | @begun current entries j hstored hroles hmultiusers hneeds hentries hj =>
    obtain ⟨_, _, heq⟩ := s.discardMigration_eq h.id
    subst hj
    exact hpending (by rw [heq]) (hsound.tabled.physical_id h.id current hstored) rfl (Or.inr rfl)

end Store

/-! ## One operation -/

namespace Broker

/-- The handshake that an operation decides, when it is answered that a migration is pending. -/
def pends (env : Surroundings) (b : Broker) (now : UInt64) : Operation → Option Handshake
  | .decide h =>
    if h ∈ b.awaiting then
      match b.store.decide now (env.instructionName b.names.instructions) env.portionSize h.id h.dbType h.registration with
      | .ok (.migrationPending _ _ _, _) => some h
      | _ => none
    else none
  | _ => none

/-- What an operation at a time does to the declaration of a physical database and to its migration. -/
inductive Turn (env : Surroundings) (b : Broker) (now : UInt64) (id : String) (op : Operation) (b' : Broker) : Prop where
  | stays (hquiet : ∀ h, b.pends env now op = some h → h.id ≠ id)
      (hdeclared : b'.store.declared? id = b.store.declared? id) (hunderway : b'.store.underway? id = b.store.underway? id)
  /-- A handshake registers its declaration, or puts it in place of the one before; a live migration is over. -/
  | stored {h : Handshake} (hop : op = .decide h) (hid : h.id = id) (hawaiting : h ∈ b.awaiting)
      (hdeclared : b'.store.declared? id = some h.registration) (hunderway : b'.store.underway? id = none)
  /-- A handshake finds its declaration registered; a live migration is abandoned. -/
  | confirmed {h : Handshake} (hop : op = .decide h) (hid : h.id = id) (hawaiting : h ∈ b.awaiting)
      (hdeclared : b'.store.declared? id = b.store.declared? id) (hunderway : b'.store.underway? id = none)
  /-- The declaration of a handshake is the target of a migration that goes on or begins. -/
  | pending {h : Handshake} {name : String} {target : PhysicalDatabase} (hpends : b.pends env now op = some h) (hid : h.id = id)
      (hdeclared : b'.store.declared? id = b.store.declared? id) (hunderway : b'.store.underway? id = some (name, target))
      (htarget : target.declaration = h.registration)
      (hname : (∃ before, b.store.underway? id = some (name, before)) ∨ b.store.instruction? name = none)
  /-- The migration fails. -/
  | failed {name : String} {ack : Acknowledgement} {reason : MigrationFailure} (hop : op = .acknowledge id name ack)
      (hanswer : (b.store.acknowledge now env.portionSize id name ack).1 = .error (.migrationFailed reason))
      (hdeclared : b'.store.declared? id = b.store.declared? id) (hunderway : b'.store.underway? id = none)
  /-- The target takes the place of the physical database. -/
  | completed {p target : PhysicalDatabase} {name : String} (hp : b.store.physical? id = some p)
      (hlive : b.store.underway? id = some (name, target))
      (hcompletes : b.completes env now op =
        some { target with global := p.global, registeredAt := p.registeredAt, updatedAt := now })
      (hstored : b'.store.physical? id =
        some { target with global := p.global, registeredAt := p.registeredAt, updatedAt := now })
      (hunderway : b'.store.underway? id = none)
  | deregistered (hop : op = .deregister id) (hdeclared : b'.store.declared? id = none)
      (hunderway : b'.store.underway? id = none)

variable {env : Surroundings} {b : Broker} {now : UInt64} {id : String} {op : Operation} {h : Handshake}

/-- Such a handshake awaited its decision. -/
theorem pends_eq_some (hpends : b.pends env now op = some h) : op = .decide h ∧ h ∈ b.awaiting := by
  unfold pends at hpends
  split at hpends
  · split at hpends
    · rename_i hawaiting
      split at hpends
      · cases hpends
        exact ⟨rfl, hawaiting⟩
      · cases hpends
    · cases hpends
  · cases hpends

/-- What neither decides a handshake of the physical database, nor deregisters it, nor ends its migration changes nothing of its
declaration and of its migration. -/
theorem Turn.of_fates (hconsistent : b.Consistent env) (hdecide : ∀ h, op = .decide h → h.id ≠ id)
    (hderegister : op ≠ .deregister id)
    (hlasts : ∀ name ack, op = .acknowledge id name ack →
      (b.run env now op).store.declared? id = b.store.declared? id ∧
        ((b.run env now op).store.instruction? name).isSome = true) :
    b.Turn env now id op (b.run env now op) := by
  have heffect := b.effect env now op
  have htabled := hconsistent.migrations.tabled
  refine .stays (fun h hpends => hdecide h (pends_eq_some hpends).1) ?_ ?_
  · have hfate := heffect.physical_fate hconsistent id
    unfold declared?
    generalize hfound : b.store.physical? id = found, hfound' : (b.run env now op).store.physical? id = found' at hfate
    cases hfate with
    | kept => rfl
    | registered hid => exact absurd hid (hdecide _ rfl)
    | declared hid => exact absurd hid (hdecide _ rfl)
    | flagged => rfl
    | completed =>
      have hsame := (hlasts _ _ rfl).1
      rwa [declared?, declared?, hfound, hfound'] at hsame
    | deregistered => exact absurd rfl hderegister
  · exact htabled.underway?_congr (hconsistent.effect heffect).migrations.tabled fun name =>
      (heffect.instruction_fate hconsistent name).leads_iff htabled hdecide hderegister fun ack hop => (hlasts name ack hop).2

/-- A decision that is taken is a turn of the physical database that it is about: as it is answered. -/
theorem turn_of_decided (hconsistent : b.Consistent env) (hawaiting : h ∈ b.awaiting) {outcome : RegistrationOutcome} {s' : Store}
    (hok : b.store.decide now (env.instructionName b.names.instructions) env.portionSize h.id h.dbType h.registration =
      .ok (outcome, s')) : b.Turn env now h.id (.decide h) (b.run env now (.decide h)) := by
  have hsound := hconsistent.migrations
  have htabled' := (hconsistent.effect (b.effect env now (.decide h))).migrations.tabled
  have hreply := hsound.reply_of_decide hok
  have hstore : (b.run env now (.decide h)).store = s' := store_run_decide hawaiting hok
  rw [← hstore] at hreply
  have hsettled : ∀ p, outcome = .created p ∨ outcome = .updated p ∨ outcome = .unchanged p →
      (b.run env now (.decide h)).store.underway? h.id = none ∧
        (b.run env now (.decide h)).store.physical? h.id = some p := by
    intro p houtcome
    obtain ⟨hsettled, hp⟩ := hsound.settled_of_decide hok houtcome
    rw [← hstore] at hsettled hp
    exact ⟨htabled'.underway?_eq_none hsettled.unmigrated, hp⟩
  have hstored : ∀ p, outcome = .created p ∨ outcome = .updated p →
      b.Turn env now h.id (.decide h) (b.run env now (.decide h)) := by
    intro p houtcome
    obtain ⟨hunderway, hp⟩ := hsettled p (houtcome.imp_right Or.inl)
    refine .stored rfl rfl hawaiting ?_ hunderway
    rw [declared?, hp, Option.map_some, hreply.stored p houtcome]
  have hsame : (b.run env now (.decide h)).store.physicals = b.store.physicals →
      (b.run env now (.decide h)).store.declared? h.id = b.store.declared? h.id := by
    intro hphysicals
    rw [declared?, declared?, physical?, physical?, hphysicals]
  cases outcome with
  | created p => exact hstored p (Or.inl rfl)
  | updated p => exact hstored p (Or.inr rfl)
  | unchanged p =>
    exact .confirmed rfl rfl hawaiting (hsame (hreply.unchanged p rfl)) (hsettled p (Or.inr (Or.inr rfl))).1
  | migrationPending i portion resumed =>
    obtain ⟨hphysicals, hleads, hdeclared, hname⟩ := hreply.pending i portion resumed rfl
    have hpends : b.pends env now (.decide h) = some h := by simp only [pends, if_pos hawaiting, hok]
    refine .pending hpends rfl (hsame hphysicals) (htabled'.underway?_eq_some_iff.mpr hleads) hdeclared ?_
    rcases hname with ⟨target, hlive⟩ | hnew
    · exact Or.inl ⟨target, hsound.tabled.underway?_eq_some_iff.mpr hlive⟩
    · exact Or.inr (hnew ▸ hconsistent.named.instruction?_next)
  | adapterUnavailable reason => exact absurd rfl (hreply.available reason)

/-- A decision is a turn: of the physical database that it is about if it is taken, and otherwise of none. -/
theorem turn_decide (hconsistent : b.Consistent env) (h : Handshake) :
    b.Turn env now id (.decide h) (b.run env now (.decide h)) := by
  by_cases hid : h.id = id
  swap
  · exact .of_fates hconsistent (by rintro _ ⟨⟩; exact hid) (by rintro ⟨⟩) (by rintro _ _ ⟨⟩)
  subst hid
  by_cases hawaiting : h ∈ b.awaiting
  swap
  · have hrun : b.run env now (.decide h) = b := if_neg hawaiting
    have hpends : b.pends env now (.decide h) = none := if_neg hawaiting
    rw [hrun]
    exact .stays (by rw [hpends]; rintro _ ⟨⟩) rfl rfl
  cases hok : b.store.decide now (env.instructionName b.names.instructions) env.portionSize h.id h.dbType h.registration with
  | error e =>
    have hstore : (b.run env now (.decide h)).store = b.store := by
      simp only [Broker.run, Broker.decide, if_pos hawaiting, hok]
    have hpends : b.pends env now (.decide h) = none := by simp only [pends, if_pos hawaiting, hok]
    exact .stays (by rw [hpends]; rintro _ ⟨⟩) (by rw [hstore]) (by rw [hstore])
  | ok out => exact turn_of_decided hconsistent hawaiting hok

/-- An acknowledgement is a turn: it ends the migration, with its target in place or without a trace, or leaves it underway. -/
theorem turn_acknowledge (hconsistent : b.Consistent env) (physicalDatabaseId instructionId : String) (ack : Acknowledgement) :
    b.Turn env now id (.acknowledge physicalDatabaseId instructionId ack)
      (b.run env now (.acknowledge physicalDatabaseId instructionId ack)) := by
  have hsound := hconsistent.migrations
  have htabled' :=
    (hconsistent.effect (b.effect env now (.acknowledge physicalDatabaseId instructionId ack))).migrations.tabled
  have hcase := b.store.acknowledged now env.portionSize physicalDatabaseId instructionId ack
  have hstore : (b.run env now (.acknowledge physicalDatabaseId instructionId ack)).store =
      (b.store.acknowledge now env.portionSize physicalDatabaseId instructionId ack).2 := rfl
  by_cases hid : physicalDatabaseId = id
  swap
  · exact .of_fates hconsistent (by rintro _ ⟨⟩) (by rintro ⟨⟩) (by rintro _ _ ⟨⟩; exact absurd rfl hid)
  subst hid
  generalize hanswer : (b.store.acknowledge now env.portionSize physicalDatabaseId instructionId ack).1 = answer,
    hs : (b.store.acknowledge now env.portionSize physicalDatabaseId instructionId ack).2 = s' at hcase
  rw [hs] at hstore
  cases hcase with
  | unknown => exact .stays (by rintro _ ⟨⟩) (by rw [hstore]) (by rw [hstore])
  | failed hlive hphysical hreason =>
    refine .failed rfl hanswer ?_ (hphysical ▸ hsound.underway?_of_erased htabled' hlive fun name => ?_)
    · obtain ⟨_, heq⟩ := b.store.deleteInstruction_eq instructionId
      rw [declared?, physical?, hstore, heq]
      rfl
    · rw [hstore, instruction?_deleteInstruction]
  | @applied i i' s₁ s' step hlive hphysical hfailure happly hadvance =>
    obtain rfl : i.id = instructionId := hsound.tabled.instruction_id _ _ hlive
    have hadvanced := hsound.advanced hlive happly hadvance
    by_cases hentries : (i.without (ack.successes.map (·.databaseId))).entries = []
    · obtain ⟨current, target, hcurrent, htarget, rfl, hphysicals, hinstructions, -⟩ := hadvanced.completed hentries
      subst hphysical
      refine .completed hcurrent (hsound.tabled.underway?_eq_some_iff.mpr ⟨i, hlive, rfl, rfl⟩) ?_ ?_
        (hsound.underway?_of_erased htabled' hlive fun name => ?_)
      · simp only [completes, hanswer, htarget]
      · rw [physical?, hstore, hphysicals, KeyMap.get?_insert_self, htarget]
      · rw [instruction?, hstore, hinstructions, KeyMap.get?_erase]
        rfl
    · obtain ⟨-, hphysicals, hinstructions, -⟩ := hadvanced.pending _ rfl hentries
      refine .of_fates hconsistent (by rintro _ ⟨⟩) (by rintro ⟨⟩) ?_
      rintro name ack' ⟨⟩
      refine ⟨by rw [declared?, physical?, hstore, hphysicals]; rfl, ?_⟩
      rw [instruction?, hstore, hinstructions, KeyMap.get?_insert_self]
      rfl

/-- A deregistration is a turn of the physical database that goes away, and of no other one. -/
theorem turn_deregister (hconsistent : b.Consistent env) (id' : String) :
    b.Turn env now id (.deregister id') (b.run env now (.deregister id')) := by
  have hconsistent' := hconsistent.effect (b.effect env now (.deregister id'))
  by_cases hid : id' = id
  swap
  · exact .of_fates hconsistent (by rintro _ ⟨⟩) (fun hop => hid (Operation.deregister.inj hop)) (by rintro _ _ ⟨⟩)
  subst hid
  cases hok : b.store.deregister id' with
  | error e =>
    have hrun : b.run env now (.deregister id') = b := by simp only [Broker.run, Broker.keep, hok]
    rw [hrun]
    exact .stays (by rintro _ ⟨⟩) rfl rfl
  | ok out =>
    have hgone : (b.run env now (.deregister id')).store.physical? id' = none := by
      simp only [Broker.run, Broker.keep, hok]
      exact (physical?_of_deregister hok id').trans (if_pos rfl)
    refine .deregistered rfl (by rw [declared?, hgone]; rfl) ?_
    refine hconsistent'.migrations.tabled.underway?_eq_none fun name i hi hp => ?_
    obtain ⟨q, hq, -⟩ := (hconsistent'.migrations.sound _ name i hi rfl).fits.registered
    rw [hp, hgone] at hq
    cases hq

/-- Each operation is a turn of each physical database. -/
theorem turn (hconsistent : b.Consistent env) (now : UInt64) (op : Operation) (id : String) :
    b.Turn env now id op (b.run env now op) := by
  cases op with
  | decide h => exact turn_decide hconsistent h
  | acknowledge physicalDatabaseId instructionId ack => exact turn_acknowledge hconsistent physicalDatabaseId instructionId ack
  | deregister id' => exact turn_deregister hconsistent id'
  | _ => exact .of_fates hconsistent nofun nofun nofun

end Broker

/-! ## A history -/

/-- A declaration is that of a handshake with an id that was decided at some point of a history, after its adapter had answered. -/
def Requested (env : Surroundings) (events : List Event) (id : String) (r : Registration) : Prop :=
  ∃ before e after h, events = before ++ e :: after ∧ e.operation = .decide h ∧ h ∈ (replay env before).awaiting ∧
    h.id = id ∧ h.registration = r

/-- Where the migration of a physical database comes from that is underway after a history. -/
structure Underway (env : Surroundings) (events : List Event) (id name : String) (target : PhysicalDatabase) : Prop where
  /-- An event began it. At each point since then it has been underway, and what is registered is what was before. -/
  begun : ∃ before e after, events = before ++ e :: after ∧ (replay env before).store.instruction? name = none ∧
    ∀ mid rest, after = mid ++ rest →
      (replay env (before ++ e :: mid)).store.declared? id = (replay env before).store.declared? id ∧
      ∃ target, (replay env (before ++ e :: mid)).store.underway? id = some (name, target)
  /-- Its target declares what the handshake declared that was the last one to be answered with a migration of the physical
  database. -/
  latest : ∃ before e after h, events = before ++ e :: after ∧ (replay env before).pends env e.time e.operation = some h ∧
    h.id = id ∧ target.declaration = h.registration ∧
    ∀ mid e' rest, after = mid ++ e' :: rest → ∀ h',
      (replay env (before ++ e :: mid)).pends env e'.time e'.operation = some h' → h'.id ≠ id

variable {env : Surroundings} {events : List Event} {id name : String} {r : Registration} {target : PhysicalDatabase}

/-- A list that goes on by one is taken apart at its last element, or before it. -/
theorem snoc_eq_append_cons {α : Type} {l mid rest : List α} {a b : α} (h : l ++ [a] = mid ++ b :: rest) :
    (mid = l ∧ b = a ∧ rest = []) ∨ ∃ rest', rest = rest' ++ [a] ∧ l = mid ++ b :: rest' := by
  rcases List.eq_nil_or_concat rest with rfl | ⟨rest', c, rfl⟩
  · obtain ⟨rfl, hb⟩ := List.append_inj' h rfl
    exact Or.inl ⟨rfl, (List.cons.inj hb).1.symm, rfl⟩
  · have hsplit : l ++ [a] = (mid ++ b :: rest') ++ [c] := by simpa using h
    obtain ⟨rfl, hc⟩ := List.append_inj' hsplit rfl
    obtain rfl := (List.cons.inj hc).1
    exact Or.inr ⟨rest', by simp, rfl⟩

/-- A history that goes on by one event is split there, or where it was split before. -/
theorem replay_snoc (env : Surroundings) (events : List Event) (e : Event) :
    replay env (events ++ [e]) = (replay env events).run env e.time e.operation := by
  rw [replay_append]
  rfl

/-- A handshake that was decided stays so. -/
theorem Requested.snoc (h : Requested env events id r) (e : Event) : Requested env (events ++ [e]) id r := by
  obtain ⟨before, e', after, handshake, rfl, hrest⟩ := h
  exact ⟨before, e', after ++ [e], handshake, by simp, hrest⟩

/-- A handshake that is answered with a migration was decided. -/
theorem Underway.requested (h : Underway env events id name target) : Requested env events id target.declaration := by
  obtain ⟨before, e, after, handshake, hevents, hpends, hid, htarget, -⟩ := h.latest
  obtain ⟨hop, hawaiting⟩ := Broker.pends_eq_some hpends
  exact ⟨before, e, after, handshake, hevents, hop, hawaiting, hid, htarget.symm⟩

/-- What began a migration is the same after one more event, when the migration is underway then and what is registered stays. -/
theorem Underway.begun_snoc (h : Underway env events id name target) {e : Event}
    (hdeclared : (replay env (events ++ [e])).store.declared? id = (replay env events).store.declared? id)
    (hunderway : ∃ target', (replay env (events ++ [e])).store.underway? id = some (name, target')) :
    ∃ before e' after, events ++ [e] = before ++ e' :: after ∧ (replay env before).store.instruction? name = none ∧
      ∀ mid rest, after = mid ++ rest →
        (replay env (before ++ e' :: mid)).store.declared? id = (replay env before).store.declared? id ∧
        ∃ target, (replay env (before ++ e' :: mid)).store.underway? id = some (name, target) := by
  obtain ⟨before, e', after, rfl, hnew, hsince⟩ := h.begun
  refine ⟨before, e', after ++ [e], by simp, hnew, fun mid rest hsplit => ?_⟩
  rcases List.eq_nil_or_concat rest with rfl | ⟨rest', c, rfl⟩
  · have hall : before ++ e' :: mid = before ++ e' :: after ++ [e] := by
      rw [List.append_nil] at hsplit
      simp [hsplit]
    rw [hall]
    exact ⟨hdeclared.trans (hsince after [] (by simp)).1, hunderway⟩
  · refine hsince mid rest' ?_
    exact (List.append_inj' (hsplit.trans (by simp) : after ++ [e] = (mid ++ rest') ++ [c]) rfl).1

/-- A migration goes on over an event that changes nothing of it and is not answered with it. -/
theorem Underway.snoc (h : Underway env events id name target) {e : Event}
    (hquiet : ∀ h, (replay env events).pends env e.time e.operation = some h → h.id ≠ id)
    (hdeclared : (replay env (events ++ [e])).store.declared? id = (replay env events).store.declared? id)
    (hunderway : (replay env (events ++ [e])).store.underway? id = some (name, target)) :
    Underway env (events ++ [e]) id name target := by
  refine ⟨h.begun_snoc hdeclared ⟨target, hunderway⟩, ?_⟩
  obtain ⟨before, e', after, handshake, rfl, hpends, hid, htarget, hlast⟩ := h.latest
  refine ⟨before, e', after ++ [e], handshake, by simp, hpends, hid, htarget, fun mid e'' rest hsplit h' hpends' => ?_⟩
  rcases snoc_eq_append_cons hsplit with ⟨rfl, rfl, rfl⟩ | ⟨rest', rfl, rfl⟩
  · exact hquiet h' hpends'
  · exact hlast mid e'' rest' rfl h' hpends'

/-- After every history, what is registered was requested, and a migration that is underway comes from its handshakes. -/
theorem declarations_replay (env : Surroundings) (events : List Event) (id : String) :
    (∀ r, (replay env events).store.declared? id = some r → Requested env events id r) ∧
      ∀ name target, (replay env events).store.underway? id = some (name, target) →
        Underway env events id name target := by
  -- By induction on how far the history has gone, the last event first.
  induction events using List.reverseRecOn with
  | nil => exact ⟨nofun, nofun⟩
  | append_singleton events e ih =>
    obtain ⟨hrequested, hcourse⟩ := ih
    have hturn := Broker.turn (Broker.consistent_replay env events) e.time e.operation id
    rw [← replay_snoc] at hturn
    have hnothing : (replay env (events ++ [e])).store.underway? id = none →
        ∀ name target, (replay env (events ++ [e])).store.underway? id = some (name, target) →
          Underway env (events ++ [e]) id name target := by
      intro hnone name target hunderway
      rw [hnone] at hunderway
      cases hunderway
    have hkept : (replay env (events ++ [e])).store.declared? id = (replay env events).store.declared? id →
        ∀ r, (replay env (events ++ [e])).store.declared? id = some r → Requested env (events ++ [e]) id r :=
      fun hdeclared r hr => (hrequested r (hdeclared ▸ hr)).snoc e
    cases hturn with
    | stays hquiet hdeclared hunderway =>
      refine ⟨hkept hdeclared, fun name target hlive => ?_⟩
      exact (hcourse name target (hunderway ▸ hlive)).snoc hquiet hdeclared hlive
    | stored hop hid hawaiting hdeclared hunderway =>
      refine ⟨fun r hr => ?_, hnothing hunderway⟩
      rw [hdeclared] at hr
      exact ⟨events, e, [], _, rfl, hop, hawaiting, hid, Option.some.inj hr⟩
    | confirmed hop hid hawaiting hdeclared hunderway => exact ⟨hkept hdeclared, hnothing hunderway⟩
    | @pending h name target hpends hid hdeclared hunderway htarget hname =>
      refine ⟨hkept hdeclared, fun name' target' hlive => ?_⟩
      rw [hunderway] at hlive
      cases hlive
      refine ⟨?_, events, e, [], h, rfl, hpends, hid, htarget, by simp⟩
      rcases hname with ⟨earlier, hlive⟩ | hnew
      · exact (hcourse name earlier hlive).begun_snoc hdeclared ⟨target, hunderway⟩
      · refine ⟨events, e, [], rfl, hnew, fun mid rest hsplit => ?_⟩
        obtain ⟨rfl, -⟩ := List.append_eq_nil_iff.mp hsplit.symm
        exact ⟨hdeclared, target, hunderway⟩
    | failed hop hanswer hdeclared hunderway => exact ⟨hkept hdeclared, hnothing hunderway⟩
    | @completed p target name hp hlive hcompletes hstored hunderway =>
      refine ⟨fun r hr => ?_, hnothing hunderway⟩
      rw [declared?, hstored] at hr
      obtain rfl := Option.some.inj hr
      exact (hcourse name target hlive).requested.snoc e
    | deregistered hop hdeclared hunderway =>
      refine ⟨fun r hr => ?_, hnothing hunderway⟩
      rw [hdeclared] at hr
      cases hr

/-! ## The end of a migration -/

namespace Broker

variable {b : Broker} {now : UInt64} {op : Operation}

/-- A migration that fails leaves the registry alone. -/
theorem physicals_of_failed {instructionId : String} {ack : Acknowledgement} {reason : MigrationFailure}
    (hanswer : (b.store.acknowledge now env.portionSize id instructionId ack).1 = .error (.migrationFailed reason)) :
    (b.run env now (.acknowledge id instructionId ack)).store.physicals = b.store.physicals := by
  have hcase := b.store.acknowledged now env.portionSize id instructionId ack
  have hstore : (b.run env now (.acknowledge id instructionId ack)).store =
      (b.store.acknowledge now env.portionSize id instructionId ack).2 := rfl
  rw [hstore]
  rw [hanswer] at hcase
  generalize (b.store.acknowledge now env.portionSize id instructionId ack).2 = s' at hcase
  cases hcase with
  | failed =>
    obtain ⟨_, heq⟩ := b.store.deleteInstruction_eq instructionId
    rw [heq]

/-- A migration that is completed puts its target in the place of the physical database, and nothing else. -/
theorem physicals_of_completes (hconsistent : b.Consistent env) {p : PhysicalDatabase}
    (hcompletes : b.completes env now op = some p) :
    ∃ name target q, b.store.underway? p.id = some (name, target) ∧ b.store.physical? p.id = some q ∧
      p = { target with global := q.global, registeredAt := q.registeredAt, updatedAt := now } ∧
      (b.run env now op).store.physicals = b.store.physicals.insert p.id p := by
  have hsound := hconsistent.migrations
  obtain ⟨physicalDatabaseId, instructionId, ack, rfl, hcase⟩ := acknowledged_of_completes hconsistent hcompletes
  generalize (b.run env now (.acknowledge physicalDatabaseId instructionId ack)).store = s' at hcase ⊢
  cases hcase with
  | @applied i i' s₁ s' step hlive hphysical hfailure happly hadvance =>
    obtain rfl : i.id = instructionId := hsound.tabled.instruction_id _ _ hlive
    have hadvanced := hsound.advanced hlive happly hadvance
    have hentries : (i.without (ack.successes.map (·.databaseId))).entries = [] := by
      by_contra hne
      obtain ⟨hstep, -⟩ := hadvanced.pending _ rfl hne
      cases hstep
    obtain ⟨current, target, hcurrent, htarget, hstep, hphysicals, -⟩ := hadvanced.completed hentries
    obtain rfl : p = target := by simpa using hstep
    have hid : p.id = i.physicalDatabaseId := by
      rw [htarget]
      exact (hsound.sound _ i.id i hlive rfl).fits.target_id
    rw [hid]
    exact ⟨i.id, i.target, current, hsound.tabled.underway?_eq_some_iff.mpr ⟨i, hlive, rfl, rfl⟩, hcurrent, htarget, hphysicals⟩

end Broker

/-- No declaration is applied by halves. After every history
1. the declared fields of a registered physical database are together those of one handshake with its id that was decided;
2. a live instruction was begun by an event, since which the declared fields of its physical database have stayed what they were,
   and its target declares what the last handshake declared that was answered with a migration of the physical database;
3. each operation takes one of the turns of `Broker.Turn`: what is registered changes when a handshake stores all that it declares,
   when a migration is completed, or when the physical database is deregistered;
4. a migration that fails leaves every physical database as it was, and so does one that is abandoned, for the declaration that is
   registered already or for other roles;
5. one that is completed puts its target in the place of the physical database, with the flag and the time of registration that
   this had, and leaves the others as they were. -/
theorem declarations_whole (env : Surroundings) (events : List Event) :
    let b := replay env events
    (∀ id p, b.store.physical? id = some p → Requested env events id p.declaration) ∧
    (∀ id i, b.store.instructionFor? id = some i → Underway env events id i.id i.target) ∧
    (∀ now op id, b.Turn env now id op (b.run env now op)) ∧
    ((∀ now id instructionId ack reason,
        (b.store.acknowledge now env.portionSize id instructionId ack).1 = .error (.migrationFailed reason) →
        (b.run env now (.acknowledge id instructionId ack)).store.physicals = b.store.physicals) ∧
      ∀ now name (h : Handshake) outcome s', b.store.decide now name env.portionSize h.id h.dbType h.registration = .ok (outcome, s') →
        ((∃ p, outcome = .unchanged p) ∨ ∃ i portion resumed, outcome = .migrationPending i portion resumed) →
        s'.physicals = b.store.physicals) ∧
    (∀ now op p, b.completes env now op = some p →
      ∃ name target q, b.store.underway? p.id = some (name, target) ∧ b.store.physical? p.id = some q ∧
        p = { target with global := q.global, registeredAt := q.registeredAt, updatedAt := now } ∧
        (b.run env now op).store.physicals = b.store.physicals.insert p.id p) := by
  intro b
  have hconsistent : b.Consistent env := Broker.consistent_replay env events
  have hreplay := declarations_replay env events
  refine ⟨fun id p hp => (hreplay id).1 _ ?_, fun id i hi => (hreplay id).2 _ _ ?_,
    fun now op id => Broker.turn hconsistent now op id,
    ⟨fun now id instructionId ack reason => Broker.physicals_of_failed, fun now name h outcome s' hok houtcome => ?_⟩,
    fun now op p => Broker.physicals_of_completes hconsistent⟩
  · change (b.store.physical? id).map _ = _
    rw [hp]
    rfl
  · change (b.store.instructionFor? id).map _ = _
    rw [hi]
    rfl
  · have hreply := hconsistent.migrations.reply_of_decide hok
    rcases houtcome with ⟨p, rfl⟩ | ⟨i, portion, resumed, rfl⟩
    · exact hreply.unchanged p rfl
    · exact (hreply.pending i portion resumed rfl).1

/-- In the sample the first declaration is registered while the second one is underway. -/
example :
    let s := (replay (.numbered 1) sampleMigration).store
    s.declared? "pg" = some (sampleDeclaration ["admin"]).registration ∧
      (s.underway? "pg").map (·.2.declaration) = some (sampleDeclaration ["admin", "ro"]).registration := by
  decide +kernel

end DatabaseBroker
