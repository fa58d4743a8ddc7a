import DatabaseBroker.Proofs.Binding.Permanence
import DatabaseBroker.Proofs.Migration.Recording

/-!
# Acknowledgements, all or nothing

An acknowledgement is recorded when it reports no failure and its databases are distinct and pending (`Instruction.Admits`), and
then each of them gains what its entry and the adapter say (`Store.Advanced`). Otherwise the migration is given up and nothing of
the acknowledgement stays (`acknowledgement_all_or_nothing`). Successes are recorded one by one, so both rest on what the first
ones leave of the instruction. Databases are kept as what their text denotes, so a float among the properties that should stay
may become a neighbour (`acknowledgement_changes_others`).
-/

namespace DatabaseBroker

open Store

/-! ## What is admitted -/

namespace Instruction

/-- Whether a list of successes can be recorded: its databases are distinct and pending. -/
def Admits (i : Instruction) (done : List Success) : Prop :=
  (done.map (·.databaseId)).Nodup ∧ ∀ d ∈ done, ∃ e ∈ i.entries, e.databaseId = d.databaseId

instance (i : Instruction) (done : List Success) : Decidable (i.Admits done) := inferInstanceAs (Decidable (_ ∧ _))

/-- Why an acknowledgement is refused: it reports a failure, or one of its successes is the first that cannot be recorded. -/
inductive Refuses (i : Instruction) (ack : Acknowledgement) : MigrationFailure → Prop where
  | reported {f : Failure} (hfailure : ack.failure = some f) : Refuses i ack (.reported f.message)
  | notPending {before after : List Success} {d : Success} (hfailure : ack.failure = none)
      (hsplit : ack.successes = before ++ d :: after) (hbefore : i.Admits before) (hd : ¬ i.Admits (before ++ [d])) :
      Refuses i ack (.notPending d.databaseId i.id)

/-- The instruction without the entries of some databases, and with no portion handed out. -/
def without (i : Instruction) (ids : List String) : Instruction :=
  { i with entries := i.entries.filter fun e => !ids.contains e.databaseId, currentPortion := none }

/-- Nothing is always admitted. -/
theorem admits_nil (i : Instruction) : i.Admits [] := ⟨List.nodup_nil, by simp⟩

/-- A success is admitted before others when it is pending and the others are without its entry. -/
theorem admits_cons {i : Instruction} (h : (i.entries.map (·.databaseId)).Nodup) {d : Success} {rest : List Success} :
    i.Admits (d :: rest) ↔
      (∃ e ∈ i.entries, e.databaseId = d.databaseId) ∧ (i.removeEntry d.databaseId).Admits rest := by
  constructor
  · rintro ⟨hnodup, hpending⟩
    obtain ⟨hd, hrest⟩ := List.nodup_cons.mp hnodup
    refine ⟨hpending d (List.mem_cons_self ..), hrest, fun r hr => ?_⟩
    obtain ⟨e, he, hid⟩ := hpending r (List.mem_cons_of_mem _ hr)
    exact ⟨e, (mem_removeEntry_iff h).mpr ⟨he, fun heq => hd (List.mem_map.mpr ⟨r, hr, hid.symm.trans heq⟩)⟩, hid⟩
  · rintro ⟨hd, hrest, hpending⟩
    have hleft : ∀ r ∈ rest, ∃ e ∈ i.entries, e.databaseId = r.databaseId ∧ r.databaseId ≠ d.databaseId := by
      intro r hr
      obtain ⟨e, he, hid⟩ := hpending r hr
      obtain ⟨he, hne⟩ := (mem_removeEntry_iff h).mp he
      exact ⟨e, he, hid, hid ▸ hne⟩
    refine ⟨List.nodup_cons.mpr ⟨fun hmem => ?_, hrest⟩, fun r hr => ?_⟩
    · obtain ⟨r, hr, hid⟩ := List.mem_map.mp hmem
      obtain ⟨-, -, -, hne⟩ := hleft r hr
      exact hne hid
    · rcases List.mem_cons.mp hr with rfl | hr
      · exact hd
      · obtain ⟨e, he, hid, -⟩ := hleft r hr
        exact ⟨e, he, hid⟩

/-- What is admitted is admitted as far as it goes. -/
theorem Admits.of_append {i : Instruction} {done more : List Success} (h : i.Admits (done ++ more)) : i.Admits done := by
  obtain ⟨hnodup, hpending⟩ := h
  rw [List.map_append] at hnodup
  exact ⟨(List.nodup_append.mp hnodup).1, fun d hd => hpending d (List.mem_append_left _ hd)⟩

/-- What is refused is not admitted. -/
theorem Refuses.not_admits {i : Instruction} {ack : Acknowledgement} {reason : MigrationFailure} (h : i.Refuses ack reason) :
    ¬ (ack.failure = none ∧ i.Admits ack.successes) := by
  rintro ⟨hnone, hadmits⟩
  cases h with
  | reported hfailure =>
    rw [hnone] at hfailure
    cases hfailure
  | @notPending before after d hfailure hsplit hbefore hd =>
    rw [hsplit, List.append_cons] at hadmits
    exact hd hadmits.of_append

end Instruction

namespace Store

variable {s s' : Store} {i i' : Instruction}

/-! ## What a list of successes leaves -/

/-- A success of a covered instruction fails only when its database is not pending. -/
theorem applySuccess_eq_error (hcovers : i.Covers s) {d : Success} {reason : MigrationFailure}
    (h : applySuccess i s d = .error reason) :
    reason = .notPending d.databaseId i.id ∧ ∀ e ∈ i.entries, e.databaseId ≠ d.databaseId := by
  unfold applySuccess at h
  split at h
  · rename_i hnone
    cases h
    exact ⟨rfl, fun e he => by simpa using List.find?_eq_none.mp hnone e he⟩
  · rename_i entry hentry
    have hnamed : entry.databaseId = d.databaseId := by simpa using List.find?_some hentry
    obtain ⟨db, hdb, -⟩ := hcovers.lacking entry (List.mem_of_find?_eq_some hentry)
    rw [← hnamed, hdb] at h
    cases h

/-- A list of successes fails at the first that cannot be recorded. -/
theorem applySuccesses_eq_error {done : List Success} {reason : MigrationFailure} (htabled : s.Tabled)
    (hcovers : i.Covers s) (h : applySuccesses i s done = .error reason) :
    ∃ before d after, done = before ++ d :: after ∧ i.Admits before ∧ ¬ i.Admits (before ++ [d]) ∧
      reason = .notPending d.databaseId i.id := by
  induction done generalizing i s with
  | nil => cases h
  | cons d rest ih =>
    rw [applySuccesses_cons] at h
    split at h
    · rename_i i₁ s₁ hstep
      have hone := Recorded.of_applySuccess htabled hcovers hstep
      obtain ⟨entry, hentry, db, hnamed, -, rfl, -⟩ := applySuccess_eq_ok hstep
      obtain ⟨before, d', after, rfl, hbefore, hd', hreason⟩ := ih hone.tabled hone.covers h
      refine ⟨d :: before, d', after, rfl, ?_, ?_, hreason⟩
      · exact (Instruction.admits_cons hcovers.distinct).mpr ⟨⟨entry, hentry, hnamed⟩, hbefore⟩
      · exact fun hadmits => hd' ((Instruction.admits_cons hcovers.distinct).mp hadmits).2
    · rename_i hstep
      cases h
      obtain ⟨hreason, hnone⟩ := applySuccess_eq_error hcovers hstep
      refine ⟨[], d, rest, rfl, i.admits_nil, fun hadmits => ?_, hreason⟩
      obtain ⟨e, he, hid⟩ := hadmits.2 d (by simp)
      exact hnone e he hid

/-- What a list of successes leaves of a store and the entries of an instruction. -/
structure RecordedAll (i : Instruction) (s : Store) (done : List Success) (i' : Instruction) (s' : Store) : Prop where
  admitted : i.Admits done
  cleared : i'.entries = (i.without (done.map (·.databaseId))).entries
  untouched : ∀ id, id ∉ done.map (·.databaseId) → s'.logical? id = s.logical? id
  written : ∀ d ∈ done, ∃ e ∈ i.entries, ∃ db, e.databaseId = d.databaseId ∧ s.logical? d.databaseId = some db ∧
    s'.logical? d.databaseId = some (db.acknowledge e d).reread

/-- A list of successes that are recorded was admitted, and each of its databases was written once. -/
theorem recordedAll_of_applySuccesses {done : List Success} (htabled : s.Tabled) (hcovers : i.Covers s)
    (h : applySuccesses i s done = .ok (i', s')) : RecordedAll i s done i' s' := by
  induction done generalizing i s with
  | nil =>
    cases h
    refine ⟨Instruction.admits_nil _, ?_, fun _ _ => rfl, fun d hd => by cases hd⟩
    simp [Instruction.without]
  | cons d rest ih =>
    rw [applySuccesses_cons] at h
    split at h
    · rename_i i₁ s₁ hstep
      have hone := Recorded.of_applySuccess htabled hcovers hstep
      obtain ⟨entry, hentry, db, hnamed, hdb, rfl, rfl⟩ := applySuccess_eq_ok hstep
      have hput := htabled.logical?_putLogical_acknowledge hdb entry
      have hrest := ih hone.tabled hone.covers h
      have hadmits := (Instruction.admits_cons hcovers.distinct).mpr ⟨⟨entry, hentry, hnamed⟩, hrest.admitted⟩
      -- The rest is recorded without the entry of the first, so none of it writes the first database again.
      have hfresh : d.databaseId ∉ rest.map (·.databaseId) := (List.nodup_cons.mp hadmits.1).1
      refine ⟨hadmits, ?_, fun id hid => ?_, fun r hr => ?_⟩
      · rw [hrest.cleared]
        simp only [Instruction.without, Instruction.removeEntry, eraseP_eq_filter hcovers.distinct, List.filter_filter]
        refine List.filter_congr fun e _ => ?_
        by_cases he : e.databaseId = d.databaseId <;> simp [he]
      · rw [List.map_cons, List.mem_cons, not_or] at hid
        rw [hrest.untouched id hid.2, hput, if_neg (Ne.symm hid.1)]
      · rcases List.mem_cons.mp hr with rfl | hr
        · exact ⟨entry, hentry, db, hnamed, hdb, by rw [hrest.untouched _ hfresh, hput, if_pos rfl]⟩
        · obtain ⟨e, he, db₁, hid, hdb₁, hwritten⟩ := hrest.written r hr
          obtain ⟨he, hne⟩ := (Instruction.mem_removeEntry_iff hcovers.distinct).mp he
          rw [hput, if_neg fun heq => hne (hid.trans heq.symm)] at hdb₁
          exact ⟨e, he, db₁, hid, hdb₁, hwritten⟩
    · cases h

/-! ## What an acknowledgement leaves -/

/-- What is left of a store when an acknowledgement of an instruction is recorded, and what is answered. -/
structure Advanced (s : Store) (now : UInt64) (size : Nat) (i : Instruction) (done : List Success) (step : MigrationStep)
    (s' : Store) : Prop where
  /-- Rules, labels and domains stay. -/
  rest : s' = { s with
    logicals := s'.logicals, classifierIndex := s'.classifierIndex, physicals := s'.physicals,
    instructions := s'.instructions, instructionsByPhysical := s'.instructionsByPhysical }
  /-- So does each database that was not acknowledged. -/
  untouched : ∀ id, id ∉ done.map (·.databaseId) → s'.logical? id = s.logical? id
  /-- The others are kept with what they gain. -/
  gained : ∀ d ∈ done, ∃ e ∈ i.entries, ∃ db, e.databaseId = d.databaseId ∧ s.logical? d.databaseId = some db ∧
    db.Gains e d (db.acknowledge e d) ∧ s'.logical? d.databaseId = some (db.acknowledge e d).reread
  /-- With entries left, the first of them are handed out. -/
  pending : ∀ j, j = i.without (done.map (·.databaseId)) → j.entries ≠ [] →
    step = .portion i.id (j.entries.take size) ∧ s'.physicals = s.physicals ∧
      s'.instructions = s.instructions.insert i.id (j.handOut now (j.entries.take size)).reread ∧
      s'.instructionsByPhysical = s.instructionsByPhysical
  /-- With none left, the target takes the place of the physical database, and the instruction is gone. -/
  completed : (i.without (done.map (·.databaseId))).entries = [] →
    ∃ current target, s.physical? i.physicalDatabaseId = some current ∧
      target = { i.target with global := current.global, registeredAt := current.registeredAt, updatedAt := now } ∧
      step = .completed target ∧ s'.physicals = s.physicals.insert i.physicalDatabaseId target ∧
      s'.instructions = s.instructions.erase i.id ∧
      s'.instructionsByPhysical = s.instructionsByPhysical.erase i.physicalDatabaseId

/-- Going on with entries left stores the instruction with the first of them handed out. -/
theorem Tabled.advance_pending {now : UInt64} {size : Nat} {j : Instruction} (h : s.Tabled)
    (hi : s.instruction? j.id = some i) (hphysical : i.physicalDatabaseId = j.physicalDatabaseId)
    (hportion : j.currentPortion = none) (hentries : j.entries ≠ []) :
    s.advance now size j = (.portion j.id (j.entries.take size),
      { s with instructions := s.instructions.insert j.id (j.handOut now (j.entries.take size)).reread }) := by
  have hnext : j.nextPortion size = j.entries.take size := by
    simp only [Instruction.nextPortion, Instruction.reissued?, hportion, Option.bind_none, Option.filter_none,
      Option.getD_none]
  have hput : s.putInstruction (j.handOut now (j.entries.take size)) =
      { s with instructions := s.instructions.insert j.id (j.handOut now (j.entries.take size)).reread } :=
    h.putInstruction_eq hi hphysical
  rw [advance_of_pending hentries, hnext, hput]

/-- Going on with no entry left stores the target with what it keeps of the physical database, and deletes the instruction. -/
theorem Tabled.advance_done {now : UInt64} {size : Nat} {j : Instruction} {current : PhysicalDatabase} (h : s.Tabled)
    (hi : s.instruction? j.id = some i) (hphysical : i.physicalDatabaseId = j.physicalDatabaseId)
    (hid : j.target.id = j.physicalDatabaseId) (hcurrent : s.physical? j.physicalDatabaseId = some current)
    (hentries : j.entries = []) :
    let target := { j.target with global := current.global, registeredAt := current.registeredAt, updatedAt := now }
    s.advance now size j = (.completed target,
      { s with
        physicals := s.physicals.insert j.physicalDatabaseId target
        instructions := s.instructions.erase j.id
        instructionsByPhysical := s.instructionsByPhysical.erase j.physicalDatabaseId }) := by
  intro target
  have hfound : s.physical? j.target.id = some current := by rw [hid, hcurrent]
  have htarget : s.completedTarget now j.target = target := by
    simp only [completedTarget, hfound]
    rfl
  have htabled : (s.putPhysical target).Tabled := h.putPhysical target
  have hstored : (s.putPhysical target).instruction? j.id = some i := hi
  rw [advance_of_done hentries, htarget, htabled.deleteInstruction_eq hstored, hphysical, ← hid]
  rfl

/-- Going on after a list of successes was recorded leaves what it should. -/
theorem MigrationsSound.advanced {s₁ : Store} {now : UInt64} {size : Nat} {done : List Success} {step : MigrationStep}
    (h : s.MigrationsSound) (hi : s.instruction? i.id = some i) (happly : applySuccesses i s done = .ok (i', s₁))
    (hadvance : s₁.advance now size { i' with currentPortion := none } = (step, s')) :
    s.Advanced now size i done step s' := by
  have hsound := h.sound _ i.id i hi rfl
  have hrecorded := h.recorded hi happly
  have hall := recordedAll_of_applySuccesses h.tabled hsound.covers happly
  obtain ⟨logicals, index, rfl⟩ := hrecorded.store
  obtain ⟨entries, rfl⟩ := hrecorded.instruction
  have hleft : ({ i with entries := entries, currentPortion := none } : Instruction) =
      i.without (done.map (·.databaseId)) := by
    rw [Instruction.without]
    exact congrArg (fun entries => ({ i with entries := entries, currentPortion := none } : Instruction)) hall.cleared
  rw [hleft] at hadvance
  have hgained : ∀ d ∈ done, ∃ e ∈ i.entries, ∃ db, e.databaseId = d.databaseId ∧ s.logical? d.databaseId = some db ∧
      db.Gains e d (db.acknowledge e d) ∧ logicals.get? d.databaseId = some (db.acknowledge e d).reread := by
    intro d hd
    obtain ⟨e, he, db, hid, hdb, hwritten⟩ := hall.written d hd
    obtain ⟨db', hdb', -, hroles, -⟩ := hsound.covers.lacking e he
    obtain rfl : db = db' := Option.some.inj (hdb.symm.trans (hid ▸ hdb'))
    exact ⟨e, he, db, hid, hdb, LogicalDatabase.gains_acknowledge (AdapterMetadata.roleSet_nodup _) hroles d, hwritten⟩
  have hstored : ({ s with logicals := logicals, classifierIndex := index } : Store).instruction?
      (i.without (done.map (·.databaseId))).id = some i := hi
  by_cases hentries : (i.without (done.map (·.databaseId))).entries = []
  · obtain ⟨current, hcurrent, -⟩ := hsound.fits.registered
    rw [hrecorded.tabled.advance_done hstored rfl hsound.fits.target_id hcurrent hentries] at hadvance
    cases hadvance
    refine ⟨rfl, hall.untouched, hgained, ?_, fun _ => ⟨current, _, hcurrent, rfl, rfl, rfl, rfl, rfl⟩⟩
    rintro j rfl hne
    exact absurd hentries hne
  · rw [hrecorded.tabled.advance_pending hstored rfl rfl hentries] at hadvance
    cases hadvance
    refine ⟨rfl, hall.untouched, hgained, ?_, fun hnil => absurd hnil hentries⟩
    rintro j rfl -
    exact ⟨rfl, rfl, rfl, rfl⟩

/-- An acknowledgement of a live instruction that is taken reports no failure, is admitted, and leaves what it should. -/
theorem MigrationsSound.taken {now : UInt64} {size : Nat} {physicalDatabaseId instructionId : String} {ack : Acknowledgement}
    {step : MigrationStep} (h : s.MigrationsSound) (hi : s.instruction? instructionId = some i)
    (hcase : s.Acknowledged now size physicalDatabaseId instructionId ack (.ok step) s') :
    (ack.failure = none ∧ i.Admits ack.successes) ∧ s.Advanced now size i ack.successes step s' ∧
      (s.BindingsSound .univ → s'.classifierIndex = s.classifierIndex) := by
  cases hcase with
  | @applied i₀ i' s₁ s' step hlive hp hfailure happly hadvance =>
    obtain rfl : i = i₀ := Option.some.inj (hi.symm.trans hlive)
    obtain rfl : i.id = instructionId := h.tabled.instruction_id _ _ hi
    have hcovers := (h.sound _ i.id i hi rfl).covers
    have hall := recordedAll_of_applySuccesses h.tabled hcovers happly
    refine ⟨⟨hfailure, hall.admitted⟩, h.advanced hi happly hadvance, fun hbindings => ?_⟩
    obtain ⟨-, -, hindex⟩ := hbindings.applySuccesses h.tabled happly
    exact (SameButRegistry.advance hadvance).classifierIndex.trans (KeyMap.ext_get? fun key => hindex key trivial)

/-- An acknowledgement of a live instruction that is not taken is refused, and the instruction is deleted with its index entry. -/
theorem MigrationsSound.refused {now : UInt64} {size : Nat} {instructionId : String} {ack : Acknowledgement}
    {e : RegistryError} (h : s.MigrationsSound) (hi : s.instruction? instructionId = some i)
    (hcase : s.Acknowledged now size i.physicalDatabaseId instructionId ack (.error e) s') :
    (∃ reason, e = .migrationFailed reason ∧ i.Refuses ack reason) ∧
      s' = { s with
        instructions := s.instructions.erase instructionId
        instructionsByPhysical := s.instructionsByPhysical.erase i.physicalDatabaseId } := by
  cases hcase with
  | unknown hunknown => exact absurd rfl (hunknown i hi)
  | @failed i₀ reason hlive hp hreason =>
    obtain rfl : i = i₀ := Option.some.inj (hi.symm.trans hlive)
    refine ⟨⟨reason, rfl, ?_⟩, h.tabled.deleteInstruction_eq hi⟩
    rcases hreason with ⟨f, hfailure, rfl⟩ | ⟨hfailure, happly⟩
    · exact .reported hfailure
    · have hcovers := (h.sound _ instructionId i hi rfl).covers
      obtain ⟨before, d, after, hsplit, hbefore, hd, rfl⟩ := applySuccesses_eq_error h.tabled hcovers happly
      exact .notPending hfailure hsplit hbefore hd

/-- Where bindings are sound, an acknowledged database is kept as it was recorded exactly when each value of its connection
properties reads back as itself. -/
theorem BindingsSound.kept_of_advanced {now : UInt64} {size : Nat} {done : List Success} {step : MigrationStep}
    (h : s.BindingsSound .univ) (hadvanced : s.Advanced now size i done step s') {d : Success} (hd : d ∈ done) :
    ∃ e ∈ i.entries, ∃ db, e.databaseId = d.databaseId ∧ s.logical? d.databaseId = some db ∧
      db.Gains e d (db.acknowledge e d) ∧
      (s'.logical? d.databaseId = some (db.acknowledge e d) ↔
        ∀ p ∈ (db.acknowledge e d).connectionProperties, ∀ key j, p.get? key = some j → j.Steady) := by
  obtain ⟨e, he, db, hid, hdb, hgains, hwritten⟩ := hadvanced.gained d hd
  refine ⟨e, he, db, hid, hdb, hgains, ?_⟩
  rw [hwritten, Option.some.injEq]
  exact LogicalDatabase.reread_eq_self_iff ((h.settled _ db hdb).kept trivial) (h.current _ db hdb).old

end Store

/-! ## Histories -/

/-- An acknowledgement after any history, in five parts.
1. When the instruction is not a live one of the physical database, it is not found, and nothing changes.
Otherwise:
2. The acknowledgement is taken exactly when it reports no failure and its databases are distinct and pending.
3. Then those databases gain what their entries and the adapter say, the instruction goes on without their entries or, when none
   is left, gives way to its target, and nothing else changes.
4. When it is not taken, the migration has failed, for the reason that is said, and only the instruction and its index entry are
   gone.
5. As long as what is kept of each new classifier has its key, the index of classifiers stays the same in part 3, and a database
   is kept as it was recorded exactly when each value of its connection properties reads back as itself. -/
theorem acknowledgement_all_or_nothing (env : Surroundings) (events : List Event) (now : UInt64)
    (physicalDatabaseId instructionId : String) (ack : Acknowledgement) :
    let s := (replay env events).store
    let answer := (s.acknowledge now env.portionSize physicalDatabaseId instructionId ack).1
    let s' := (s.acknowledge now env.portionSize physicalDatabaseId instructionId ack).2
    ((∀ i, s.instruction? instructionId = some i → i.physicalDatabaseId ≠ physicalDatabaseId) →
      answer = .error (.notFound (.instructionOf instructionId physicalDatabaseId)) ∧ s' = s) ∧
    ∀ i, s.instruction? instructionId = some i → i.physicalDatabaseId = physicalDatabaseId →
      ((∃ step, answer = .ok step) ↔ ack.failure = none ∧ i.Admits ack.successes) ∧
      (∀ step, answer = .ok step → s.Advanced now env.portionSize i ack.successes step s') ∧
      (∀ e, answer = .error e → (∃ reason, e = .migrationFailed reason ∧ i.Refuses ack reason) ∧
        s' = { s with
          instructions := s.instructions.erase instructionId
          instructionsByPhysical := s.instructionsByPhysical.erase physicalDatabaseId }) ∧
      (Broker.start.keepsKeys env events = true → ∀ step, answer = .ok step →
        s'.classifierIndex = s.classifierIndex ∧
        ∀ d ∈ ack.successes, ∃ e ∈ i.entries, ∃ db, e.databaseId = d.databaseId ∧ s.logical? d.databaseId = some db ∧
          db.Gains e d (db.acknowledge e d) ∧
          (s'.logical? d.databaseId = some (db.acknowledge e d) ↔
            ∀ p ∈ (db.acknowledge e d).connectionProperties, ∀ key j, p.get? key = some j → j.Steady)) := by
  intro s answer s'
  have hmigrations : s.MigrationsSound := (Broker.consistent_replay env events).migrations
  have hcase : s.Acknowledged now env.portionSize physicalDatabaseId instructionId ack answer s' :=
    s.acknowledged now env.portionSize physicalDatabaseId instructionId ack
  have hbindings : Broker.start.keepsKeys env events = true → s.BindingsSound .univ :=
    fun hkeeps => bindingsSound_replay (settles_of_keepsKeys hkeeps)
  clear_value answer s'
  refine ⟨fun hunknown => ?_, fun i hi hphysical => ?_⟩
  · cases hcase with
    | unknown => exact ⟨rfl, rfl⟩
    | failed hlive hp => exact absurd hp (hunknown _ hlive)
    | applied hlive hp => exact absurd hp (hunknown _ hlive)
  subst hphysical
  cases answer with
  | error e =>
    obtain ⟨⟨reason, rfl, hrefuses⟩, hstore⟩ := hmigrations.refused hi hcase
    refine ⟨⟨?_, fun hadmits => absurd hadmits hrefuses.not_admits⟩, ?_, ?_, ?_⟩
    · rintro ⟨step, hstep⟩
      cases hstep
    · intro step hstep
      cases hstep
    · intro e he
      cases he
      exact ⟨⟨reason, rfl, hrefuses⟩, hstore⟩
    · intro _ step hstep
      cases hstep
  | ok step =>
    obtain ⟨hadmits, hadvanced, hindex⟩ := hmigrations.taken hi hcase
    refine ⟨⟨fun _ => hadmits, fun _ => ⟨step, rfl⟩⟩, ?_, ?_, ?_⟩
    · intro step' hstep
      cases hstep
      exact hadvanced
    · intro e he
      cases he
    · intro hkeeps _ _
      have hsound := hbindings hkeeps
      exact ⟨hindex hsound, fun d hd => hsound.kept_of_advanced hadvanced hd⟩

/-- In the sample of a migration one of the two databases may be acknowledged, but not twice at once: that ends the migration. -/
theorem acknowledgement_of_sampleMigration :
    let s := (replay (.numbered 1) sampleMigration).store
    let once : Acknowledgement := ⟨[⟨"ldb-#2", [], []⟩], none⟩
    let twice : Acknowledgement := ⟨[⟨"ldb-#2", [], []⟩, ⟨"ldb-#2", [], []⟩], none⟩
    (∃ step, (s.acknowledge 7 1 "pg" "instr-#1" once).1 = .ok step) ∧
      ¬ ∃ step, (s.acknowledge 7 1 "pg" "instr-#1" twice).1 = .ok step := by
  intro s once twice
  have hlive : (s.instruction? "instr-#1").any (fun i =>
      decide (i.physicalDatabaseId = "pg" ∧ i.Admits once.successes ∧ ¬ i.Admits twice.successes)) = true := by decide +kernel
  obtain ⟨i, hi, hadmits⟩ := (Option.any_eq_true _ _).mp hlive
  obtain ⟨hphysical, honce, htwice⟩ := of_decide_eq_true hadmits
  obtain ⟨htaken, -⟩ := (acknowledgement_all_or_nothing (.numbered 1) sampleMigration 7 "pg" "instr-#1" once).2 i hi hphysical
  obtain ⟨hrefused, -⟩ := (acknowledgement_all_or_nothing (.numbered 1) sampleMigration 7 "pg" "instr-#1" twice).2 i hi hphysical
  exact ⟨htaken.mpr ⟨rfl, honce⟩, fun hok => htwice (hrefused.mp hok).2⟩

/-! ## Properties that drift -/

/-- Connection properties of a role, with a weight. -/
def weighted (role : String) (weight : Json) : ConnectionProperties :=
  (KeyMap.empty.insert roleKey (.string role)).insert "weight" weight

/-- The properties of one role are acknowledged with a weight that is not kept as it is, and another role is declared. -/
def sampleWeights : List Event := [
  ⟨1, .precheck (sampleDeclaration ["admin"]) none⟩,
  ⟨2, .decide (sampleDeclaration ["admin"])⟩,
  ⟨3, .getOrCreate ⟨(Classifier.service "shop" "cart").toMap, "postgresql", none, none⟩⟩,
  ⟨4, .precheck (sampleDeclaration ["admin", "ro"]) none⟩,
  ⟨5, .decide (sampleDeclaration ["admin", "ro"])⟩,
  ⟨6, .acknowledge "pg" "instr-#1" ⟨[⟨"ldb-#1", [], [weighted "ro" driftingFloat]⟩], none⟩⟩,
  ⟨7, .precheck (sampleDeclaration ["admin", "ro", "rw"]) none⟩,
  ⟨8, .decide (sampleDeclaration ["admin", "ro", "rw"])⟩]

/-- Properties of a role that an acknowledgement does not name need not be kept: those of the sample have another weight once
the other role is acknowledged, and not even one that is the same number. -/
theorem acknowledgement_changes_others :
    let s := (replay (.numbered 1) sampleWeights).store
    let s' := (s.acknowledge 9 1 "pg" "instr-#2" ⟨[⟨"ldb-#1", [], [weighted "rw" .null]⟩], none⟩).2
    ∃ db db' p p', s.logical? "ldb-#1" = some db ∧ s'.logical? "ldb-#1" = some db' ∧
      db.connectionProperties.find? (·.isOf (.string "ro")) = some p ∧
      db'.connectionProperties.find? (·.isOf (.string "ro")) = some p' ∧ p.same p' = false := by
  intro s s'
  have hchanged : (s.logical? "ldb-#1").any (fun db => (s'.logical? "ldb-#1").any fun db' =>
      (db.connectionProperties.find? (·.isOf (.string "ro"))).any fun p =>
        (db'.connectionProperties.find? (·.isOf (.string "ro"))).any fun p' => !p.same p') = true := by decide +kernel
  obtain ⟨db, hdb, hchanged⟩ := (Option.any_eq_true _ _).mp hchanged
  obtain ⟨db', hdb', hchanged⟩ := (Option.any_eq_true _ _).mp hchanged
  obtain ⟨p, hp, hchanged⟩ := (Option.any_eq_true _ _).mp hchanged
  obtain ⟨p', hp', hchanged⟩ := (Option.any_eq_true _ _).mp hchanged
  exact ⟨db, db', p, p', hdb, hdb', hp, hp', by simpa using hchanged⟩

end DatabaseBroker
