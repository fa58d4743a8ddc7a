import DatabaseBroker.Proofs.Migration.Fates
import DatabaseBroker.Proofs.Registration.Decisions

/-!
# Portions that are handed out

A decision, an acknowledgement and a request for the next portion may hand a portion out (`Broker.handsOut?`). It is the first of
the entries of its instruction (`Instruction.Issued`): databases that join come after it, an acknowledgement hands out anew
whatever it took, and what is handed out again is what was handed out before. The instruction is read back each time that it is
stored, and so are the entries of its portion (`Instruction.Offers`). After every history that is so of the portion that was
handed out last (`Broker.offers_replay`).
-/

namespace DatabaseBroker

open Store

namespace AdditionalRoles

/-- Each value of the connection properties of an entry reads back as itself. -/
def Steady (e : AdditionalRoles) : Prop := ∀ p ∈ e.connectionProperties, ∀ key j, p.get? key = some j → j.Steady

/-- Such an entry reads back as itself, and no other does. -/
theorem reread_eq_self_iff {e : AdditionalRoles} : e.reread = e ↔ e.Steady := by
  simp only [Steady, ← ConnectionProperties.reread_eq_self_iff, ← map_eq_self_iff]
  constructor
  · exact congrArg AdditionalRoles.connectionProperties
  · intro h
    rw [reread, h]

/-- An entry that is read back any number of times is of the same database. -/
theorem databaseId_iterate_reread (e : AdditionalRoles) (n : Nat) : (reread^[n] e).databaseId = e.databaseId := by
  induction n generalizing e with
  | zero => rfl
  | succ n ih => exact ih e.reread

/-- An entry that reads back as itself stays itself. -/
theorem iterate_reread_of_steady {e : AdditionalRoles} (h : e.Steady) (n : Nat) : reread^[n] e = e :=
  Function.iterate_fixed (reread_eq_self_iff.mpr h) n

end AdditionalRoles

namespace Instruction

variable {i : Instruction} {size : Nat} {now : UInt64}

/-- The databases of the entries, in order. -/
def databaseIds (i : Instruction) : List String := i.entries.map (·.databaseId)

/-- A portion was handed out and still is: the first entries, at most `size` of them. -/
structure Issued (size : Nat) (i : Instruction) : Prop where
  inProgress : i.state = .inProgress
  portion : ∃ portion, i.currentPortion = some portion ∧ portion ≠ [] ∧ portion.length ≤ size ∧ portion <+: i.databaseIds

@[simp]
theorem databaseIds_reread (i : Instruction) : i.reread.databaseIds = i.databaseIds := by
  simp [databaseIds, reread, AdditionalRoles.reread, Function.comp_def]

/-- The databases of the first entries are the first databases. -/
theorem map_take_entries (i : Instruction) (k : Nat) :
    (i.entries.take k).map (·.databaseId) = i.databaseIds.take k := by
  rw [databaseIds, List.map_take]

/-- An entry is found under its database when no other is of that database. -/
theorem entry?_of_mem (hdistinct : i.databaseIds.Nodup) {e : AdditionalRoles} (he : e ∈ i.entries) :
    i.entry? e.databaseId = some e := by
  cases hfound : i.entry? e.databaseId with
  | none =>
    have hnone := List.find?_eq_none.mp hfound e he
    simp at hnone
  | some e' =>
    have hid : e'.databaseId = e.databaseId := by simpa using List.find?_some hfound
    rw [List.inj_on_of_nodup_map hdistinct (List.mem_of_find?_eq_some hfound) he hid]

/-- Entries are found again under their databases. -/
theorem mapM_entry? (hdistinct : i.databaseIds.Nodup) {l : List AdditionalRoles} (hl : ∀ e ∈ l, e ∈ i.entries) :
    (l.map (·.databaseId)).mapM i.entry? = some l := by
  induction l with
  | nil => rfl
  | cons e rest ih =>
    rw [List.map_cons, List.mapM_cons, entry?_of_mem hdistinct (hl e (List.mem_cons_self ..)),
      ih fun e' he' => hl e' (List.mem_cons_of_mem _ he')]
    rfl

namespace Issued

/-- What is handed out again is what was handed out: the first entries. -/
theorem nextPortion_eq (h : i.Issued size) (hdistinct : i.databaseIds.Nodup) :
    ∃ k, 0 < k ∧ k ≤ size ∧ k ≤ i.entries.length ∧ i.currentPortion = some (i.databaseIds.take k) ∧
      i.nextPortion size = i.entries.take k := by
  obtain ⟨portion, hportion, hne, hsize, hpre⟩ := h.portion
  have hlength : portion.length ≤ i.entries.length := by simpa [databaseIds] using hpre.length_le
  have hpos : 0 < portion.length := List.length_pos_iff.mpr hne
  have htake : portion = (i.entries.take portion.length).map (·.databaseId) := by
    rw [map_take_entries]
    exact List.prefix_iff_eq_take.mp hpre
  generalize portion.length = k at hlength hpos hsize htake
  subst htake
  refine ⟨k, hpos, hsize, hlength, by rw [hportion, map_take_entries], ?_⟩
  have hfound : i.reissued? = some (i.entries.take k) := by
    have hfirst : i.entries.take k ≠ [] := fun hnil => hne (by rw [hnil, List.map_nil])
    rw [reissued?, hportion, Option.bind_some, mapM_entry? hdistinct fun e he => List.mem_of_mem_take he,
      Option.filter_some, if_pos (by simpa using hfirst)]
  rw [nextPortion, hfound, Option.getD_some]

theorem reread (h : i.Issued size) : i.reread.Issued size := by
  obtain ⟨portion, hportion, hne, hsize, hpre⟩ := h.portion
  exact ⟨h.inProgress, portion, hportion, hne, hsize, by rwa [databaseIds_reread]⟩

end Issued

/-- Handing out the first entries, one at least, leaves them handed out. -/
theorem issued_handOut_take {k : Nat} (hentries : i.entries ≠ []) (hpos : 0 < k) (hsize : k ≤ size) :
    (i.handOut now (i.entries.take k)).Issued size := by
  refine ⟨rfl, (i.entries.take k).map (·.databaseId), rfl, ?_, ?_, ?_⟩
  · simp [hentries, Nat.ne_of_gt hpos]
  · rw [List.length_map, List.length_take]
    omega
  · rw [map_take_entries]
    exact List.take_prefix _ _

/-- So does handing them out again. -/
theorem Issued.handOut (h : i.Issued size) (hdistinct : i.databaseIds.Nodup) (target : PhysicalDatabase) :
    ((i.retarget now target).handOut now (i.nextPortion size)).Issued size := by
  obtain ⟨k, hpos, hsize, hlength, -, hnext⟩ := h.nextPortion_eq hdistinct
  have hentries : i.entries ≠ [] := List.ne_nil_of_length_pos (by omega)
  rw [hnext]
  exact issued_handOut_take (i := i.retarget now target) hentries hpos hsize

/-- Databases that join come after what was handed out. -/
theorem Issued.join (h : i.Issued size) (e : AdditionalRoles) :
    ({ i with entries := i.entries ++ [e], updatedAt := now } : Instruction).Issued size := by
  obtain ⟨portion, hportion, hne, hsize, hpre⟩ := h.portion
  refine ⟨h.inProgress, portion, hportion, hne, hsize, hpre.trans ?_⟩
  simp only [databaseIds, List.map_append]
  exact List.prefix_append _ _

/-- Whatever becomes of an instruction, the first entries of what is left are handed out. -/
theorem Fate.issued {s : Store} {name id : String} {found found' : Option Instruction} {op : Operation}
    (hfate : Fate s size now name id found op found') (hpos : 0 < size)
    (hdistinct : ∀ i, found = some i → i.databaseIds.Nodup) (h : ∀ i, found = some i → i.Issued size) :
    ∀ i, found' = some i → i.Issued size := by
  cases hfate with
  | kept => exact h
  | begun hid hp hpending =>
    rintro _ ⟨⟩
    exact (issued_handOut_take hpending hpos (Nat.le_refl size)).reread
  | resumed =>
    rintro _ ⟨⟩
    exact ((h _ rfl).handOut (hdistinct _ rfl) _).reread
  | joined =>
    rintro _ ⟨⟩
    exact ((h _ rfl).join _).reread
  | @continued i =>
    rintro _ ⟨⟩
    have hkept : ((i.retarget now i.target).handOut now (i.nextPortion size)).Issued size :=
      (h i rfl).handOut (hdistinct i rfl) i.target
    exact hkept.reread
  | advanced hj hpending =>
    rintro _ ⟨⟩
    exact (issued_handOut_take hpending hpos (Nat.le_refl size)).reread
  | superseded => exact fun _ => nofun
  | ended => exact fun _ => nofun
  | deregistered => exact fun _ => nofun

/-! ## The entries of the portion -/

variable {portion : List AdditionalRoles}

/-- A portion was handed out and still is: its entries come first, read back when they were handed out and `again` times since. -/
structure Offers (portion : List AdditionalRoles) (again : Nat) (i : Instruction) : Prop where
  current : i.currentPortion = some (portion.map (·.databaseId))
  first : ∃ rest, i.entries = portion.map (AdditionalRoles.reread^[again + 1]) ++ rest

/-- Entries that are read back any number of times are of the same databases. -/
theorem databaseIds_iterate_reread (portion : List AdditionalRoles) (n : Nat) :
    (portion.map (AdditionalRoles.reread^[n])).map (·.databaseId) = portion.map (·.databaseId) := by
  rw [List.map_map]
  exact List.map_congr_left fun e _ => e.databaseId_iterate_reread n

namespace Offers

variable {again : Nat}

/-- The portion is handed out again, as it was read back. -/
theorem nextPortion_eq (h : i.Offers portion again) (hdistinct : i.databaseIds.Nodup) (hne : portion ≠ []) (size : Nat) :
    i.nextPortion size = portion.map (AdditionalRoles.reread^[again + 1]) := by
  obtain ⟨rest, hentries⟩ := h.first
  have hfound : (portion.map (·.databaseId)).mapM i.entry? = some (portion.map (AdditionalRoles.reread^[again + 1])) := by
    rw [← databaseIds_iterate_reread portion (again + 1)]
    exact mapM_entry? hdistinct fun e he => hentries ▸ List.mem_append_left rest he
  rw [nextPortion, reissued?, h.current, Option.bind_some, hfound, Option.filter_some, if_pos (by simpa using hne),
    Option.getD_some]

/-- Read back, the portion is what the instruction lists first. -/
theorem take_eq (h : i.Offers portion again) :
    i.entries.take portion.length = portion.map (AdditionalRoles.reread^[again + 1]) := by
  obtain ⟨rest, hentries⟩ := h.first
  rw [hentries, List.take_left' (List.length_map _)]

/-- It stays handed out when the instruction is stored, with entries after it. -/
theorem reread {j : Instruction} (h : i.Offers portion again) (hcurrent : j.currentPortion = i.currentPortion)
    {more : List AdditionalRoles} (hentries : j.entries = i.entries ++ more) : j.reread.Offers portion (again + 1) := by
  obtain ⟨rest, hfirst⟩ := h.first
  refine ⟨hcurrent.trans h.current, (rest ++ more).map AdditionalRoles.reread, ?_⟩
  simp only [Instruction.reread, hentries, hfirst, List.map_append, List.map_map, List.append_assoc,
    Function.iterate_succ']

/-- It stays handed out when it is handed out again. -/
theorem handOut (h : i.Offers portion again) (hdistinct : i.databaseIds.Nodup) (hne : portion ≠ [])
    (target : PhysicalDatabase) :
    ((i.retarget now target).handOut now (i.nextPortion size)).reread.Offers portion (again + 1) := by
  refine h.reread ?_ (List.append_nil i.entries).symm
  rw [h.current, h.nextPortion_eq hdistinct hne size]
  exact congrArg some (databaseIds_iterate_reread portion (again + 1))

end Offers

/-- First entries that are handed out are handed out. -/
theorem offers_handOut {k : Nat} (hnext : i.nextPortion size = i.entries.take k) :
    (i.handOut now (i.nextPortion size)).reread.Offers (i.nextPortion size) 0 := by
  refine ⟨rfl, (i.entries.drop k).map AdditionalRoles.reread, ?_⟩
  rw [hnext]
  change i.entries.map AdditionalRoles.reread = (i.entries.take k).map AdditionalRoles.reread ++ _
  rw [← List.map_append, List.take_append_drop]

end Instruction

namespace Broker

/-- After every history each live instruction has a portion handed out. -/
theorem issued_replay (env : Surroundings) (events : List Event) :
    ∀ id i, (replay env events).store.instruction? id = some i → i.Issued env.portionSize := by
  refine (replay_invariant (P := fun b => b.Consistent env ∧
    ∀ id i, b.store.instruction? id = some i → i.Issued env.portionSize) ⟨.start, ?_⟩ ?_).2
  · simp [Broker.start, instruction?, Store.empty]
  · rintro e - b ⟨hconsistent, hissued⟩
    have heffect := b.effect env e.time e.operation
    refine ⟨hconsistent.effect heffect, fun id => ?_⟩
    refine (heffect.instruction_fate hconsistent id).issued env.portionSize_pos (fun i hi => ?_) (hissued id)
    exact (hconsistent.migrations.sound _ id i hi rfl).covers.distinct

end Broker

/-! ## What operations hand out -/

/-- The portion that a decision hands out, with the id of its instruction. -/
def RegistrationOutcome.handedOut? : RegistrationOutcome → Option (String × List AdditionalRoles)
  | .migrationPending i portion _ => some (i.id, portion)
  | _ => none

/-- The portion that a step of a migration hands out, with the id of its instruction. -/
def MigrationStep.handedOut? : MigrationStep → Option (String × List AdditionalRoles)
  | .portion id entries => some (id, entries)
  | .completed _ => none

/-- Whether an operation may hand a portion out. -/
def Operation.mayHandOut : Operation → Bool
  | .decide _ | .acknowledge .. | .nextPortion _ => true
  | _ => false

namespace Broker

/-- The portion that an operation hands out, with the id of its instruction. -/
def handsOut? (env : Surroundings) (b : Broker) (now : UInt64) : Operation → Option (String × List AdditionalRoles)
  | .decide h =>
    if h ∈ b.awaiting then
      (b.store.decide now (env.instructionName b.names.instructions) env.portionSize h.id h.dbType
        h.registration).toOption.bind (·.1.handedOut?)
    else none
  | .acknowledge id instructionId ack =>
    (b.store.acknowledge now env.portionSize id instructionId ack).1.toOption.bind (·.handedOut?)
  | .nextPortion instructionId =>
    (b.store.nextPortion now env.portionSize instructionId).toOption.bind (·.1.handedOut?)
  | _ => none

/-- The portion of an instruction that was handed out last among some events. -/
def lastHandedOut? (env : Surroundings) (id : String) (b : Broker) : List Event → Option (List AdditionalRoles)
  | [] => none
  | e :: later =>
    (lastHandedOut? env id (b.run env e.time e.operation) later).or
      (((b.handsOut? env e.time e.operation).filter (·.1 = id)).map (·.2))

/-- What the last of some events hands out counts, and otherwise what was handed out before. -/
theorem lastHandedOut?_append (env : Surroundings) (id : String) (b : Broker) (events : List Event) (e : Event) :
    b.lastHandedOut? env id (events ++ [e]) =
      ((((b.runAll env events).handsOut? env e.time e.operation).filter (·.1 = id)).map (·.2)).or
        (b.lastHandedOut? env id events) := by
  induction events generalizing b with
  | nil => simp [lastHandedOut?, runAll]
  | cons first rest ih => rw [List.cons_append, lastHandedOut?, ih, runAll_cons, lastHandedOut?, Option.or_assoc]

end Broker

/-- How an instruction came to be live at an id, where `answer` is what was handed out: its first entries were handed out, or it was
live before, and at most a database joined. -/
inductive Instruction.Offering (answer : Option (String × List AdditionalRoles)) (id : String) :
    Option Instruction → Instruction → Prop where
  | handedOut {found : Option Instruction} {portion : List AdditionalRoles} {j : Instruction}
      (hanswer : answer = some (id, portion)) (hoffers : j.Offers portion 0) : Offering answer id found j
  | left {i : Instruction} (hanswer : ∀ portion, answer ≠ some (id, portion)) : Offering answer id (some i) i
  | joined {i : Instruction} {e : AdditionalRoles} {now : UInt64} (hanswer : ∀ portion, answer ≠ some (id, portion)) :
      Offering answer id (some i) { i with entries := i.entries ++ [e], updatedAt := now : Instruction }.reread

namespace Instruction

variable {id : String} {found : Option Instruction} {j : Instruction}

/-- Where nothing is handed out, what was live is left. -/
theorem Offering.of_live (hbefore : found = some j) : Offering none id found j := by
  subst hbefore
  exact .left fun _ => nofun

/-- Such an instruction offers what was handed out of it last. -/
theorem Offering.offers {answer : Option (String × List AdditionalRoles)} (h : Offering answer id found j)
    {last : Option (List AdditionalRoles)}
    (hbefore : ∀ i, found = some i → ∃ portion again, last = some portion ∧ i.Offers portion again) :
    ∃ portion again, ((answer.filter (·.1 = id)).map (·.2)).or last = some portion ∧ j.Offers portion again := by
  have hother : (∀ portion, answer ≠ some (id, portion)) → answer.filter (·.1 = id) = none := by
    refine fun hanswer => Option.filter_eq_none_iff.mpr fun out hout hid => ?_
    obtain rfl : out.1 = id := by simpa using hid
    exact hanswer out.2 hout
  cases h with
  | handedOut hanswer hoffers => exact ⟨_, 0, by simp [hanswer], hoffers⟩
  | left hanswer =>
    obtain ⟨portion, again, hlast, hoffers⟩ := hbefore _ rfl
    exact ⟨portion, again, by rw [hother hanswer, hlast]; rfl, hoffers⟩
  | joined hanswer =>
    obtain ⟨portion, again, hlast, hoffers⟩ := hbefore _ rfl
    exact ⟨portion, again + 1, by rw [hother hanswer, hlast]; rfl, hoffers.reread rfl rfl⟩

/-- An operation that hands no portion out leaves an instruction as it was, or with a database that joined. -/
theorem Fate.offering {s : Store} {name : String} {op : Operation} (hfate : Fate s size now name id found op (some j))
    (hop : op.mayHandOut = false) : Offering none id found j := by
  cases hfate with
  | kept => exact .of_live rfl
  | joined => exact .joined fun _ => nofun
  | begun => cases hop
  | resumed => cases hop
  | continued => cases hop
  | advanced => cases hop

end Instruction

namespace Store

open Instruction (Offering)

variable {s s' : Store} {size : Nat} {now : UInt64} {name id : String} {j : Instruction}

/-- The first entries of an instruction that is stored are handed out, and the other instructions are as they were. -/
theorem offering_putInstruction {i : Instruction} {found : Option Instruction} {k : Nat}
    (hnext : i.nextPortion size = i.entries.take k) (hothers : s.instruction? id = some j → found = some j)
    (hj : (s.putInstruction (i.handOut now (i.nextPortion size))).instruction? id = some j) :
    Offering (some (i.id, i.nextPortion size)) id found j := by
  rw [instruction?_putInstruction] at hj
  split at hj
  · rename_i hid
    obtain rfl : i.id = id := hid
    obtain rfl := Option.some.inj hj
    exact .handedOut rfl (Instruction.offers_handOut hnext)
  · rename_i hid
    rw [hothers hj]
    refine .left fun portion hanswer => hid ?_
    exact congrArg Prod.fst (Option.some.inj hanswer)

namespace MigrationsSound

variable (hsound : s.MigrationsSound)
include hsound

/-- What a decision answers is what it hands out. -/
theorem offering_of_decide (hissued : ∀ id i, s.instruction? id = some i → i.Issued size) {h : Handshake}
    {outcome : RegistrationOutcome} (hok : s.decide now name size h.id h.dbType h.registration = .ok (outcome, s'))
    (hj : s'.instruction? id = some j) : Offering outcome.handedOut? id (s.instruction? id) j := by
  have htabled := hsound.tabled
  obtain ⟨-, hanswered⟩ := hsound.answered_of_decide hok
  cases hanswered with
  | created => exact .of_live hj
  | kept =>
    refine .of_live ?_
    simp only [keepRegistered] at hj
    split at hj
    · rw [instruction?_deleteInstruction] at hj
      split at hj
      · cases hj
      · exact hj
    · exact hj
  | updated => exact .of_live (htabled.instruction?_discardMigration.mp hj).1
  | @resumed current live _ hstored hroles hmultiusers hlive hnamed hsame hj' =>
    subst hj'
    have hcovers := (hsound.sound _ live.id live hlive rfl).covers
    obtain ⟨k, -, -, -, -, hnext⟩ := (hissued live.id live hlive).nextPortion_eq hcovers.distinct
    exact offering_putInstruction (i := live.retarget now (current.declare now h.registration)) hnext (fun hbefore => hbefore) hj
  | @begun current entries _ hstored hroles hmultiusers hneeds hpending hj' =>
    subst hj'
    have hothers : (s.discardMigration h.id).instruction? id = some j → s.instruction? id = some j :=
      fun hbefore => (htabled.instruction?_discardMigration.mp hbefore).1
    exact offering_putInstruction (i := .onto name now (current.declare now h.registration) entries) rfl hothers hj

/-- So it is with an acknowledgement: one that fails and one that completes the migration hand nothing out. -/
theorem offering_of_acknowledged {physicalDatabaseId instructionId : String} {ack : Acknowledgement}
    {answer : Except RegistryError MigrationStep}
    (hcase : s.Acknowledged now size physicalDatabaseId instructionId ack answer s') (hj : s'.instruction? id = some j) :
    Offering (answer.toOption.bind (·.handedOut?)) id (s.instruction? id) j := by
  cases hcase with
  | unknown => exact .of_live hj
  | failed =>
    rw [instruction?_deleteInstruction] at hj
    split at hj
    · cases hj
    · exact .of_live hj
  | @applied i i' s₁ s' step hlive hp hfailure happly hadvance =>
    obtain rfl : i.id = instructionId := hsound.tabled.instruction_id _ _ hlive
    have hadvanced := hsound.advanced hlive happly hadvance
    by_cases hentries : (i.without (ack.successes.map (·.databaseId))).entries = []
    · obtain ⟨_, _, -, -, rfl, -, hinstructions, -⟩ := hadvanced.completed hentries
      rw [instruction?, hinstructions, KeyMap.get?_erase] at hj
      split at hj
      · cases hj
      · exact .of_live hj
    · obtain ⟨rfl, -, hinstructions, -⟩ := hadvanced.pending _ rfl hentries
      rw [instruction?, hinstructions, KeyMap.get?_insert] at hj
      split at hj
      · rename_i hid
        subst hid
        obtain rfl := Option.some.inj hj
        let rest := i.without (ack.successes.map (·.databaseId))
        have hoffers : (rest.handOut now (rest.nextPortion size)).reread.Offers (rest.nextPortion size) 0 :=
          Instruction.offers_handOut rfl
        exact .handedOut rfl hoffers
      · rename_i hid
        rw [show s.instruction? id = some j from hj]
        exact .left fun portion hanswer => hid (congrArg Prod.fst (Option.some.inj hanswer))

/-- And with a request for the next portion, which hands the portion out again. -/
theorem offering_of_nextPortion (hissued : ∀ id i, s.instruction? id = some i → i.Issued size) {instructionId : String}
    {step : MigrationStep} (hok : s.nextPortion now size instructionId = .ok (step, s')) (hj : s'.instruction? id = some j) :
    Offering step.handedOut? id (s.instruction? id) j := by
  obtain ⟨i, hi, hadvance⟩ := nextPortion_eq_ok hok
  have hsoundLive := hsound.sound _ _ i hi rfl
  rw [advance_of_pending hsoundLive.pending] at hadvance
  cases hadvance
  obtain ⟨k, -, -, -, -, hnext⟩ := (hissued _ i hi).nextPortion_eq hsoundLive.covers.distinct
  exact offering_putInstruction hnext (fun hbefore => hbefore) hj

end MigrationsSound

end Store

namespace Broker

variable {env : Surroundings} {b : Broker} {now : UInt64} {op : Operation} {id : String} {j : Instruction}

/-- What an operation hands out is what its instruction offers, and the other instructions offer what they offered. -/
theorem offering_run (hconsistent : b.Consistent env)
    (hissued : ∀ id i, b.store.instruction? id = some i → i.Issued env.portionSize)
    (hj : (b.run env now op).store.instruction? id = some j) :
    Instruction.Offering (b.handsOut? env now op) id (b.store.instruction? id) j := by
  have hsound := hconsistent.migrations
  have hfate := (b.effect env now op).instruction_fate hconsistent id
  rw [hj] at hfate
  cases op with
  | decide h =>
    by_cases hawaits : h ∈ b.awaiting
    · cases hok : b.store.decide now (env.instructionName b.names.instructions) env.portionSize h.id h.dbType h.registration with
      | error e =>
        simp only [run, decide, if_pos hawaits, hok] at hj
        simp only [handsOut?, if_pos hawaits, hok]
        exact .of_live hj
      | ok out =>
        rw [store_run_decide hawaits hok] at hj
        simp only [handsOut?, if_pos hawaits, hok]
        exact hsound.offering_of_decide hissued hok hj
    · simp only [run, decide, if_neg hawaits] at hj
      simp only [handsOut?, if_neg hawaits]
      exact .of_live hj
  | acknowledge physicalDatabaseId instructionId ack =>
    exact hsound.offering_of_acknowledged (b.store.acknowledged now env.portionSize physicalDatabaseId instructionId ack) hj
  | nextPortion instructionId =>
    cases hok : b.store.nextPortion now env.portionSize instructionId with
    | error e =>
      simp only [run, keep, hok] at hj
      simp only [handsOut?, hok]
      exact .of_live hj
    | ok out =>
      simp only [run, keep, hok] at hj
      simp only [handsOut?, hok]
      exact hsound.offering_of_nextPortion hissued hok hj
  | _ => exact hfate.offering rfl

/-- After every history the first entries of each live instruction are the portion of it that was handed out last, as it was read
back when it was handed out and since. -/
theorem offers_replay (env : Surroundings) (events : List Event) :
    ∀ id i, (replay env events).store.instruction? id = some i →
      ∃ portion again, Broker.start.lastHandedOut? env id events = some portion ∧ i.Offers portion again := by
  induction events using List.reverseRecOn with
  | nil =>
    intro id i hi
    simp [replay, runAll, Broker.start, instruction?, Store.empty] at hi
  | append_singleton events e ih =>
    intro id j hj
    rw [replay_append] at hj
    rw [lastHandedOut?_append]
    exact (offering_run (consistent_replay env events) (issued_replay env events) hj).offers (ih id)

end Broker

end DatabaseBroker
