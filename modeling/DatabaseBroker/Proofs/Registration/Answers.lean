import DatabaseBroker.Proofs.Registration.AdapterAddresses
import DatabaseBroker.Proofs.Registration.Decisions

/-!
# Answers to a handshake

`Store.register` is a handshake whose adapter answers and whose two steps follow one another. What it is answered depends on what
is registered under its id: a declaration that agrees with it and no migration (`Store.Settled`), or a migration that leads to it
(`Instruction.LeadsTo`). In both cases the handshake is refused when its address is another physical database's.
-/

namespace DatabaseBroker

/-- The adapter runs, and neither the id nor the address is blank. -/
structure Handshake.Admissible (h : Handshake) : Prop where
  status : h.registration.status = .run
  id : Text.isBlank h.id = false
  address : Text.isBlank h.registration.adapterAddress = false

namespace PhysicalDatabase

variable {p : PhysicalDatabase} {r : Registration}

/-- A declaration agrees with the physical database that is registered with it. -/
theorem agreesWith_register (id dbType : String) (global : Bool) (now : UInt64) (r : Registration) :
    (register id dbType global now r).agreesWith r = true := by
  simp [agreesWith, register]

/-- So it does with the one that declares it. -/
theorem agreesWith_declare (p : PhysicalDatabase) (now : UInt64) (r : Registration) :
    (p.declare now r).agreesWith r = true := by
  simp [agreesWith, declare]

/-- Declarations that agree are of the same roles. -/
theorem roleSet_of_agreesWith (h : p.agreesWith r = true) : p.metadata.roleSet = r.metadata.roleSet := by
  simp only [agreesWith, Bool.and_eq_true, beq_iff_eq] at h
  exact h.2

/-- They both make users for every role, or neither does. -/
theorem supportsMultiusers_of_agreesWith (h : p.agreesWith r = true) :
    p.metadata.supportsMultiusers = r.metadata.supportsMultiusers := by
  simp only [agreesWith, Bool.and_eq_true, beq_iff_eq] at h
  rw [AdapterMetadata.supportsMultiusers, AdapterMetadata.supportsMultiusers, h.1.2]

end PhysicalDatabase

namespace Store

/-- A handshake whose adapter answers, with nothing between its two steps. -/
def register (s : Store) (now : UInt64) (name : String) (size : Nat) (h : Handshake) :
    Except RegistryError (RegistrationOutcome × Store) :=
  match s.precheck h.id h.dbType h.registration with
  | .error e => .error e
  | .ok (some p) => .ok (.unchanged p, s)
  | .ok none => s.decide now name size h.id h.dbType h.registration

/-- It is what a control plane answers when the adapter is reachable. -/
theorem register_eq_controlPlane {c : ControlPlane} {now : UInt64} {h : Handshake}
    (hreachable : c.faults.get? h.registration.adapterAddress = none) :
    (c.register now h.id h.dbType h.registration).1 =
        (c.store.register now c.nextInstruction c.portionSize h).map (·.1) ∧
      ∀ outcome s, c.store.register now c.nextInstruction c.portionSize h = .ok (outcome, s) →
        (c.register now h.id h.dbType h.registration).2.store = s := by
  unfold ControlPlane.register register
  cases c.store.precheck h.id h.dbType h.registration with
  | error e => exact ⟨rfl, fun _ _ => nofun⟩
  | ok found =>
    cases found with
    | some p => exact ⟨rfl, fun outcome s hok => by cases hok; rfl⟩
    | none =>
      simp only [ControlPlane.probe, hreachable, ControlPlane.nextInstruction_probed]
      cases c.store.decide now c.nextInstruction c.portionSize h.id h.dbType h.registration with
      | error e => exact ⟨rfl, fun _ _ => nofun⟩
      | ok out => exact ⟨rfl, fun outcome s hok => by cases hok; rfl⟩

variable {s : Store} {h : Handshake}

/-! ## The first step -/

/-- A handshake that passes the first step is admissible. -/
theorem admissible_of_precheck {found : Option PhysicalDatabase}
    (hok : s.precheck h.id h.dbType h.registration = .ok found) : h.Admissible := by
  cases hstatus : h.registration.status with
  | unknown => simp [precheck, bind, Except.bind, hstatus] at hok
  | run =>
    cases hid : Text.isBlank h.id with
    | true => simp [precheck, bind, Except.bind, hstatus, hid] at hok
    | false =>
      cases haddress : Text.isBlank h.registration.adapterAddress with
      | true => simp [precheck, bind, Except.bind, hstatus, haddress] at hok
      | false => exact ⟨hstatus, hid, haddress⟩

/-- The first step of an admissible handshake depends on its identity and on what is registered. -/
theorem precheck_eq (hadmissible : h.Admissible) :
    s.precheck h.id h.dbType h.registration = (s.checkIdentity h.id h.dbType h.registration).map fun _ =>
      (s.physical? h.id).filter fun p => p.agreesWith h.registration && (s.abandoned? p).isNone := by
  simp only [precheck, bind, Except.bind, hadmissible.status, hadmissible.id, hadmissible.address]
  cases s.checkIdentity h.id h.dbType h.registration <;> rfl

/-- The identity passes when the type is the one that is registered and no other physical database has the address. -/
theorem checkIdentity_of_free (htabled : s.Tabled) (htype : ∀ p, s.physical? h.id = some p → p.dbType = h.dbType)
    (hfree : s.AddressFree h.registration.adapterAddress h.id) :
    s.checkIdentity h.id h.dbType h.registration = .ok () := by
  have hsame : (s.physical? h.id).filter (·.dbType ≠ h.dbType) = none :=
    Option.filter_eq_none_iff.mpr fun p hp => by simpa using htype p hp
  have hother : s.physicalList.find? (fun p => p.id ≠ h.id && p.adapterAddress = h.registration.adapterAddress) = none := by
    refine List.find?_eq_none.mpr fun p hp => ?_
    obtain ⟨id, hstored⟩ := KeyMap.mem_values_iff.mp hp
    have hid : p.id = id := htabled.physical_id id p hstored
    simpa using fun hne haddress => hne (hid.trans (hfree id p hstored haddress))
  simp only [checkIdentity, hsame, hother]

/-- It is refused when the type is the one that is registered and another physical database has the address. -/
theorem checkIdentity_of_taken (htabled : s.Tabled) (htype : ∀ p, s.physical? h.id = some p → p.dbType = h.dbType)
    (htaken : ¬ s.AddressFree h.registration.adapterAddress h.id) :
    ∃ holder, s.checkIdentity h.id h.dbType h.registration =
      .error (.conflict (.addressTaken h.registration.adapterAddress holder)) := by
  have hsame : (s.physical? h.id).filter (·.dbType ≠ h.dbType) = none :=
    Option.filter_eq_none_iff.mpr fun p hp => by simpa using htype p hp
  cases hfound : s.physicalList.find? fun p => p.id ≠ h.id && p.adapterAddress = h.registration.adapterAddress with
  | some other => exact ⟨other.id, by simp only [checkIdentity, hsame, hfound]⟩
  | none =>
    refine absurd (fun id p hp haddress => ?_) htaken
    have hid : p.id = id := htabled.physical_id id p hp
    have hnone := List.find?_eq_none.mp hfound p (KeyMap.mem_values_iff.mpr ⟨id, hp⟩)
    simpa [haddress, hid] using hnone

/-- What a handshake is answered: an outcome, when no other physical database has its address, and otherwise a refusal. -/
def Answers (s : Store) (size : Nat) (h : Handshake) (P : RegistrationOutcome → Store → Prop) : Prop :=
  (s.AddressFree h.registration.adapterAddress h.id →
    ∀ now name, ∃ outcome s', s.register now name size h = .ok (outcome, s') ∧ P outcome s') ∧
  (¬ s.AddressFree h.registration.adapterAddress h.id →
    ∃ holder, ∀ now name, s.register now name size h =
      .error (.conflict (.addressTaken h.registration.adapterAddress holder)))

/-- What follows from an answer follows from it. -/
theorem Answers.imp {size : Nat} {P Q : RegistrationOutcome → Store → Prop} (hanswers : s.Answers size h P)
    (himp : ∀ outcome s', P outcome s' → Q outcome s') : s.Answers size h Q := by
  refine ⟨fun hfree now name => ?_, hanswers.2⟩
  obtain ⟨outcome, s', hok, hp⟩ := hanswers.1 hfree now name
  exact ⟨outcome, s', hok, himp outcome s' hp⟩

/-- An address that is taken refuses the handshake, whatever it would have been answered. -/
theorem answers_of_free (htabled : s.Tabled) (hadmissible : h.Admissible)
    (htype : ∀ p, s.physical? h.id = some p → p.dbType = h.dbType) {size : Nat} {P : RegistrationOutcome → Store → Prop}
    (hfree : s.checkIdentity h.id h.dbType h.registration = .ok () →
      ∀ now name, ∃ outcome s', s.register now name size h = .ok (outcome, s') ∧ P outcome s') :
    s.Answers size h P := by
  refine ⟨fun haddress => hfree (checkIdentity_of_free htabled htype haddress), fun htaken => ?_⟩
  obtain ⟨holder, hrefused⟩ := checkIdentity_of_taken htabled htype htaken
  refine ⟨holder, fun now name => ?_⟩
  rw [register, precheck_eq hadmissible, hrefused]
  rfl

/-! ## What is registered -/

/-- What is registered agrees with the declaration of a handshake, and no migration is live. -/
structure Settled (s : Store) (h : Handshake) : Prop where
  registered : ∃ p, s.physical? h.id = some p ∧ p.dbType = h.dbType ∧ p.agreesWith h.registration = true
  unmigrated : ∀ id i, s.instruction? id = some i → i.physicalDatabaseId ≠ h.id

namespace Settled

/-- A physical database that no instruction names has no migration to abandon. -/
theorem abandoned?_eq_none (hsettled : s.Settled h) (htabled : s.Tabled) {p : PhysicalDatabase}
    (hp : s.physical? h.id = some p) : s.abandoned? p = none := by
  have hnone : s.instructionFor? p.id = none := by
    rw [Option.eq_none_iff_forall_ne_some]
    intro i hi
    obtain ⟨hstored, hnamed⟩ := htabled.instructionFor?_eq_some_iff.mp hi
    exact hsettled.unmigrated i.id i hstored (hnamed.trans (htabled.physical_id _ _ hp))
  rw [abandoned?, hnone, Option.filter_none]

/-- A handshake that is settled is answered as unchanged, with what is registered, and changes nothing. -/
theorem answers (hsettled : s.Settled h) (htabled : s.Tabled) (hadmissible : h.Admissible) (size : Nat) :
    s.Answers size h fun outcome s' => s' = s ∧ ∃ p, s.physical? h.id = some p ∧ outcome = .unchanged p := by
  obtain ⟨p, hp, htype, hagrees⟩ := hsettled.registered
  refine answers_of_free htabled hadmissible (fun q hq => ?_) fun hidentity now name => ⟨.unchanged p, s, ?_, rfl, p, hp, rfl⟩
  · rw [← Option.some.inj (hp.symm.trans hq)]
    exact htype
  · have hnone := hsettled.abandoned?_eq_none htabled hp
    simp only [register, precheck_eq hadmissible, hidentity, Except.map, hp, Option.filter_some, hagrees, hnone,
      Option.isNone_none, Bool.and_self, if_true]

/-- So is its decision. -/
theorem decide_eq (hsettled : s.Settled h) (htabled : s.Tabled) {now : UInt64} {name : String} {size : Nat}
    {outcome : RegistrationOutcome} {s' : Store}
    (hok : s.decide now name size h.id h.dbType h.registration = .ok (outcome, s')) : s' = s := by
  obtain ⟨p, hp, -, hagrees⟩ := hsettled.registered
  obtain ⟨-, hdecided⟩ := decided_of_decide hok
  cases hdecided with
  | created hnew =>
    rw [hp] at hnew
    cases hnew
  | kept hstored =>
    rw [keepRegistered, hsettled.abandoned?_eq_none htabled hstored]
  | updated hstored hdiffers =>
    rw [← Option.some.inj (hp.symm.trans hstored), hagrees] at hdiffers
    cases hdiffers
  | resumed hstored hdiffers =>
    rw [← Option.some.inj (hp.symm.trans hstored), hagrees] at hdiffers
    cases hdiffers
  | begun hstored hdiffers =>
    rw [← Option.some.inj (hp.symm.trans hstored), hagrees] at hdiffers
    cases hdiffers

end Settled

end Store

namespace Instruction

/-- The migration leads to the declaration of a handshake. -/
structure LeadsTo (i : Instruction) (h : Handshake) : Prop where
  physicalDatabaseId : i.physicalDatabaseId = h.id
  dbType : i.target.dbType = h.dbType
  agrees : i.target.agreesWith h.registration = true

/-- So does any other with its target. -/
theorem LeadsTo.of_target {i j : Instruction} {h : Handshake} (hleads : i.LeadsTo h)
    (hp : j.physicalDatabaseId = i.physicalDatabaseId) (htarget : j.target = i.target) : j.LeadsTo h :=
  ⟨hp.trans hleads.physicalDatabaseId, htarget ▸ hleads.dbType, htarget ▸ hleads.agrees⟩

end Instruction

namespace Store.MigrationsSound

variable {s : Store} {h : Handshake} {i : Instruction}

/-- A declaration to which a migration leads goes on with it: what was handed out is handed out again. -/
theorem decide_of_leadsTo (hsound : s.MigrationsSound) (hi : s.instruction? i.id = some i) (hleads : i.LeadsTo h)
    (hidentity : s.checkIdentity h.id h.dbType h.registration = .ok ()) (now : UInt64) (name : String) (size : Nat) :
    ∃ p, s.physical? h.id = some p ∧ s.decide now name size h.id h.dbType h.registration =
      .ok (.migrationPending ((i.retarget now (p.declare now h.registration)).handOut now (i.nextPortion size)).reread
          (i.nextPortion size) true,
        s.putInstruction ((i.retarget now (p.declare now h.registration)).handOut now (i.nextPortion size))) := by
  have hfits := (hsound.sound _ i.id i hi rfl).fits
  obtain ⟨p, hp, -, hroles⟩ := hfits.registered
  rw [hleads.physicalDatabaseId] at hp
  have hsame := PhysicalDatabase.roleSet_of_agreesWith hleads.agrees
  have hlive : s.instructionFor? p.id = some i :=
    hsound.tabled.instructionFor?_eq_some_iff.mpr
      ⟨hi, hleads.physicalDatabaseId.trans (hsound.tabled.physical_id _ _ hp).symm⟩
  refine ⟨p, hp, decide_of_live hidentity hp ?_ ?_ hlive hsame (hsound.sound _ i.id i hi rfl).pending⟩
  · rw [← hsame]
    exact hroles.symm
  · rw [← PhysicalDatabase.supportsMultiusers_of_agreesWith hleads.agrees]
    exact hfits.multiusers

/-- A handshake to which a migration leads is answered with that migration and with what was handed out. -/
theorem answers_of_leadsTo (hsound : s.MigrationsSound) (hi : s.instruction? i.id = some i) (hleads : i.LeadsTo h)
    (hadmissible : h.Admissible) (size : Nat) :
    s.Answers size h fun outcome _ => ∃ i', outcome = .migrationPending i' (i.nextPortion size) true ∧ i'.id = i.id := by
  have hfits := (hsound.sound _ i.id i hi rfl).fits
  obtain ⟨p, hp, htype, hroles⟩ := hfits.registered
  rw [hleads.physicalDatabaseId] at hp
  refine answers_of_free hsound.tabled hadmissible (fun q hq => ?_) fun hidentity now name => ?_
  · rw [← Option.some.inj (hp.symm.trans hq), ← htype]
    exact hleads.dbType
  · have hdiffers : p.agreesWith h.registration = false := by
      refine Bool.eq_false_iff.mpr fun hagrees => hroles ?_
      rw [PhysicalDatabase.roleSet_of_agreesWith hleads.agrees, PhysicalDatabase.roleSet_of_agreesWith hagrees]
    obtain ⟨q, hq, hdecide⟩ := hsound.decide_of_leadsTo hi hleads hidentity now name size
    have hasked : s.register now name size h = s.decide now name size h.id h.dbType h.registration := by
      simp only [register, precheck_eq hadmissible, hidentity, Except.map, hp, Option.filter_some, hdiffers, Bool.false_and,
        Bool.false_eq_true, if_false]
    exact ⟨_, _, hasked.trans hdecide, _, rfl, rfl⟩

end Store.MigrationsSound

end DatabaseBroker
