import DatabaseBroker.Proofs.Migration.Portions
import DatabaseBroker.Proofs.Registration.Answers

/-!
# What a handshake comes to, and what stays of it

A decision that stores a declaration, or finds it stored, leaves the handshake settled; one that answers with a migration leaves a
migration that leads to the handshake and has the portion handed out. Operations that spare the handshake (`Operation.Spares`)
keep both: a settled one stays settled (`Broker.settled_run`), and the migration goes on with its portion until it is acknowledged
(`Broker.offers_run`). The acknowledgement that completes it settles the handshake (`Broker.settled_of_completes`). The address
stays free meanwhile, except where the migration of another physical database is completed onto it
(`Broker.addressFree_run_iff`).
-/

namespace DatabaseBroker

open Store

namespace Operation

/-- An operation spares a handshake: it decides no other one of the id or of the address, and does not deregister the id. -/
def Spares (h : Handshake) : Operation → Prop
  | .decide h' => h' = h ∨ (h'.id ≠ h.id ∧ h'.registration.adapterAddress ≠ h.registration.adapterAddress)
  | .deregister id => id ≠ h.id
  | _ => True

/-- An operation acknowledges an instruction. -/
def Acknowledges (id : String) : Operation → Prop
  | .acknowledge _ instructionId _ => instructionId = id
  | _ => False

/-- A handshake that is decided among operations that spare another one is that one, or of another id. -/
theorem Spares.eq_of_id {h h' : Handshake} (hspares : (decide h').Spares h) (hid : h'.id = h.id) : h' = h := by
  rcases hspares with heq | ⟨hne, -⟩
  · exact heq
  · exact absurd hid hne

end Operation

/-- Each of the events spares a handshake. -/
def Spared (h : Handshake) (events : List Event) : Prop := ∀ e ∈ events, e.operation.Spares h

namespace Instruction

variable {i : Instruction} {size : Nat} {now : UInt64}

/-- Whatever becomes of a migration while its handshake is spared, it leads where it led. -/
theorem Fate.leadsTo {s : Store} {name id : String} {found : Option Instruction} {op : Operation} {h : Handshake}
    (hfate : Fate s size now name id (some i) op found) (hfits : i.Fits s) (hspares : op.Spares h) (hleads : i.LeadsTo h) :
    ∀ j, found = some j → j.LeadsTo h := by
  cases hfate with
  | kept =>
    rintro _ ⟨⟩
    exact hleads
  | @resumed _ h' p hid hp hroles =>
    rintro _ ⟨⟩
    obtain rfl := hspares.eq_of_id (hid.trans hleads.physicalDatabaseId)
    obtain ⟨q, hq, htype, -⟩ := hfits.registered
    obtain rfl : p = q := Option.some.inj (hp.symm.trans (hid ▸ hq))
    exact ⟨hleads.physicalDatabaseId, htype.symm.trans hleads.dbType, p.agreesWith_declare now _⟩
  | superseded => exact fun _ => nofun
  | joined =>
    rintro _ ⟨⟩
    exact hleads.of_target rfl rfl
  | continued =>
    rintro _ ⟨⟩
    exact hleads.of_target rfl rfl
  | advanced hj =>
    rintro _ ⟨⟩
    subst hj
    exact hleads.of_target rfl rfl
  | ended => exact fun _ => nofun
  | deregistered => exact fun _ => nofun

end Instruction

/-! ## After the decision -/

namespace Store.MigrationsSound

variable {s s' : Store} {h : Handshake} {now : UInt64} {name : String} {size : Nat} {outcome : RegistrationOutcome}

/-- A declaration that is registered settles its handshake: no migration names a physical database that was not there. -/
theorem settled_registerNew (hsound : s.MigrationsSound) (hnew : s.physical? h.id = none) :
    (s.registerNew now h.id h.dbType h.registration).2.Settled h ∧
      (s.registerNew now h.id h.dbType h.registration).2.physical? h.id =
        some (.register h.id h.dbType (s.globalOf? h.dbType).isNone now h.registration) := by
  have hstored : (s.registerNew now h.id h.dbType h.registration).2.physical? h.id =
      some (.register h.id h.dbType (s.globalOf? h.dbType).isNone now h.registration) := by
    rw [registerNew, physical?_putPhysical, if_pos (by rfl)]
  refine ⟨⟨⟨_, hstored, rfl, PhysicalDatabase.agreesWith_register ..⟩, fun id i hi hp => ?_⟩, hstored⟩
  obtain ⟨q, hq, -⟩ := (hsound.sound _ id i hi rfl).fits.registered
  rw [hp, hnew] at hq
  cases hq

/-- A declaration that is stored in place settles its handshake, as the migration is discarded. -/
theorem settled_updateInPlace (htabled : s.Tabled) {p : PhysicalDatabase} (hid : p.id = h.id) (htype : p.dbType = h.dbType)
    (hagrees : p.agreesWith h.registration = true) :
    (s.updateInPlace p).2.Settled h ∧ (s.updateInPlace p).2.physical? h.id = some p := by
  have hput : (s.updateInPlace p).2.physical? h.id = some p := by
    rw [Store.updateInPlace, physical?_putPhysical, if_pos hid]
  exact ⟨⟨⟨p, hput, htype, hagrees⟩, fun id i hi hp => (htabled.instruction?_discardMigration.mp hi).2 (hp.trans hid.symm)⟩,
    hput⟩

/-- A migration leads to other roles than those that are stored, so a declaration of the stored ones abandons it. -/
theorem abandoned?_eq_some (hsound : s.MigrationsSound) {p : PhysicalDatabase} (hp : s.physical? p.id = some p) {id : String}
    {i : Instruction} (hi : s.instruction? id = some i) (hnamed : i.physicalDatabaseId = p.id) : s.abandoned? p = some i := by
  obtain ⟨q, hq, -, hroles⟩ := (hsound.sound _ id i hi rfl).fits.registered
  obtain rfl : p = q := Option.some.inj (hp.symm.trans (hnamed ▸ hq))
  obtain rfl : i.id = id := hsound.tabled.instruction_id _ _ hi
  exact Option.filter_eq_some_iff.mpr ⟨hsound.tabled.instructionFor?_eq_some_iff.mpr ⟨hi, hnamed⟩, decide_eq_true hroles⟩

/-- A declaration that is found stored settles its handshake, as the migration is abandoned. -/
theorem settled_keepRegistered (hsound : s.MigrationsSound) {p : PhysicalDatabase} (hp : s.physical? h.id = some p)
    (htype : p.dbType = h.dbType) (hagrees : p.agreesWith h.registration = true) :
    (s.keepRegistered p).2.Settled h ∧ (s.keepRegistered p).2.physical? h.id = some p := by
  have hid : p.id = h.id := hsound.tabled.physical_id _ _ hp
  rw [← hid] at hp
  simp only [keepRegistered]
  split
  · rename_i stale hstale
    have hkept : (s.deleteInstruction stale.id).physical? h.id = some p := by
      obtain ⟨index, heq⟩ := s.deleteInstruction_eq stale.id
      rw [heq, ← hid]
      exact hp
    refine ⟨⟨⟨p, hkept, htype, hagrees⟩, fun id i hi hnamed => ?_⟩, hkept⟩
    rw [instruction?_deleteInstruction] at hi
    split at hi
    · cases hi
    · rename_i hne
      rw [hsound.abandoned?_eq_some hp hi (hnamed.trans hid.symm)] at hstale
      exact hne (Option.some.inj hstale ▸ hsound.tabled.instruction_id _ _ hi)
  · rename_i hnone
    rw [hid] at hp
    refine ⟨⟨⟨p, hp, htype, hagrees⟩, fun id i hi hnamed => ?_⟩, hp⟩
    rw [hsound.abandoned?_eq_some (hid ▸ hp) hi (hnamed.trans hid.symm)] at hnone
    cases hnone

/-- A handshake that stores its declaration, or finds it stored, is settled. -/
theorem settled_of_decide (hsound : s.MigrationsSound)
    (hok : s.decide now name size h.id h.dbType h.registration = .ok (outcome, s')) {p : PhysicalDatabase}
    (houtcome : outcome = .created p ∨ outcome = .updated p ∨ outcome = .unchanged p) :
    s'.Settled h ∧ s'.physical? h.id = some p := by
  have htabled := hsound.tabled
  obtain ⟨hidentity, hanswered⟩ := hsound.answered_of_decide hok
  have htype := (checkIdentity_eq_ok hidentity).1
  cases hanswered with
  | created hnew =>
    obtain rfl : p = .register h.id h.dbType (s.globalOf? h.dbType).isNone now h.registration := by
      simpa [registerNew, eq_comm] using houtcome
    exact hsound.settled_registerNew hnew
  | @kept current hstored hagrees =>
    obtain rfl : p = current := by simpa [eq_comm] using houtcome
    exact hsound.settled_keepRegistered hstored (htype p hstored) hagrees
  | @updated current hstored hdiffers =>
    obtain rfl : p = current.declare now h.registration := by simpa [eq_comm] using houtcome
    exact settled_updateInPlace htabled (htabled.physical_id h.id current hstored) (htype current hstored)
      (current.agreesWith_declare now _)
  | resumed => simp at houtcome
  | begun => simp at houtcome

/-- A migration that is stored with its first entries handed out leads where it led. -/
theorem underWay_of_handOut {i : Instruction} {k : Nat} (hleads : i.LeadsTo h) (hentries : i.entries ≠ []) (hk : 0 < k)
    (hnext : i.nextPortion size = i.entries.take k) :
    i.nextPortion size ≠ [] ∧
      ∃ j, (s.putInstruction (i.handOut now (i.nextPortion size))).instruction? i.id = some j ∧ j.LeadsTo h ∧
        j.Offers (i.nextPortion size) 0 := by
  refine ⟨?_, (i.handOut now (i.nextPortion size)).reread, ?_, hleads.of_target rfl rfl, Instruction.offers_handOut hnext⟩
  · rw [hnext]
    simpa using ⟨Nat.ne_of_gt hk, hentries⟩
  · rw [instruction?_putInstruction, if_pos (by rfl)]

/-- A handshake that is answered with a migration leads to it, and is handed its first entries. -/
theorem underWay_of_decide (hsound : s.MigrationsSound) (hissued : ∀ id i, s.instruction? id = some i → i.Issued size)
    (hpos : 0 < size) {i : Instruction} {portion : List AdditionalRoles} {resumed : Bool}
    (hok : s.decide now name size h.id h.dbType h.registration = .ok (.migrationPending i portion resumed, s')) :
    portion ≠ [] ∧ ∃ j, s'.instruction? i.id = some j ∧ j.LeadsTo h ∧ j.Offers portion 0 := by
  obtain ⟨hidentity, hanswered⟩ := hsound.answered_of_decide hok
  have htype := (checkIdentity_eq_ok hidentity).1
  generalize houtcome : RegistrationOutcome.migrationPending i portion resumed = outcome at hanswered
  cases hanswered with
  | created => cases houtcome
  | kept => cases houtcome
  | updated => cases houtcome
  | @resumed current live j hstored hroles hmultiusers hlive hnamed hsame hj =>
    have hsoundLive := hsound.sound _ live.id live hlive rfl
    obtain ⟨k, hk, -, -, -, hnext⟩ := (hissued live.id live hlive).nextPortion_eq hsoundLive.covers.distinct
    have hleads : (live.retarget now (current.declare now h.registration)).LeadsTo h :=
      ⟨hnamed, htype current hstored, current.agreesWith_declare now _⟩
    cases houtcome
    subst hj
    exact underWay_of_handOut hleads hsoundLive.pending hk hnext
  | @begun current entries j hstored hroles hmultiusers hneeds hpending hj =>
    have hleads : (Instruction.onto name now (current.declare now h.registration) entries).LeadsTo h :=
      ⟨hsound.tabled.physical_id h.id current hstored, htype current hstored, current.agreesWith_declare now _⟩
    cases houtcome
    subst hj
    exact underWay_of_handOut hleads hpending hpos rfl

end Store.MigrationsSound

/-! ## Meanwhile -/

namespace Broker

variable {env : Surroundings} {b : Broker} {h : Handshake} {id : String} {now : UInt64} {op : Operation}

/-- Handshakes that await their decision are admissible. -/
theorem admissible_of_awaiting (env : Surroundings) (events : List Event) :
    ∀ h ∈ (replay env events).awaiting, h.Admissible := by
  refine replay_invariant (P := fun b => ∀ h ∈ b.awaiting, h.Admissible) (fun h hh => by cases hh) fun e _ b hall => ?_
  have herased : ∀ h', ∀ h ∈ b.awaiting.erase h', h.Admissible := fun h' h hh => hall h (List.mem_of_mem_erase hh)
  by_cases hop : ∃ h probe, e.operation = .precheck h probe
  · obtain ⟨h', probe, hop⟩ := hop
    simp only [hop, run, precheck]
    split
    · rename_i hok
      rintro h (_ | ⟨_, hh⟩)
      · exact admissible_of_precheck hok
      · exact hall h hh
    · exact hall
  · have heffect := b.effect env e.time e.operation
    generalize e.operation = op, b.run env e.time e.operation = b' at heffect hop
    cases heffect with
    | checked => exact absurd ⟨_, _, rfl⟩ hop
    | undecided => exact herased _
    | decided => exact herased _
    | _ => exact hall

/-- A decision that is run leaves the store, or the one that the handshake comes to. -/
theorem store_run_decide_cases (env : Surroundings) (b : Broker) (now : UInt64) (h : Handshake) :
    (b.run env now (.decide h)).store = b.store ∨
      ∃ outcome, b.store.decide now (env.instructionName b.names.instructions) env.portionSize h.id h.dbType h.registration =
        .ok (outcome, (b.run env now (.decide h)).store) := by
  simp only [run, decide]
  split
  · split
    · exact Or.inl rfl
    · rename_i outcome s hok
      exact Or.inr ⟨outcome, hok⟩
  · exact Or.inl rfl

/-- Every operation of a list keeps a broker consistent. -/
theorem Consistent.runAll (hconsistent : b.Consistent env) (later : List Event) : (b.runAll env later).Consistent env :=
  runAll_invariant (fun e _ b h => h.effect (b.effect env e.time e.operation)) hconsistent

/-! ### While the migration is live -/

/-- A migration to which a handshake led goes on with its portion while the handshake is spared and nothing is acknowledged. -/
theorem offers_run (hconsistent : b.Consistent env) {i : Instruction} {portion : List AdditionalRoles} {again : Nat}
    (hi : b.store.instruction? id = some i) (hleads : i.LeadsTo h) (hoffers : i.Offers portion again) (hne : portion ≠ [])
    (hspares : op.Spares h) (hack : ¬ op.Acknowledges id) :
    ∃ j again, (b.run env now op).store.instruction? id = some j ∧ j.LeadsTo h ∧ j.Offers portion again := by
  have hsound := hconsistent.migrations.sound _ id i hi rfl
  have hfate := (b.effect env now op).instruction_fate hconsistent id
  rw [hi] at hfate
  have hleads' := hfate.leadsTo hsound.fits hspares hleads
  generalize hfound : (b.run env now op).store.instruction? id = found at hfate hleads'
  cases hfate with
  | kept => exact ⟨i, again, rfl, hleads, hoffers⟩
  | resumed => exact ⟨_, again + 1, rfl, hleads' _ rfl, hoffers.handOut hsound.covers.distinct hne _⟩
  | @superseded _ h' hid =>
    obtain rfl := hspares.eq_of_id (hid.trans hleads.physicalDatabaseId)
    obtain rfl : i.id = id := hconsistent.migrations.tabled.instruction_id _ _ hi
    rcases b.store_run_decide_cases env now h' with heq | ⟨outcome, hok⟩
    · rw [heq, hi] at hfound
      cases hfound
    · obtain ⟨p, -, hdecide⟩ := hconsistent.migrations.decide_of_leadsTo hi hleads (decided_of_decide hok).1 now
        (env.instructionName b.names.instructions) env.portionSize
      rw [hdecide] at hok
      rw [← (Prod.mk.inj (Except.ok.inj hok)).2, instruction?_putInstruction, if_pos (by rfl)] at hfound
      cases hfound
  | joined => exact ⟨_, again + 1, rfl, hleads' _ rfl, hoffers.reread rfl rfl⟩
  | continued =>
    have hkept : ((i.retarget now i.target).handOut now (i.nextPortion env.portionSize)).reread.Offers portion (again + 1) :=
      hoffers.handOut hsound.covers.distinct hne i.target
    exact ⟨_, again + 1, rfl, hleads' _ rfl, hkept⟩
  | advanced => exact absurd rfl hack
  | ended => exact absurd rfl hack
  | deregistered => exact absurd hleads.physicalDatabaseId hspares

/-- It does so over any number of such operations. -/
theorem offers_runAll (hconsistent : b.Consistent env) {i : Instruction} {portion : List AdditionalRoles} {again : Nat}
    (hi : b.store.instruction? id = some i) (hleads : i.LeadsTo h) (hoffers : i.Offers portion again) (hne : portion ≠ [])
    {later : List Event} (hspares : Spared h later) (hack : ∀ e ∈ later, ¬ e.operation.Acknowledges id) :
    ∃ j again, (b.runAll env later).store.instruction? id = some j ∧ j.LeadsTo h ∧ j.Offers portion again := by
  refine (runAll_invariant (P := fun b => b.Consistent env ∧
    ∃ j again, b.store.instruction? id = some j ∧ j.LeadsTo h ∧ j.Offers portion again) ?_
    ⟨hconsistent, i, again, hi, hleads, hoffers⟩).2
  rintro e he b ⟨hconsistent, j, again, hj, hleads, hoffers⟩
  exact ⟨hconsistent.effect (b.effect env e.time e.operation),
    offers_run hconsistent hj hleads hoffers hne (hspares e he) (hack e he)⟩

/-- The handshake is answered with the migration and with its portion, as it was read back. -/
theorem answers_of_offers (hconsistent : b.Consistent env) (hadmissible : h.Admissible) {i : Instruction}
    {portion : List AdditionalRoles} {again : Nat} (hi : b.store.instruction? id = some i) (hleads : i.LeadsTo h)
    (hoffers : i.Offers portion again) (hne : portion ≠ []) :
    b.store.Answers env.portionSize h fun answer _ =>
      ∃ i', answer = .migrationPending i' (portion.map (AdditionalRoles.reread^[again + 1])) true ∧ i'.id = id := by
  have hsound := hconsistent.migrations
  obtain rfl : i.id = id := hsound.tabled.instruction_id _ _ hi
  rw [← hoffers.nextPortion_eq (hsound.sound _ i.id i hi rfl).covers.distinct hne env.portionSize]
  exact hsound.answers_of_leadsTo hi hleads hadmissible env.portionSize

/-- Where the portion was handed out just now and the handshake is sent again at once, it is answered with that very portion only if
each value of its connection properties reads back as itself. -/
theorem steady_of_answers (hconsistent : b.Consistent env) (hadmissible : h.Admissible) {i : Instruction}
    {portion : List AdditionalRoles} (hi : b.store.instruction? id = some i) (hleads : i.LeadsTo h)
    (hoffers : i.Offers portion 0) (hne : portion ≠ []) (hfree : b.store.AddressFree h.registration.adapterAddress h.id)
    (hsame : b.store.Answers env.portionSize h fun answer _ => ∃ i', answer = .migrationPending i' portion true ∧ i'.id = id) :
    ∀ e ∈ portion, e.Steady := by
  obtain ⟨_, s₁, hsent, i₁, rfl, -⟩ := hsame.1 hfree 0 ""
  obtain ⟨_, s₂, hsent', i₂, rfl, -⟩ := (answers_of_offers hconsistent hadmissible hi hleads hoffers hne).1 hfree 0 ""
  have heq : portion.map AdditionalRoles.reread = portion := by
    have hsame := Except.ok.inj (hsent'.symm.trans hsent)
    simp only [Prod.mk.injEq, RegistrationOutcome.migrationPending.injEq] at hsame
    exact hsame.1.2.1
  exact fun e he => AdditionalRoles.reread_eq_self_iff.mp (map_eq_self_iff.mp heq e he)

/-- After any number of operations that spare the handshake and acknowledge nothing it is answered so. -/
theorem answers_runAll_of_offers (hconsistent : b.Consistent env) (hadmissible : h.Admissible) {i : Instruction}
    {portion : List AdditionalRoles} {again : Nat} (hi : b.store.instruction? id = some i) (hleads : i.LeadsTo h)
    (hoffers : i.Offers portion again) (hne : portion ≠ []) {later : List Event} (hspares : Spared h later)
    (hack : ∀ e ∈ later, ¬ e.operation.Acknowledges id) :
    (b.runAll env later).store.Answers env.portionSize h fun answer _ => ∃ i' again,
      answer = .migrationPending i' (portion.map (AdditionalRoles.reread^[again + 1])) true ∧ i'.id = id := by
  obtain ⟨j, again, hj, hleads, hoffers⟩ := offers_runAll hconsistent hi hleads hoffers hne hspares hack
  refine (answers_of_offers (hconsistent.runAll later) hadmissible hj hleads hoffers hne).imp ?_
  rintro answer - ⟨i', hanswer, hid⟩
  exact ⟨i', again, hanswer, hid⟩

/-! ### Until it is completed -/

/-- An instruction that was named leads to a handshake, if it is still live. -/
structure Leading (env : Surroundings) (h : Handshake) (id : String) (b : Broker) : Prop where
  named : ∃ n < b.names.instructions, env.instructionName n = id
  leads : ∀ i, b.store.instruction? id = some i → i.LeadsTo h

/-- Names that were given stay given. -/
theorem Effect.instructions_le {b' : Broker} (heffect : b.Effect env now op b') :
    b.names.instructions ≤ b'.names.instructions := by
  cases heffect with
  | decided =>
    dsimp only
    split
    · exact Nat.le_succ _
    · exact Nat.le_refl _
  | bound =>
    dsimp only
    split <;> exact Nat.le_refl _
  | _ => exact Nat.le_refl _

/-- While the handshake is spared, the instruction leads to it, as no other one gets its name. -/
theorem Leading.run (hleading : Leading env h id b) (hconsistent : b.Consistent env) (hspares : op.Spares h) :
    Leading env h id (b.run env now op) := by
  have heffect := b.effect env now op
  obtain ⟨n, hn, hname⟩ := hleading.named
  refine ⟨⟨n, Nat.lt_of_lt_of_le hn heffect.instructions_le, hname⟩, ?_⟩
  have hfate := heffect.instruction_fate hconsistent id
  cases hfound : b.store.instruction? id with
  | some i =>
    rw [hfound] at hfate
    exact hfate.leadsTo (hconsistent.migrations.sound _ id i hfound rfl).fits hspares (hleading.leads i hfound)
  | none =>
    rw [hfound] at hfate
    generalize (b.run env now op).store.instruction? id = found at hfate
    cases hfate with
    | kept => exact fun _ => nofun
    | begun hid =>
      have hsame : n = b.names.instructions := env.instructionName_injective (hname.trans hid)
      omega

/-- So it does over any number of operations. -/
theorem Leading.runAll (hleading : Leading env h id b) (hconsistent : b.Consistent env) {later : List Event}
    (hspares : Spared h later) : Leading env h id (b.runAll env later) := by
  refine (runAll_invariant (P := fun b => b.Consistent env ∧ Leading env h id b) ?_ ⟨hconsistent, hleading⟩).2
  rintro e he b ⟨hconsistent, hleading⟩
  exact ⟨hconsistent.effect (b.effect env e.time e.operation), hleading.run hconsistent (hspares e he)⟩

/-- A live instruction has a name that was given. -/
theorem leading_of_live (hconsistent : b.Consistent env) {i : Instruction} (hi : b.store.instruction? id = some i)
    (hleads : i.LeadsTo h) : Leading env h id b := by
  refine ⟨hconsistent.named.instructions id (by rw [hi]; rfl), fun j hj => ?_⟩
  rw [← Option.some.inj (hi.symm.trans hj)]
  exact hleads

/-- Only an acknowledgement that is taken completes a migration. -/
theorem acknowledged_of_completes (hconsistent : b.Consistent env) {p : PhysicalDatabase}
    (hcompletes : b.completes env now op = some p) :
    ∃ physicalDatabaseId instructionId ack, op = .acknowledge physicalDatabaseId instructionId ack ∧
      b.store.Acknowledged now env.portionSize physicalDatabaseId instructionId ack (.ok (.completed p))
        (b.run env now op).store := by
  cases op with
  | acknowledge physicalDatabaseId instructionId ack =>
    have hcase := b.store.acknowledged now env.portionSize physicalDatabaseId instructionId ack
    simp only [completes] at hcompletes
    split at hcompletes
    · rename_i hanswer
      obtain rfl := Option.some.inj hcompletes
      rw [hanswer] at hcase
      exact ⟨physicalDatabaseId, instructionId, ack, rfl, hcase⟩
    · cases hcompletes
  | nextPortion instructionId =>
    rw [completes_eq_none hconsistent (by simp)] at hcompletes
    cases hcompletes
  | _ => cases hcompletes

/-- The acknowledgement that completes a migration settles the handshake to which it leads. -/
theorem settled_of_completes (hconsistent : b.Consistent env) (hleads : ∀ i, b.store.instruction? id = some i → i.LeadsTo h)
    (hack : op.Acknowledges id) {p : PhysicalDatabase} (hcompletes : b.completes env now op = some p) :
    (b.run env now op).store.Settled h := by
  have hsound := hconsistent.migrations
  obtain ⟨physicalDatabaseId, instructionId, ack, rfl, hcase⟩ := acknowledged_of_completes hconsistent hcompletes
  obtain rfl : instructionId = id := hack
  generalize (b.run env now (.acknowledge physicalDatabaseId instructionId ack)).store = s' at hcase
  obtain ⟨i, hi⟩ : ∃ i, b.store.instruction? instructionId = some i := by
    cases hcase with
    | applied hlive => exact ⟨_, hlive⟩
  have hid : i.id = instructionId := hsound.tabled.instruction_id _ _ hi
  have hlead := hleads i hi
  obtain ⟨-, hadvanced, -⟩ := hsound.taken hi hcase
  have hentries : (i.without (ack.successes.map (·.databaseId))).entries = [] := by
    by_contra hne
    obtain ⟨hstep, -⟩ := hadvanced.pending _ rfl hne
    cases hstep
  obtain ⟨current, target, -, htarget, -, hphysicals, hinstructions, -⟩ := hadvanced.completed hentries
  refine ⟨⟨target, ?_, ?_, ?_⟩, fun id' i' hi' hp => ?_⟩
  · rw [physical?, hphysicals, hlead.physicalDatabaseId, KeyMap.get?_insert_self]
  · rw [htarget]
    exact hlead.dbType
  · rw [htarget]
    exact hlead.agrees
  · rw [instruction?, hinstructions, KeyMap.get?_erase] at hi'
    split at hi'
    · cases hi'
    · rename_i hne
      -- The physical database had one live instruction, which is gone.
      exact hne (hsound.tabled.instruction_unique (hid ▸ hi) hi' (hlead.physicalDatabaseId.trans hp.symm)).1

/-! ### When it is settled -/

/-- A handshake that is spared stays settled. -/
theorem settled_run (hconsistent : b.Consistent env) (hsettled : b.store.Settled h) (hspares : op.Spares h) :
    (b.run env now op).store.Settled h := by
  by_cases hop : op = .decide h
  · subst hop
    rcases b.store_run_decide_cases env now h with heq | ⟨outcome, hok⟩
    · rwa [heq]
    · rwa [hsettled.decide_eq hconsistent.migrations.tabled hok]
  have heffect := b.effect env now op
  -- No other decision is one of its id.
  have hother : ∀ h', op = .decide h' → h'.id ≠ h.id := by
    rintro h' rfl hid
    exact hop (congrArg Operation.decide (hspares.eq_of_id hid))
  obtain ⟨p, hp, htype, hagrees⟩ := hsettled.registered
  refine ⟨?_, fun id i hi => ?_⟩
  · have hfate := heffect.physical_fate hconsistent h.id
    rw [hp] at hfate
    generalize (b.run env now op).store.physical? h.id = found at hfate
    cases hfate with
    | kept => exact ⟨p, rfl, htype, hagrees⟩
    | declared hid => exact absurd hid (hother _ rfl)
    | flagged => exact ⟨_, rfl, htype, hagrees⟩
    | completed hi hid => exact absurd hid (hsettled.unmigrated _ _ hi)
    | deregistered => exact absurd rfl hspares
  · have hfate := heffect.instruction_fate hconsistent id
    rw [hi] at hfate
    have hkept : ∀ j, b.store.instruction? id = some j → j.physicalDatabaseId ≠ h.id := hsettled.unmigrated id
    generalize b.store.instruction? id = found at hfate hkept
    -- Whatever became of an instruction, it is of the physical database of which it was.
    cases hfate with
    | kept => exact hkept i rfl
    | begun hid hq =>
      have hid' := hconsistent.migrations.tabled.physical_id _ _ hq
      exact fun hp => hother _ rfl (hid'.symm.trans hp)
    | @resumed j => exact hkept j rfl
    | @joined j => exact hkept j rfl
    | @continued j => exact hkept j rfl
    | @advanced j _ _ hleft =>
      subst hleft
      exact hkept j rfl

/-- It does so over any number of operations. -/
theorem settled_runAll (hconsistent : b.Consistent env) (hsettled : b.store.Settled h) {later : List Event}
    (hspares : Spared h later) : (b.runAll env later).store.Settled h := by
  refine (runAll_invariant (P := fun b => b.Consistent env ∧ b.store.Settled h) ?_ ⟨hconsistent, hsettled⟩).2
  rintro e he b ⟨hconsistent, hsettled⟩
  exact ⟨hconsistent.effect (b.effect env e.time e.operation), settled_run hconsistent hsettled (hspares e he)⟩

/-- So a handshake to which an instruction leads is settled once that is acknowledged to completion, and stays so. -/
theorem settled_of_completed (hconsistent : b.Consistent env) (hleading : Leading env h id b) {before after : List Event}
    {e : Event} (hspares : Spared h (before ++ e :: after)) (hack : e.operation.Acknowledges id)
    (hcompleted : ((b.runAll env before).completes env e.time e.operation).isSome) :
    (b.runAll env (before ++ e :: after)).store.Settled h := by
  obtain ⟨p, hp⟩ := Option.isSome_iff_exists.mp hcompleted
  have hleading' : Leading env h id (b.runAll env before) :=
    hleading.runAll hconsistent fun e he => hspares e (List.mem_append_left _ he)
  have hbefore := hconsistent.runAll before
  have hsettled := settled_of_completes hbefore hleading'.leads hack hp
  have hspares' : Spared h after := fun e he => hspares e (List.mem_append_right _ (List.mem_cons_of_mem _ he))
  rw [runAll_append]
  exact settled_runAll (hbefore.effect (effect env _ e.time e.operation)) hsettled hspares'

/-! ### The address -/

/-- The target of a migration that is completed is stored. -/
theorem physical?_of_completes (hconsistent : b.Consistent env) {p : PhysicalDatabase}
    (hcompletes : b.completes env now op = some p) : (b.run env now op).store.physical? p.id = some p := by
  obtain ⟨physicalDatabaseId, instructionId, ack, rfl, hcase⟩ := acknowledged_of_completes hconsistent hcompletes
  rcases hconsistent.migrations.physicals_of_acknowledged hcase with ⟨q, hanswer, hphysicals⟩ | ⟨hother, -⟩
  · obtain rfl : p = q := by simpa using hanswer
    rw [physical?, hphysicals, KeyMap.get?_insert_self]
  · exact absurd rfl (hother p)

/-- While the handshake is spared, its address stays free unless the migration of another physical database is completed onto
it. -/
theorem addressFree_run_iff (hconsistent : b.Consistent env) (hfree : b.store.AddressFree h.registration.adapterAddress h.id)
    (hspares : op.Spares h) :
    (b.run env now op).store.AddressFree h.registration.adapterAddress h.id ↔
      ∀ p, b.completes env now op = some p → p.adapterAddress = h.registration.adapterAddress → p.id = h.id := by
  have heffect := b.effect env now op
  have htabled := (hconsistent.effect heffect).migrations.tabled
  constructor
  · intro hfree' p hcompletes
    exact hfree' p.id p (physical?_of_completes hconsistent hcompletes)
  · intro hcompletes id q hq haddress
    have hfate := heffect.physical_fate hconsistent id
    have hdecided : ∀ h', op = .decide h' → h'.id = id →
        h'.registration.adapterAddress = h.registration.adapterAddress → id = h.id := by
      rintro h' rfl rfl haddress
      rcases hspares with rfl | ⟨-, hne⟩
      · rfl
      · exact absurd haddress hne
    have hid : q.id = id := htabled.physical_id id q hq
    rw [hq] at hfate
    generalize hfound : b.store.physical? id = found at hfate
    cases hfate with
    | kept => exact hfree id q hfound haddress
    | registered hh => exact hdecided _ rfl hh haddress
    | declared hh => exact hdecided _ rfl hh haddress
    | @flagged p => exact hfree id p hfound haddress
    | completed _ _ _ hcompleted => exact hid.symm.trans (hcompletes q hcompleted haddress)

/-- At every point of a list of events that spare the handshake its address is free exactly when none of them completes the
migration of another physical database onto it. -/
theorem addressFree_runAll_iff (hconsistent : b.Consistent env)
    (hfree : b.store.AddressFree h.registration.adapterAddress h.id) {later : List Event} (hspares : Spared h later) :
    (∀ before after, later = before ++ after →
      (b.runAll env before).store.AddressFree h.registration.adapterAddress h.id) ↔
    ∀ before e after, later = before ++ e :: after → ∀ p, (b.runAll env before).completes env e.time e.operation = some p →
      p.adapterAddress = h.registration.adapterAddress → p.id = h.id := by
  refine runAll_throughout_iff (P := fun b => b.store.AddressFree h.registration.adapterAddress h.id)
    (Q := fun b e => ∀ p, b.completes env e.time e.operation = some p →
      p.adapterAddress = h.registration.adapterAddress → p.id = h.id) hfree ?_
  rintro before e after rfl hfree
  exact addressFree_run_iff (hconsistent.runAll before) hfree (hspares e (by simp))

end Broker

end DatabaseBroker
