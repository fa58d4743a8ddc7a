import DatabaseBroker.Proofs.Migration.Consistency
import Mathlib.Data.List.Induction

/-!
# Addresses of adapters

A handshake takes no address that another physical database has, and every operation keeps addresses distinct but one: an
acknowledgement that completes a migration stores the target that was declared when the migration was begun or resumed, and
does not look whether its address was taken since. So addresses are distinct at every point of a history exactly when no
migration is completed onto an address that is another's by then (`addresses_distinct_iff`); and some history does complete one
(`addresses_not_distinct`).
-/

namespace DatabaseBroker

open Store

namespace Store

/-- No physical database but the one of the id `id` has the address. -/
def AddressFree (s : Store) (address id : String) : Prop :=
  ∀ id' p, s.physical? id' = some p → p.adapterAddress = address → id' = id

/-- No two physical databases have one address. -/
def AddressesDistinct (s : Store) : Prop := ∀ id p, s.physical? id = some p → s.AddressFree p.adapterAddress id

/-- A handshake that passes the check of its identity takes no other physical database's address. -/
theorem addressFree_of_checkIdentity {s : Store} (htabled : s.Tabled) {id dbType : String} {r : Registration}
    (h : s.checkIdentity id dbType r = .ok ()) : s.AddressFree r.adapterAddress id := by
  intro id' p hp haddress
  have hid : p.id = id' := htabled.physical_id id' p hp
  have hlisted : p ∈ s.physicalList := KeyMap.mem_values_iff.mpr ⟨id', hp⟩
  by_contra hne
  exact (checkIdentity_eq_ok h).2 p hlisted (hid.trans_ne hne) haddress

namespace AddressesDistinct

variable {s s' : Store}

theorem empty : Store.empty.AddressesDistinct := by
  simp [AddressesDistinct, physical?, Store.empty]

theorem of_physicals (h : s.AddressesDistinct) (hsame : s'.physicals = s.physicals) : s'.AddressesDistinct := by
  simpa only [AddressesDistinct, AddressFree, physical?, hsame] using h

/-! ## Writes -/

/-- A physical database may be stored with an address that no other has. -/
theorem putPhysical (h : s.AddressesDistinct) {p : PhysicalDatabase} (hfree : s.AddressFree p.adapterAddress p.id) :
    (s.putPhysical p).AddressesDistinct := by
  intro id q hq id' q' hq' haddress
  simp only [physical?, Store.putPhysical, KeyMap.get?_insert] at hq hq'
  split at hq <;> split at hq'
  · rename_i hid hid'
    exact hid'.symm.trans hid
  · rename_i hid _
    cases hq
    exact (hfree id' q' hq' haddress).trans hid
  · rename_i _ hid'
    cases hq'
    exact (hid'.symm.trans (hfree id q hq haddress.symm).symm)
  · exact h id q hq id' q' hq' haddress

/-- A stored physical database may be stored again with the address that it has. -/
theorem putPhysical_of_stored (h : s.AddressesDistinct) {p q : PhysicalDatabase} (hq : s.physical? p.id = some q)
    (haddress : p.adapterAddress = q.adapterAddress) : (s.putPhysical p).AddressesDistinct :=
  h.putPhysical (haddress ▸ h p.id q hq)

theorem deletePhysical (h : s.AddressesDistinct) (id : String) : (s.deletePhysical id).AddressesDistinct := by
  have hstored : ∀ {id' p}, (s.deletePhysical id).physical? id' = some p → s.physical? id' = some p := by
    intro id' p hp
    simp only [physical?, Store.deletePhysical, KeyMap.get?_erase] at hp
    split at hp
    · cases hp
    · exact hp
  intro id₁ p₁ hp₁ id₂ p₂ hp₂ haddress
  exact h id₁ p₁ (hstored hp₁) id₂ p₂ (hstored hp₂) haddress

theorem deleteInstruction (h : s.AddressesDistinct) (id : String) : (s.deleteInstruction id).AddressesDistinct := by
  obtain ⟨index, heq⟩ := s.deleteInstruction_eq id
  exact h.of_physicals (by rw [heq])

theorem discardMigration (h : s.AddressesDistinct) (id : String) : (s.discardMigration id).AddressesDistinct := by
  obtain ⟨instructions, index, heq⟩ := s.discardMigration_eq id
  exact h.of_physicals (by rw [heq])

/-! ## Operations -/

/-- A declaration that is stored in place has an address that its handshake found free. -/
theorem updateInPlace (h : s.AddressesDistinct) {target : PhysicalDatabase}
    (hfree : s.AddressFree target.adapterAddress target.id) : (s.updateInPlace target).2.AddressesDistinct := by
  refine (h.discardMigration target.id).putPhysical ?_
  obtain ⟨instructions, index, heq⟩ := s.discardMigration_eq target.id
  rw [heq]
  exact hfree

/-- A decision keeps addresses distinct. The migration that it may begin or resume is pending, so its target is not stored
yet. -/
theorem decide (h : s.AddressesDistinct) (hmigrations : s.MigrationsSound) {now : UInt64} {instructionId : String} {size : Nat}
    {id dbType : String} {r : Registration} {outcome : RegistrationOutcome}
    (hok : s.decide now instructionId size id dbType r = .ok (outcome, s')) : s'.AddressesDistinct := by
  obtain ⟨hidentity, hanswered⟩ := hmigrations.answered_of_decide hok
  have hfree : s.AddressFree r.adapterAddress id := addressFree_of_checkIdentity hmigrations.tabled hidentity
  cases hanswered with
  | created => exact h.putPhysical hfree
  | kept =>
    simp only [keepRegistered]
    split
    · exact h.deleteInstruction _
    · exact h
  | @updated current hstored hdiffers =>
    have hid : (current.declare now r).id = id := hmigrations.tabled.physical_id id current hstored
    exact h.updateInPlace (hid ▸ hfree)
  | resumed => exact h.of_physicals rfl
  | begun => exact (h.discardMigration id).of_physicals rfl

/-- Setting the global flag changes no address. -/
theorem setGlobal (h : s.AddressesDistinct) (htabled : s.Tabled) {now : UInt64} {id : String} {out : PhysicalDatabase}
    (hok : s.setGlobal now id = .ok (out, s')) : s'.AddressesDistinct := by
  obtain ⟨p, hp, rfl⟩ := setGlobal_eq_ok hok
  have hid : p.id = id := htabled.physical_id id p hp
  have hclear : (s.clearGlobal now p.dbType id).AddressesDistinct ∧
      ∃ q, (s.clearGlobal now p.dbType id).physical? p.id = some q ∧ p.adapterAddress = q.adapterAddress := by
    rcases s.clearGlobal_cases now p.dbType id with heq | ⟨other, ⟨id', hother⟩, heq⟩
    · rw [heq]
      exact ⟨h, p, hid.symm ▸ hp, rfl⟩
    · rw [heq]
      have hid' : other.id = id' := htabled.physical_id id' other hother
      have hother' : s.physical? other.id = some other := by rwa [hid']
      refine ⟨h.putPhysical_of_stored hother' rfl, ?_⟩
      simp only [physical?, Store.putPhysical, KeyMap.get?_insert]
      split
      · rename_i hsame
        have hsame : id' = id := hid'.symm.trans (hsame.trans hid)
        have hsame : p = other := Option.some.inj (hp.symm.trans (hsame ▸ hother))
        exact ⟨_, rfl, by rw [hsame]⟩
      · exact ⟨p, hid.symm ▸ hp, rfl⟩
  obtain ⟨hdistinct, q, hq, haddress⟩ := hclear
  exact hdistinct.putPhysical_of_stored hq haddress

theorem deregister (h : s.AddressesDistinct) {id : String} {out : Nat} (hok : s.deregister id = .ok (out, s')) :
    s'.AddressesDistinct := by
  obtain ⟨p, -, -, -, rfl⟩ := deregister_eq_ok hok
  have hrules := h.of_physicals (s.sameButRules_removeRulesTo id).physicals
  exact (hrules.discardMigration id).deletePhysical id

end AddressesDistinct

/-- A request for a database stores no physical database. -/
theorem physicals_of_bound {s s' : Store} {now : UInt64} {id : String} {r : DatabaseRequest} {outcome : BindingOutcome}
    (h : s.Bound now id r outcome s') : s'.physicals = s.physicals := by
  rcases h.cases_on_created with ⟨-, rfl | ⟨c, db, -, rfl⟩⟩ | ⟨-, a, target, applied, -, -, -, -, rfl⟩
  · rfl
  · rw [putLogical_eq]
  · obtain ⟨instructions, index, heq⟩ :=
      (s.putLogical (.make id now r.dbType a target)).joinMigration_eq now (.make id now r.dbType a target)
    simp only [create, heq]
    rw [putLogical_eq]

/-! ## Completion -/

/-- Going on with a migration stores the target when the migration is completed, and otherwise no physical database. -/
theorem physicals_of_advance {s s' : Store} {now : UInt64} {size : Nat} {i : Instruction} {step : MigrationStep}
    (h : s.advance now size i = (step, s')) :
    (∃ p, step = .completed p ∧ s'.physicals = s.physicals.insert p.id p) ∨
      ((∀ p, step ≠ .completed p) ∧ s'.physicals = s.physicals) := by
  by_cases hentries : i.entries = []
  · rw [advance_of_done hentries] at h
    cases h
    obtain ⟨index, heq⟩ := (s.putPhysical (s.completedTarget now i.target)).deleteInstruction_eq i.id
    rw [heq]
    exact Or.inl ⟨_, rfl, rfl⟩
  · rw [advance_of_pending hentries] at h
    cases h
    exact Or.inr ⟨fun _ => nofun, rfl⟩

/-- An acknowledgement stores the target of the migration that it completes, and otherwise no physical database. -/
theorem MigrationsSound.physicals_of_acknowledged {s s' : Store} (h : s.MigrationsSound) {now : UInt64} {size : Nat}
    {physicalDatabaseId instructionId : String} {ack : Acknowledgement} {answer : Except RegistryError MigrationStep}
    (hcase : s.Acknowledged now size physicalDatabaseId instructionId ack answer s') :
    (∃ p, answer = .ok (.completed p) ∧ s'.physicals = s.physicals.insert p.id p) ∨
      ((∀ p, answer ≠ .ok (.completed p)) ∧ s'.physicals = s.physicals) := by
  cases hcase with
  | unknown => exact Or.inr ⟨fun _ => nofun, rfl⟩
  | failed =>
    obtain ⟨index, heq⟩ := s.deleteInstruction_eq instructionId
    rw [heq]
    exact Or.inr ⟨fun _ => nofun, rfl⟩
  | applied hlive hp hfailure happly hadvance =>
    obtain ⟨logicals, index, rfl⟩ := (h.recorded hlive happly).store
    rcases physicals_of_advance hadvance with ⟨p, rfl, hphysicals⟩ | ⟨hother, hphysicals⟩
    · exact Or.inl ⟨p, rfl, hphysicals⟩
    · exact Or.inr ⟨fun p hp => hother p (Except.ok.inj hp), hphysicals⟩

/-- A live instruction has entries, so handing out its next portion does not complete it. -/
theorem MigrationsSound.nextPortion_pending {s s' : Store} (h : s.MigrationsSound) {now : UInt64} {size : Nat}
    {instructionId : String} {step : MigrationStep} (hok : s.nextPortion now size instructionId = .ok (step, s')) :
    (∀ p, step ≠ .completed p) ∧ s'.physicals = s.physicals := by
  obtain ⟨i, hi, hadvance⟩ := nextPortion_eq_ok hok
  rw [advance_of_pending (h.sound _ instructionId i hi rfl).pending] at hadvance
  cases hadvance
  exact ⟨fun _ => nofun, rfl⟩

/-- Storing a physical database leaves addresses distinct exactly when no other has its address. -/
theorem AddressesDistinct.insert_iff {s s' : Store} (h : s.AddressesDistinct) {p : PhysicalDatabase}
    (hstored : s'.physicals = s.physicals.insert p.id p) : s'.AddressesDistinct ↔ s.AddressFree p.adapterAddress p.id := by
  refine ⟨fun hdistinct id q hq haddress => ?_, fun hfree => (h.putPhysical hfree).of_physicals hstored⟩
  by_contra hne
  have hp : s'.physical? p.id = some p := by simp [physical?, hstored]
  have hq' : s'.physical? id = some q := by
    rw [physical?, hstored, KeyMap.get?_insert_of_ne _ _ (Ne.symm hne)]
    exact hq
  exact hne (hdistinct p.id p hp id q hq' haddress)

end Store

/-! ## Histories -/

namespace Broker

variable {env : Surroundings} {b b' : Broker}

/-- No other physical database has the address onto which an operation completes a migration, if it completes one. -/
def CompletesFree (env : Surroundings) (b : Broker) (now : UInt64) (op : Operation) : Prop :=
  ∀ p, b.completes env now op = some p → b.store.AddressFree p.adapterAddress p.id

/-- Every operation but an acknowledgement keeps addresses distinct. -/
theorem Effect.addressesDistinct {now : UInt64} {op : Operation} (heffect : b.Effect env now op b')
    (hconsistent : b.Consistent env) (h : b.store.AddressesDistinct)
    (hop : ∀ id instructionId ack, op ≠ .acknowledge id instructionId ack) : b'.store.AddressesDistinct := by
  have hmigrations := hconsistent.migrations
  cases heffect with
  | nothing => exact h
  | checked => exact h
  | undecided => exact h
  | decided hok => exact h.decide hmigrations hok
  | acknowledged => exact absurd rfl (hop _ _ _)
  | continued hok => exact h.of_physicals (hmigrations.nextPortion_pending hok).2
  | madeGlobal hok => exact h.setGlobal hmigrations.tabled hok
  | deregistered hok => exact h.deregister hok
  | bound hok => exact h.of_physicals (physicals_of_bound (bound_of_getOrCreate hok))
  | dropped hok =>
    obtain ⟨db, -, rfl⟩ := markForDrop_eq_ok hok
    exact h.of_physicals (by rw [Broker.withStore, putLogical_eq])
  | ruled hsame => exact h.of_physicals hsame.physicals
  | grouped => exact h.of_physicals rfl
  | ungrouped => exact h.of_physicals rfl

/-- Only an acknowledgement completes a migration. -/
theorem completes_eq_none {now : UInt64} {op : Operation} (hconsistent : b.Consistent env)
    (hop : ∀ id instructionId ack, op ≠ .acknowledge id instructionId ack) : b.completes env now op = none := by
  cases op with
  | acknowledge id instructionId ack => exact absurd rfl (hop id instructionId ack)
  | nextPortion instructionId =>
    simp only [completes]
    split
    · rename_i hok
      exact absurd rfl ((hconsistent.migrations.nextPortion_pending hok).1 _)
    · rfl
  | _ => rfl

/-- An acknowledgement keeps addresses distinct exactly when it completes no migration onto another's address. -/
theorem addressesDistinct_acknowledge_iff (hconsistent : b.Consistent env) (h : b.store.AddressesDistinct) (now : UInt64)
    (id instructionId : String) (ack : Acknowledgement) :
    (b.run env now (.acknowledge id instructionId ack)).store.AddressesDistinct ↔
      b.CompletesFree env now (.acknowledge id instructionId ack) := by
  have hcase := b.store.acknowledged now env.portionSize id instructionId ack
  simp only [CompletesFree, completes, run, withStore]
  rcases hconsistent.migrations.physicals_of_acknowledged hcase with ⟨p, hanswer, hphysicals⟩ | ⟨hother, hphysicals⟩
  · rw [hanswer]
    simp only [Option.some.injEq, forall_eq']
    exact h.insert_iff hphysicals
  · refine ⟨fun _ p hp => ?_, fun _ => h.of_physicals hphysicals⟩
    split at hp
    · rename_i hanswer
      exact absurd hanswer (hother _)
    · cases hp

/-- In a consistent broker an operation keeps addresses distinct exactly when it completes no migration onto another's
address. -/
theorem addressesDistinct_run_iff (hconsistent : b.Consistent env) (h : b.store.AddressesDistinct) (now : UInt64)
    (op : Operation) : (b.run env now op).store.AddressesDistinct ↔ b.CompletesFree env now op := by
  by_cases hop : ∃ id instructionId ack, op = .acknowledge id instructionId ack
  · obtain ⟨id, instructionId, ack, rfl⟩ := hop
    exact addressesDistinct_acknowledge_iff hconsistent h now id instructionId ack
  · have hop : ∀ id instructionId ack, op ≠ .acknowledge id instructionId ack :=
      fun id instructionId ack heq => hop ⟨id, instructionId, ack, heq⟩
    refine ⟨fun _ p hp => ?_, fun _ => (b.effect env now op).addressesDistinct hconsistent h hop⟩
    rw [completes_eq_none hconsistent hop] at hp
    cases hp

end Broker

/-- The physical databases have distinct addresses at every point of a history exactly when none of its operations completes a
migration onto an address that another physical database has by then. -/
theorem addresses_distinct_iff (env : Surroundings) (events : List Event) :
    (∀ before after, events = before ++ after → (replay env before).store.AddressesDistinct) ↔
      ∀ before e after, events = before ++ e :: after → (replay env before).CompletesFree env e.time e.operation := by
  have hrun : ∀ (before : List Event) (e : Event),
      replay env (before ++ [e]) = (replay env before).run env e.time e.operation :=
    fun before e => replay_append env before [e]
  constructor
  · rintro hdistinct before e after rfl
    have hbefore := hdistinct before (e :: after) rfl
    have hafter := hdistinct (before ++ [e]) after (by rw [List.append_assoc, List.singleton_append])
    rw [hrun] at hafter
    exact (Broker.addressesDistinct_run_iff (Broker.consistent_replay env before) hbefore _ _).mp hafter
  · intro hfree before
    -- By induction on how far the history has gone, its last event first.
    induction before using List.reverseRecOn with
    | nil => exact fun _ _ => AddressesDistinct.empty
    | append_singleton before e ih =>
      rintro after rfl
      have hsplit : before ++ [e] ++ after = before ++ e :: after := by rw [List.append_assoc, List.singleton_append]
      rw [hrun]
      exact (Broker.addressesDistinct_run_iff (Broker.consistent_replay env before) (ih (e :: after) hsplit) _ _).mpr
        (hfree before e after hsplit)

/-! ## An address that is taken meanwhile -/

/-- A declaration of a cluster at an address. -/
def sampleDeclarationAt (id address : String) (roles : List String) : Handshake :=
  ⟨id, "postgresql", ⟨address, none, .empty,
    ⟨"v1", roles, KeyMap.empty.insert AdapterMetadata.multiusersFeature true⟩, .run, none⟩⟩

/-- A cluster with a database declares another role and a new address; while its database lacks the role, another cluster is
registered at that address; then the role is acknowledged. -/
def sampleTakeover : List Event := [
  ⟨1, .precheck (sampleDeclarationAt "pg" "http://a" ["admin"]) none⟩,
  ⟨2, .decide (sampleDeclarationAt "pg" "http://a" ["admin"])⟩,
  ⟨3, .getOrCreate ⟨(Classifier.service "shop" "cart").toMap, "postgresql", none, none⟩⟩,
  ⟨4, .precheck (sampleDeclarationAt "pg" "http://b" ["admin", "ro"]) none⟩,
  ⟨5, .decide (sampleDeclarationAt "pg" "http://b" ["admin", "ro"])⟩,
  ⟨6, .precheck (sampleDeclarationAt "pg-2" "http://b" ["admin"]) none⟩,
  ⟨7, .decide (sampleDeclarationAt "pg-2" "http://b" ["admin"])⟩,
  ⟨8, .acknowledge "pg" "instr-#1" ⟨[⟨"ldb-#1", [], []⟩], none⟩⟩]

/-- Addresses are not distinct where an address is taken while a migration leads to it: both clusters of the sample end at
one. -/
theorem addresses_not_distinct : ¬ (replay (.numbered 1) sampleTakeover).store.AddressesDistinct := by
  have hshared : (((replay (.numbered 1) sampleTakeover).store.physical? "pg").any fun p =>
      ((replay (.numbered 1) sampleTakeover).store.physical? "pg-2").any fun q =>
        decide (q.adapterAddress = p.adapterAddress)) = true := by decide +kernel
  obtain ⟨p, hp, hshared⟩ := (Option.any_eq_true _ _).mp hshared
  obtain ⟨q, hq, hshared⟩ := (Option.any_eq_true _ _).mp hshared
  intro hdistinct
  have hsame : "pg-2" = "pg" := hdistinct "pg" p hp "pg-2" q hq (of_decide_eq_true hshared)
  exact absurd hsame (by decide)

end DatabaseBroker
