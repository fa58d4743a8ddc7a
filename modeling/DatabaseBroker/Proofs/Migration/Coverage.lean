import DatabaseBroker.Proofs.Store.Tabled

/-!
# What a migration still has to do

An instruction is sound in a store when it fits the physical database that it names and its entries say exactly what the
databases there still lack of the target's roles (`Instruction.Covers`). Most operations change nothing that this depends on
for most physical databases: `Store.SameSite` names what does not change, and `SoundOn.of_sameSite` carries soundness over.
-/

namespace DatabaseBroker

/-! ## Roles -/

/-- A list with the missing members of another holds the members of both. -/
theorem mem_addMissing {α : Type} [BEq α] [LawfulBEq α] {l new : List α} {a : α} :
    a ∈ addMissing l new ↔ a ∈ l ∨ a ∈ new := by
  unfold addMissing
  induction new generalizing l with
  | nil => simp
  | cons b rest ih =>
    rw [List.foldl_cons, ih]
    split
    · rename_i hb
      have hb : b ∈ l := by simpa using hb
      grind
    · simp only [List.mem_append, List.mem_cons]
      grind

namespace LogicalDatabase

/-- The roles that a database lacks are the required ones that it does not have. -/
theorem mem_missingRoles_iff {db : LogicalDatabase} {required : List String} {role : String} :
    role ∈ db.missingRoles required ↔ role ∈ required ∧ role ∉ db.roles := by
  simp [missingRoles]

/-- Nothing is missing when every required role is there. -/
theorem missingRoles_eq_nil_iff {db : LogicalDatabase} {required : List String} :
    db.missingRoles required = [] ↔ ∀ role ∈ required, role ∈ db.roles := by
  rw [List.eq_nil_iff_forall_not_mem]
  simp only [mem_missingRoles_iff, not_and, not_not]

/-- What databases lack depends on their roles only. -/
theorem missingRoles_congr {db db' : LogicalDatabase} (h : db'.roles = db.roles) (required : List String) :
    db'.missingRoles required = db.missingRoles required := by
  rw [missingRoles, missingRoles, h]

/-- An acknowledged entry that named all a database lacked leaves nothing missing. -/
theorem missingRoles_acknowledge {db : LogicalDatabase} {entry : AdditionalRoles} {required : List String}
    (hroles : entry.roles = db.missingRoles required) (done : Success) :
    (db.acknowledge entry done).missingRoles required = [] := by
  refine missingRoles_eq_nil_iff.mpr fun role hrole => ?_
  simp only [acknowledge, mem_addMissing, hroles, mem_missingRoles_iff, hrole, true_and]
  exact Classical.em _

/-- A later record of a database: bound to the same physical database, with the same roles, and not taken out of the
archive. -/
structure Continues (db db' : LogicalDatabase) : Prop where
  physicalDatabaseId : db'.physicalDatabaseId = db.physicalDatabaseId
  roles : db'.roles = db.roles
  archived : db'.markedForDrop = false → db.markedForDrop = false

theorem Continues.refl (db : LogicalDatabase) : db.Continues db := ⟨rfl, rfl, fun h => h⟩

end LogicalDatabase

/-! ## Coverage -/

namespace Instruction

/-- The entries name the databases of the physical database that lack a role of the target, each once, and with each exactly
the roles that it lacks. An archived database may be named too. -/
structure Covers (i : Instruction) (s : Store) : Prop where
  distinct : (i.entries.map (·.databaseId)).Nodup
  lacking : ∀ e ∈ i.entries, ∃ db, s.logical? e.databaseId = some db ∧
    db.physicalDatabaseId = i.physicalDatabaseId ∧ e.roles = db.missingRoles i.target.metadata.roleSet ∧ e.roles ≠ []
  complete : ∀ id db, s.logical? id = some db → db.physicalDatabaseId = i.physicalDatabaseId →
    db.markedForDrop = false → db.missingRoles i.target.metadata.roleSet ≠ [] → ∃ e ∈ i.entries, e.databaseId = id

/-- The target is another declaration of the physical database, with other roles, by an adapter that can make users for every
role. -/
structure Fits (i : Instruction) (s : Store) : Prop where
  target_id : i.target.id = i.physicalDatabaseId
  multiusers : i.target.metadata.supportsMultiusers = true
  registered : ∃ p, s.physical? i.physicalDatabaseId = some p ∧ i.target.dbType = p.dbType ∧
    i.target.metadata.roleSet ≠ p.metadata.roleSet

/-- An instruction that fits, has work left, and covers what is lacking. -/
structure Sound (i : Instruction) (s : Store) : Prop where
  fits : i.Fits s
  pending : i.entries ≠ []
  covers : i.Covers s

/-- Coverage depends on the databases and the roles that entries name, the physical database and the target's roles. -/
theorem Covers.congr {i j : Instruction} {s : Store} (h : i.Covers s)
    (hentries : j.entries.map (fun e => (e.databaseId, e.roles)) = i.entries.map fun e => (e.databaseId, e.roles))
    (hphysical : j.physicalDatabaseId = i.physicalDatabaseId)
    (hroles : j.target.metadata.roleSet = i.target.metadata.roleSet) : j.Covers s := by
  have hids : j.entries.map (·.databaseId) = i.entries.map (·.databaseId) := by
    have hfst := congrArg (List.map Prod.fst) hentries
    rwa [List.map_map, List.map_map] at hfst
  refine ⟨hids ▸ h.distinct, fun e he => ?_, fun id db hdb hp hdrop hmissing => ?_⟩
  · have hmem : (e.databaseId, e.roles) ∈ i.entries.map fun e => (e.databaseId, e.roles) :=
      hentries ▸ List.mem_map_of_mem he
    obtain ⟨e', he', heq⟩ := List.mem_map.mp hmem
    obtain ⟨hid, hr⟩ := Prod.mk.inj heq
    rw [← hid, ← hr, hphysical, hroles]
    exact h.lacking e' he'
  · rw [hphysical] at hp
    rw [hroles] at hmissing
    obtain ⟨e, he, hid⟩ := h.complete id db hdb hp hdrop hmissing
    have hmem : e.databaseId ∈ j.entries.map (·.databaseId) := hids ▸ List.mem_map_of_mem he
    obtain ⟨e', he', heq⟩ := List.mem_map.mp hmem
    exact ⟨e', he', heq.trans hid⟩

/-- What is kept of an instruction is as sound as what was stored. -/
theorem Sound.reread {i : Instruction} {s : Store} (h : i.Sound s) : i.reread.Sound s where
  fits := ⟨h.fits.target_id, h.fits.multiusers, h.fits.registered⟩
  pending := by simpa [Instruction.reread] using h.pending
  covers := h.covers.congr (by simp [Instruction.reread, AdditionalRoles.reread, Function.comp_def]) rfl rfl

/-- Handing out a portion takes nothing from what is pending. -/
theorem Sound.handOut {i : Instruction} {s : Store} (h : i.Sound s) (now : UInt64) (portion : List AdditionalRoles) :
    (i.handOut now portion).Sound s where
  fits := ⟨h.fits.target_id, h.fits.multiusers, h.fits.registered⟩
  pending := h.pending
  covers := h.covers.congr rfl rfl rfl

end Instruction

namespace Store

/-! ## What does not change -/

/-- The databases of a physical database are the same in two stores, but for what an adapter is not asked about. -/
structure SameHosts (physicalDatabaseId : String) (s s' : Store) : Prop where
  forward : ∀ id db, s.logical? id = some db → db.physicalDatabaseId = physicalDatabaseId →
    ∃ db', s'.logical? id = some db' ∧ db.Continues db'
  backward : ∀ id db', s'.logical? id = some db' → db'.physicalDatabaseId = physicalDatabaseId →
    ∃ db, s.logical? id = some db ∧ db.Continues db'

/-- Nothing has changed that a migration of the physical database depends on; its instruction may be gone. -/
structure SameSite (physicalDatabaseId : String) (s s' : Store) : Prop where
  instructions : ∀ id i, s'.instruction? id = some i → i.physicalDatabaseId = physicalDatabaseId →
    s.instruction? id = some i
  physical : ∀ p, s.physical? physicalDatabaseId = some p →
    ∃ p', s'.physical? physicalDatabaseId = some p' ∧ p'.dbType = p.dbType ∧ p'.metadata = p.metadata
  hosts : SameHosts physicalDatabaseId s s'

/-- The live instructions of a physical database are sound. -/
def SoundOn (s : Store) (physicalDatabaseId : String) : Prop :=
  ∀ id i, s.instruction? id = some i → i.physicalDatabaseId = physicalDatabaseId → i.Sound s

theorem SameHosts.of_logicals {s s' : Store} (h : s'.logicals = s.logicals) (physicalDatabaseId : String) :
    SameHosts physicalDatabaseId s s' := by
  constructor
  · intro id db hdb _
    exact ⟨db, by simpa only [logical?, h] using hdb, .refl db⟩
  · intro id db hdb _
    exact ⟨db, by simpa only [logical?, h] using hdb, .refl db⟩

/-- Storing a later record of a database changes no hosts. -/
theorem SameHosts.putLogical {s : Store} {db db' : LogicalDatabase} (hdb : s.logical? db'.id = some db)
    (h : db.Continues db') (physicalDatabaseId : String) : SameHosts physicalDatabaseId s (s.putLogical db') := by
  rw [putLogical_eq]
  have hkept : db.Continues db'.reread := ⟨h.physicalDatabaseId, h.roles, h.archived⟩
  constructor
  · intro id db₁ hdb₁ _
    simp only [logical?, KeyMap.get?_insert]
    split
    · rename_i hid
      subst hid
      rw [← Option.some.inj (hdb.symm.trans hdb₁)]
      exact ⟨_, rfl, hkept⟩
    · exact ⟨db₁, hdb₁, .refl db₁⟩
  · intro id db₁ hdb₁ _
    simp only [logical?, KeyMap.get?_insert] at hdb₁
    split at hdb₁
    · rename_i hid
      subst hid
      rw [← Option.some.inj hdb₁]
      exact ⟨db, hdb, hkept⟩
    · exact ⟨db₁, hdb₁, .refl db₁⟩

/-- Storing a database that is bound elsewhere changes no hosts. -/
theorem SameHosts.putLogical_of_ne {s : Store} {db : LogicalDatabase} {physicalDatabaseId : String}
    (hold : ∀ db₀, s.logical? db.id = some db₀ → db₀.physicalDatabaseId ≠ physicalDatabaseId)
    (hne : db.physicalDatabaseId ≠ physicalDatabaseId) : SameHosts physicalDatabaseId s (s.putLogical db) := by
  rw [putLogical_eq]
  constructor
  · intro id db₁ hdb₁ hp
    have hid : db.id ≠ id := by
      rintro rfl
      exact hold db₁ hdb₁ hp
    exact ⟨db₁, by simpa only [logical?, KeyMap.get?_insert, hid, if_false] using hdb₁, .refl db₁⟩
  · intro id db₁ hdb₁ hp
    simp only [logical?, KeyMap.get?_insert] at hdb₁
    split at hdb₁
    · rw [← Option.some.inj hdb₁] at hp
      exact absurd hp hne
    · exact ⟨db₁, hdb₁, .refl db₁⟩

theorem SameHosts.trans {s s' s'' : Store} {physicalDatabaseId : String} (h : SameHosts physicalDatabaseId s s')
    (h' : SameHosts physicalDatabaseId s' s'') : SameHosts physicalDatabaseId s s'' := by
  constructor
  · intro id db hdb hp
    obtain ⟨db', hdb', hc⟩ := h.forward id db hdb hp
    obtain ⟨db'', hdb'', hc'⟩ := h'.forward id db' hdb' (hc.physicalDatabaseId.trans hp)
    exact ⟨db'', hdb'', hc'.physicalDatabaseId.trans hc.physicalDatabaseId, hc'.roles.trans hc.roles,
      fun hd => hc.archived (hc'.archived hd)⟩
  · intro id db'' hdb'' hp
    obtain ⟨db', hdb', hc'⟩ := h'.backward id db'' hdb'' hp
    obtain ⟨db, hdb, hc⟩ := h.backward id db' hdb' (hc'.physicalDatabaseId.symm.trans hp)
    exact ⟨db, hdb, hc'.physicalDatabaseId.trans hc.physicalDatabaseId, hc'.roles.trans hc.roles,
      fun hd => hc.archived (hc'.archived hd)⟩

/-- Stores with the same records have the same sites. -/
theorem SameSite.of_sameRecords {s s' : Store} (h : SameRecords s s') (physicalDatabaseId : String) :
    SameSite physicalDatabaseId s s' where
  instructions id i hi _ := by simpa only [instruction?, h.instructions] using hi
  physical p hp := ⟨p, by simpa only [physical?, h.physicals] using hp, rfl, rfl⟩
  hosts := .of_logicals h.logicals physicalDatabaseId

/-- Changes to databases that no migration depends on leave sites alone. -/
theorem SameSite.of_hosts {s s' : Store} {physicalDatabaseId : String} (hphysicals : s'.physicals = s.physicals)
    (hinstructions : s'.instructions = s.instructions) (h : SameHosts physicalDatabaseId s s') :
    SameSite physicalDatabaseId s s' where
  instructions id i hi _ := by simpa only [instruction?, hinstructions] using hi
  physical p hp := ⟨p, by simpa only [physical?, hphysicals] using hp, rfl, rfl⟩
  hosts := h

theorem SameSite.trans {s s' s'' : Store} {physicalDatabaseId : String} (h : SameSite physicalDatabaseId s s')
    (h' : SameSite physicalDatabaseId s' s'') : SameSite physicalDatabaseId s s'' where
  instructions id i hi hp := h.instructions id i (h'.instructions id i hi hp) hp
  physical p hp := by
    obtain ⟨p', hp', htype, hmeta⟩ := h.physical p hp
    obtain ⟨p'', hp'', htype', hmeta'⟩ := h'.physical p' hp'
    exact ⟨p'', hp'', htype'.trans htype, hmeta'.trans hmeta⟩
  hosts := h.hosts.trans h'.hosts

/-- A physical database may be stored anew, or with its type and metadata, without a site changing. -/
theorem SameSite.putPhysical {s : Store} {p : PhysicalDatabase}
    (hold : ∀ q, s.physical? p.id = some q → p.dbType = q.dbType ∧ p.metadata = q.metadata) (physicalDatabaseId : String) :
    SameSite physicalDatabaseId s (s.putPhysical p) where
  instructions _ _ hi _ := hi
  physical q hq := by
    simp only [physical?, Store.putPhysical, KeyMap.get?_insert]
    split
    · rename_i hid
      subst hid
      exact ⟨p, rfl, hold q hq⟩
    · exact ⟨q, hq, rfl, rfl⟩
  hosts := .of_logicals (by rfl) physicalDatabaseId

/-- Storing one physical database leaves the sites of the others alone. -/
theorem SameSite.putPhysical_of_ne {s : Store} {p : PhysicalDatabase} {physicalDatabaseId : String}
    (hne : p.id ≠ physicalDatabaseId) : SameSite physicalDatabaseId s (s.putPhysical p) where
  instructions _ _ hi _ := hi
  physical q hq := ⟨q, by simpa only [physical?, Store.putPhysical, KeyMap.get?_insert, hne, if_false] using hq, rfl, rfl⟩
  hosts := .of_logicals (by rfl) physicalDatabaseId

/-- Deleting one physical database leaves the sites of the others alone. -/
theorem SameSite.deletePhysical_of_ne {s : Store} {id physicalDatabaseId : String} (hne : id ≠ physicalDatabaseId) :
    SameSite physicalDatabaseId s (s.deletePhysical id) where
  instructions _ _ hi _ := hi
  physical q hq := ⟨q, by simpa only [physical?, Store.deletePhysical, KeyMap.get?_erase, hne, if_false] using hq, rfl, rfl⟩
  hosts := .of_logicals (by rfl) physicalDatabaseId

/-- Deleting an instruction leaves every site alone but for the instruction. -/
theorem SameSite.deleteInstruction (s : Store) (id physicalDatabaseId : String) :
    SameSite physicalDatabaseId s (s.deleteInstruction id) := by
  refine ⟨fun id' i hi _ => ?_, ?_, ?_⟩
  · rw [instruction?_deleteInstruction] at hi
    split at hi
    · cases hi
    · exact hi
  · intro p hp
    obtain ⟨index, h⟩ := s.deleteInstruction_eq id
    exact ⟨p, by rw [h]; exact hp, rfl, rfl⟩
  · obtain ⟨index, h⟩ := s.deleteInstruction_eq id
    exact .of_logicals (by rw [h]) physicalDatabaseId

/-- Discarding a migration leaves every site alone but for the instruction. -/
theorem SameSite.discardMigration (s : Store) (id physicalDatabaseId : String) :
    SameSite physicalDatabaseId s (s.discardMigration id) := by
  unfold Store.discardMigration
  split
  · exact .deleteInstruction s _ physicalDatabaseId
  · exact .of_sameRecords (.refl s) physicalDatabaseId

/-- Storing an instruction of one physical database leaves the sites of the others alone. -/
theorem SameSite.putInstruction_of_ne {s : Store} {i : Instruction} {physicalDatabaseId : String}
    (hne : i.physicalDatabaseId ≠ physicalDatabaseId) : SameSite physicalDatabaseId s (s.putInstruction i) where
  instructions id j hj hp := by
    simp only [instruction?, Store.putInstruction, KeyMap.get?_insert] at hj
    split at hj
    · rw [← Option.some.inj hj] at hp
      exact absurd hp hne
    · exact hj
  physical p hp := ⟨p, hp, rfl, rfl⟩
  hosts := .of_logicals (by rfl) physicalDatabaseId

end Store

/-! ## Soundness carried over -/

open Store

/-- Coverage is kept while the hosts stay the same. -/
theorem Instruction.Covers.of_sameHosts {i : Instruction} {s s' : Store} (h : i.Covers s)
    (hosts : SameHosts i.physicalDatabaseId s s') : i.Covers s' := by
  refine ⟨h.distinct, fun e he => ?_, fun id db' hdb' hp hdrop hmissing => ?_⟩
  · obtain ⟨db, hdb, hp, hroles, hne⟩ := h.lacking e he
    obtain ⟨db', hdb', hc⟩ := hosts.forward _ db hdb hp
    refine ⟨db', hdb', hc.physicalDatabaseId.trans hp, ?_, hne⟩
    rw [LogicalDatabase.missingRoles_congr hc.roles, hroles]
  · obtain ⟨db, hdb, hc⟩ := hosts.backward id db' hdb' hp
    rw [LogicalDatabase.missingRoles_congr hc.roles] at hmissing
    exact h.complete id db hdb (hc.physicalDatabaseId.symm.trans hp) (hc.archived hdrop) hmissing

/-- An instruction keeps fitting while its physical database keeps type and metadata. -/
theorem Instruction.Fits.of_sameSite {i : Instruction} {s s' : Store} (h : i.Fits s)
    (hsite : SameSite i.physicalDatabaseId s s') : i.Fits s' := by
  obtain ⟨p, hp, htype, hroles⟩ := h.registered
  obtain ⟨p', hp', htype', hmeta⟩ := hsite.physical p hp
  exact ⟨h.target_id, h.multiusers, p', hp', htype.trans htype'.symm, hmeta ▸ hroles⟩

/-- The instructions of a physical database stay sound while its site stays the same. -/
theorem Store.SoundOn.of_sameSite {s s' : Store} {physicalDatabaseId : String} (h : s.SoundOn physicalDatabaseId)
    (hsite : SameSite physicalDatabaseId s s') : s'.SoundOn physicalDatabaseId := by
  intro id i hi hp
  have hsound := h id i (hsite.instructions id i hi hp) hp
  subst hp
  exact ⟨hsound.fits.of_sameSite hsite, hsound.pending, hsound.covers.of_sameHosts hsite.hosts⟩

/-- Storing a sound instruction of a physical database that has no other leaves it sound. -/
theorem Store.SoundOn.putInstruction {s : Store} {i : Instruction} (h : i.Sound s)
    (hfree : ∀ id j, s.instruction? id = some j → j.physicalDatabaseId = i.physicalDatabaseId → id = i.id) :
    (s.putInstruction i).SoundOn i.physicalDatabaseId := by
  intro id j hj hp
  simp only [instruction?, Store.putInstruction, KeyMap.get?_insert] at hj
  split at hj
  · rw [← Option.some.inj hj]
    have := h.reread
    exact ⟨⟨this.fits.target_id, this.fits.multiusers, this.fits.registered⟩, this.pending,
      this.covers.of_sameHosts (.of_logicals (by rfl) _)⟩
  · rename_i hne
    exact absurd (hfree id j hj hp).symm hne

end DatabaseBroker
