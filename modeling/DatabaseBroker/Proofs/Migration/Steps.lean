import DatabaseBroker.Proofs.Migration.Coverage

/-!
# Operations keep migrations sound

`Store.MigrationsSound` is the invariant of the two tables of instructions, and this module proves it kept by each operation:
by requests for databases, drops and the registry here, by handshakes, acknowledgements and portions in `Migration.Rounds`.
-/

namespace DatabaseBroker

/-- Without duplicates, erasing the first match is leaving out what matches. -/
theorem eraseP_eq_filter {α : Type} {f : α → String} {l : List α} (h : (l.map f).Nodup) (a : String) :
    l.eraseP (f · = a) = l.filter (f · ≠ a) := by
  induction l with
  | nil => rfl
  | cons b rest ih =>
    obtain ⟨hb, hrest⟩ := List.nodup_cons.mp h
    by_cases hba : f b = a
    · have hkeep : ∀ c ∈ rest, f c ≠ a := fun c hc heq => hb (hba ▸ heq ▸ List.mem_map_of_mem hc)
      simp only [List.eraseP_cons, List.filter_cons, hba, decide_true, cond_true, ne_eq, not_true_eq_false, decide_false,
        Bool.false_eq_true, if_false]
      exact (List.filter_eq_self.mpr (by simpa using hkeep)).symm
    · simp only [List.eraseP_cons, List.filter_cons, hba, decide_false, cond_false, ne_eq, not_false_eq_true, decide_true,
        if_true]
      rw [ih hrest]

namespace Instruction

/-- Removing an entry leaves the entries of the other databases. -/
theorem mem_removeEntry_iff {i : Instruction} (h : (i.entries.map (·.databaseId)).Nodup) {id : String} {e : AdditionalRoles} :
    e ∈ (i.removeEntry id).entries ↔ e ∈ i.entries ∧ e.databaseId ≠ id := by
  simp only [removeEntry, eraseP_eq_filter h, List.mem_filter, decide_eq_true_eq]

/-- A database that is created with nothing missing needs no entry. -/
theorem Covers.putLogical_of_complete {i : Instruction} {s : Store} {db : LogicalDatabase} (h : i.Covers s)
    (hnew : s.logical? db.id = none) (hmissing : db.missingRoles i.target.metadata.roleSet = []) :
    i.Covers (s.putLogical db) := by
  refine ⟨h.distinct, fun e he => ?_, fun id db' hdb' hp hdrop hmissing' => ?_⟩
  · obtain ⟨db', hdb', hrest⟩ := h.lacking e he
    refine ⟨db', ?_, hrest⟩
    rw [Store.logical?_putLogical, if_neg]
    · exact hdb'
    · rintro hid
      rw [hid, hdb'] at hnew
      cases hnew
  · rw [Store.logical?_putLogical] at hdb'
    split at hdb'
    · rw [← Option.some.inj hdb'] at hmissing'
      exact absurd hmissing hmissing'
    · exact h.complete id db' hdb' hp hdrop hmissing'

/-- A database that is created lacking roles is covered by an entry of its own. -/
theorem Covers.putLogical_addEntry {i : Instruction} {s : Store} {db : LogicalDatabase} {e : AdditionalRoles} (h : i.Covers s)
    (hnew : s.logical? db.id = none) (hphysical : db.physicalDatabaseId = i.physicalDatabaseId) (hid : e.databaseId = db.id)
    (hroles : e.roles = db.missingRoles i.target.metadata.roleSet) (hne : e.roles ≠ []) :
    (i.addEntry e).Covers (s.putLogical db) := by
  have hstored : ∀ e' ∈ i.entries, e'.databaseId ≠ db.id := by
    intro e' he' heq
    obtain ⟨db', hdb', _⟩ := h.lacking e' he'
    rw [heq, hnew] at hdb'
    cases hdb'
  have hentries : (i.addEntry e).entries = i.entries ++ [e] := by
    have hkept : i.entries.filter (·.databaseId ≠ db.id) = i.entries :=
      List.filter_eq_self.mpr fun e' he' => by simpa using hstored e' he'
    simp only [addEntry, removeEntry, hid, eraseP_eq_filter h.distinct, hkept]
  refine ⟨?_, fun e' he' => ?_, fun id db' hdb' hp hdrop hmissing => ?_⟩
  · rw [hentries, List.map_append, List.nodup_append]
    refine ⟨h.distinct, by simp, fun a ha b hb => ?_⟩
    obtain ⟨e', he', rfl⟩ := List.mem_map.mp ha
    simp only [List.map_cons, List.map_nil, List.mem_singleton] at hb
    rw [hb, hid]
    exact hstored e' he'
  · rw [hentries, List.mem_append, List.mem_singleton] at he'
    rcases he' with he' | rfl
    · obtain ⟨db', hdb', hrest⟩ := h.lacking e' he'
      exact ⟨db', by rw [Store.logical?_putLogical, if_neg (hstored e' he').symm, hdb'], hrest⟩
    · exact ⟨db.reread, by rw [Store.logical?_putLogical, if_pos hid.symm], hphysical, hroles, hne⟩
  · rw [hentries]
    rw [Store.logical?_putLogical] at hdb'
    split at hdb'
    · rename_i heq
      exact ⟨e, by simp, hid.trans heq⟩
    · obtain ⟨e', he', hid'⟩ := h.complete id db' hdb' hp hdrop hmissing
      exact ⟨e', List.mem_append_left _ he', hid'⟩

/-- An entry that is acknowledged leaves, and its database lacks nothing any more. -/
theorem Covers.acknowledge {i : Instruction} {s : Store} {entry : AdditionalRoles} {db : LogicalDatabase} {done : Success}
    (h : i.Covers s) (htabled : s.Tabled) (hentry : entry ∈ i.entries)
    (hnamed : entry.databaseId = done.databaseId) (hdb : s.logical? done.databaseId = some db) :
    (i.removeEntry done.databaseId).Covers (s.putLogical (db.acknowledge entry done)) := by
  have hput := htabled.logical?_putLogical_acknowledge hdb entry
  have hroles : entry.roles = db.missingRoles i.target.metadata.roleSet := by
    obtain ⟨db', hdb', -, hroles, -⟩ := h.lacking entry hentry
    rw [hnamed, hdb] at hdb'
    rw [hroles, Option.some.inj hdb']
  refine ⟨?_, fun e he => ?_, fun id db' hdb' hp hdrop hmissing => ?_⟩
  · exact h.distinct.sublist (List.eraseP_sublist.map _)
  · obtain ⟨he, hne⟩ := (mem_removeEntry_iff h.distinct).mp he
    obtain ⟨db', hdb', hrest⟩ := h.lacking e he
    exact ⟨db', by rw [hput, if_neg (Ne.symm hne), hdb'], hrest⟩
  · rw [hput] at hdb'
    split at hdb'
    · rw [← Option.some.inj hdb'] at hmissing
      exact absurd (LogicalDatabase.missingRoles_acknowledge hroles done) hmissing
    · rename_i hne
      obtain ⟨e, he, heid⟩ := h.complete id db' hdb' hp hdrop hmissing
      exact ⟨e, (mem_removeEntry_iff h.distinct).mpr ⟨he, heid ▸ Ne.symm hne⟩, heid⟩

end Instruction

namespace Store

/-- Records stand under their ids, the tables of instructions are inverse to each other, and every live instruction is
sound. -/
structure MigrationsSound (s : Store) : Prop where
  tabled : s.Tabled
  sound : ∀ physicalDatabaseId, s.SoundOn physicalDatabaseId

namespace MigrationsSound

theorem empty : Store.empty.MigrationsSound :=
  ⟨.empty, fun _ id i hi => by simp [instruction?, Store.empty] at hi⟩

/-- Migrations stay sound when every site stays the same. -/
theorem of_sites {s s' : Store} (h : s.MigrationsSound) (htabled : s'.Tabled)
    (hsites : ∀ physicalDatabaseId, SameSite physicalDatabaseId s s') : s'.MigrationsSound :=
  ⟨htabled, fun physicalDatabaseId => (h.sound physicalDatabaseId).of_sameSite (hsites physicalDatabaseId)⟩

theorem of_sameRecords {s s' : Store} (h : s.MigrationsSound) (hsame : SameRecords s s') : s'.MigrationsSound :=
  h.of_sites (h.tabled.of_sameRecords hsame) fun physicalDatabaseId => .of_sameRecords hsame physicalDatabaseId

/-- A sound instruction may be stored where its physical database has no other. -/
theorem putInstruction {s : Store} {i : Instruction} (htabled : s.Tabled)
    (hothers : ∀ physicalDatabaseId, i.physicalDatabaseId ≠ physicalDatabaseId → s.SoundOn physicalDatabaseId)
    (hi : i.Sound s)
    (hfree : ∀ id j, s.instruction? id = some j → j.physicalDatabaseId = i.physicalDatabaseId → id = i.id)
    (hsame : ∀ j, s.instruction? i.id = some j → j.physicalDatabaseId = i.physicalDatabaseId) :
    (s.putInstruction i).MigrationsSound := by
  refine ⟨htabled.putInstruction hfree hsame, fun physicalDatabaseId => ?_⟩
  by_cases hp : i.physicalDatabaseId = physicalDatabaseId
  · exact hp ▸ SoundOn.putInstruction hi hfree
  · exact (hothers _ hp).of_sameSite (.putInstruction_of_ne hp)

/-- A sound instruction may be stored in place of the one with its id. -/
theorem putInstruction_of_stored {s : Store} {i j : Instruction} (htabled : s.Tabled)
    (hothers : ∀ physicalDatabaseId, i.physicalDatabaseId ≠ physicalDatabaseId → s.SoundOn physicalDatabaseId)
    (hi : i.Sound s) (hj : s.instruction? i.id = some j) (hphysical : j.physicalDatabaseId = i.physicalDatabaseId) :
    (s.putInstruction i).MigrationsSound := by
  refine putInstruction htabled hothers hi (fun id k hk hk' => ?_) fun k hk => ?_
  · exact (htabled.instruction_unique hk hj (hk'.trans hphysical.symm)).1
  · rw [← Option.some.inj (hj.symm.trans hk)]
    exact hphysical

theorem deleteInstruction {s : Store} (h : s.MigrationsSound) (id : String) : (s.deleteInstruction id).MigrationsSound :=
  h.of_sites (h.tabled.deleteInstruction id) fun physicalDatabaseId => .deleteInstruction s id physicalDatabaseId

theorem discardMigration {s : Store} (h : s.MigrationsSound) (id : String) : (s.discardMigration id).MigrationsSound :=
  h.of_sites (h.tabled.discardMigration id) fun physicalDatabaseId => .discardMigration s id physicalDatabaseId

/-- A physical database that no instruction names has no migration that could be unsound. -/
theorem of_unnamed {s : Store} {id : String} (htabled : s.Tabled)
    (hothers : ∀ physicalDatabaseId, id ≠ physicalDatabaseId → s.SoundOn physicalDatabaseId)
    (hnone : ∀ id' i, s.instruction? id' = some i → i.physicalDatabaseId ≠ id) : s.MigrationsSound := by
  refine ⟨htabled, fun physicalDatabaseId => ?_⟩
  by_cases hp : id = physicalDatabaseId
  · exact fun id' i hi hpi => absurd (hpi.trans hp.symm) (hnone id' i hi)
  · exact hothers _ hp

/-! ## Requests and drops -/

/-- A later record of a stored database changes nothing that a migration depends on. -/
theorem putLogical_of_continues {s : Store} {db db' : LogicalDatabase} (h : s.MigrationsSound)
    (hdb : s.logical? db'.id = some db) (hc : db.Continues db') : (s.putLogical db').MigrationsSound :=
  h.of_sites (h.tabled.putLogical db') fun physicalDatabaseId =>
    .of_hosts (by rw [putLogical_eq]) (by rw [putLogical_eq]) (.putLogical hdb hc physicalDatabaseId)

/-- A new database joins the live migration of its physical database. -/
theorem create {s : Store} (h : s.MigrationsSound) {now : UInt64} {id dbType : String} {a : Address}
    {target : PhysicalDatabase} (hnew : s.logical? id = none) : (s.create now id dbType a target).2.MigrationsSound := by
  let db := LogicalDatabase.make id now dbType a target
  have hnew' : s.logical? db.id = none := hnew
  have htabled : (s.putLogical db).Tabled := h.tabled.putLogical db
  have hinstruction : ∀ id, (s.putLogical db).instruction? id = s.instruction? id := fun id => by
    rw [putLogical_eq]
    rfl
  have hphysical : (s.putLogical db).physicals = s.physicals := by rw [putLogical_eq]
  have hothers : ∀ physicalDatabaseId, db.physicalDatabaseId ≠ physicalDatabaseId →
      (s.putLogical db).SoundOn physicalDatabaseId := by
    intro physicalDatabaseId hne
    refine (h.sound _).of_sameSite (.of_hosts hphysical (by rw [putLogical_eq]) ?_)
    exact .putLogical_of_ne (fun db₀ hdb₀ => by rw [hnew'] at hdb₀; cases hdb₀) hne
  change ((s.putLogical db).joinMigration now db).MigrationsSound
  unfold joinMigration
  split
  · rename_i hnone
    exact of_unnamed htabled hothers fun id' i hi => htabled.physicalDatabaseId_ne hnone hi
  · rename_i i hlive
    obtain ⟨hi, hp⟩ := htabled.instructionFor?_eq_some_iff.mp hlive
    have hsound : i.Sound s := h.sound _ _ i (by rwa [hinstruction] at hi) hp
    have hfits : i.Fits (s.putLogical db) := by
      obtain ⟨p, hp, hrest⟩ := hsound.fits.registered
      exact ⟨hsound.fits.target_id, hsound.fits.multiusers, p, by simpa only [physical?, hphysical] using hp, hrest⟩
    dsimp only
    split
    · rename_i hmissing
      refine ⟨htabled, fun physicalDatabaseId => ?_⟩
      by_cases hp' : db.physicalDatabaseId = physicalDatabaseId
      · intro id' j hj hpj
        obtain ⟨-, rfl⟩ := htabled.instruction_unique hi hj (hp.trans (hp'.trans hpj.symm))
        exact ⟨hfits, hsound.pending, hsound.covers.putLogical_of_complete hnew' (by simpa using hmissing)⟩
      · exact hothers _ hp'
    · rename_i hmissing
      let e : AdditionalRoles :=
        ⟨db.id, db.missingRoles i.target.metadata.roleSet, db.connectionProperties, db.resources⟩
      have hcovers : (i.addEntry e).Covers (s.putLogical db) :=
        hsound.covers.putLogical_addEntry hnew' hp.symm rfl rfl (by simpa [e] using hmissing)
      refine putInstruction_of_stored htabled (fun physicalDatabaseId hne => hothers _ fun heq => hne (hp.trans heq)) ?_ hi rfl
      refine ⟨⟨hfits.target_id, hfits.multiusers, hfits.registered⟩, ?_, hcovers.congr rfl rfl rfl⟩
      simp [Instruction.addEntry]

/-- A request for a database keeps migrations sound when a new database gets an id that none has. -/
theorem bound {s s' : Store} (h : s.MigrationsSound) {now : UInt64} {id : String} {r : DatabaseRequest}
    {outcome : BindingOutcome} (hnew : s.logical? id = none) (hcase : s.Bound now id r outcome s') : s'.MigrationsSound := by
  rcases hcase.cases_on_created with
    ⟨-, rfl | ⟨c, db, ⟨id', hdb⟩, rfl⟩⟩ | ⟨-, a, target, applied, -, -, -, -, rfl⟩
  · exact h
  · have hid : db.id = id' := h.tabled.logical_id id' db hdb
    have hstored : s.logical? (db.upgrade c).id = some db := hid.symm ▸ hdb
    exact h.putLogical_of_continues hstored ⟨rfl, rfl, fun hd => hd⟩
  · exact h.create hnew

theorem markForDrop {s s' : Store} (h : s.MigrationsSound) {id : String} {out : LogicalDatabase}
    (hok : s.markForDrop id = .ok (out, s')) : s'.MigrationsSound := by
  obtain ⟨db, hdb, rfl⟩ := markForDrop_eq_ok hok
  have hid : db.id = id := h.tabled.logical_id id db hdb
  have hstored : s.logical? ({ db with markedForDrop := true } : LogicalDatabase).id = some db := hid.symm ▸ hdb
  exact h.putLogical_of_continues hstored ⟨rfl, rfl, fun hd => by cases hd⟩

/-! ## The registry -/

theorem setGlobal {s s' : Store} (h : s.MigrationsSound) {now : UInt64} {id : String} {out : PhysicalDatabase}
    (hok : s.setGlobal now id = .ok (out, s')) : s'.MigrationsSound := by
  obtain ⟨p, hp, rfl⟩ := setGlobal_eq_ok hok
  have hclear : (s.clearGlobal now p.dbType id).MigrationsSound ∧
      ∃ q, (s.clearGlobal now p.dbType id).physical? id = some q ∧ q.dbType = p.dbType ∧ q.metadata = p.metadata := by
    rcases s.clearGlobal_cases now p.dbType id with heq | ⟨q, ⟨id', hq⟩, heq⟩
    · rw [heq]
      exact ⟨h, p, hp, rfl, rfl⟩
    · rw [heq]
      have hqid := h.tabled.physical_id id' q hq
      have hsite : ∀ physicalDatabaseId, SameSite physicalDatabaseId s
          (s.putPhysical { q with global := false, updatedAt := now }) := by
        refine fun physicalDatabaseId => .putPhysical (fun q' hq' => ?_) physicalDatabaseId
        rw [show ({ q with global := false, updatedAt := now } : PhysicalDatabase).id = id' from hqid, hq] at hq'
        cases hq'
        exact ⟨rfl, rfl⟩
      exact ⟨h.of_sites (h.tabled.putPhysical _) hsite, (hsite id).physical p hp⟩
  obtain ⟨hsound, q, hq, htype, hmeta⟩ := hclear
  refine hsound.of_sites (hsound.tabled.putPhysical _) fun physicalDatabaseId =>
    .putPhysical (fun q' hq' => ?_) physicalDatabaseId
  rw [show ({ p with global := true, updatedAt := now } : PhysicalDatabase).id = id from h.tabled.physical_id id p hp,
    hq] at hq'
  cases hq'
  exact ⟨htype.symm, hmeta.symm⟩

theorem deregister {s s' : Store} (h : s.MigrationsSound) {id : String} {out : Nat}
    (hok : s.deregister id = .ok (out, s')) : s'.MigrationsSound := by
  obtain ⟨p, -, -, -, rfl⟩ := deregister_eq_ok hok
  have hrules := h.of_sameRecords (s.sameButRules_removeRulesTo id).toSameRecords
  have hdiscard := hrules.discardMigration id
  have hnone : ∀ id' i, ((s.removeRulesTo id).2.discardMigration id).instruction? id' = some i → i.physicalDatabaseId ≠ id :=
    fun id' i hi => (hrules.tabled.instruction?_discardMigration.mp hi).2
  exact of_unnamed (hdiscard.tabled.deletePhysical id)
    (fun _ hne => (hdiscard.sound _).of_sameSite (.deletePhysical_of_ne hne)) hnone

end MigrationsSound

end Store

end DatabaseBroker
