import DatabaseBroker.Balancing.Rules
import DatabaseBroker.Binding
import DatabaseBroker.Registration.Migration
import Mathlib.Data.List.Nodup

/-!
# What a write does to the tables

Each write of a record as an update of the tables that it touches, and what a listing holds. `Store.SameRecords` says of two
stores that their databases, instructions and indexes are the same, and `Store.SameButRules` that their domains are the same
too: rules, entries and labels may be written without any of these changing.
-/

namespace DatabaseBroker

namespace KeyMap

variable {α : Type}

/-- The values are what look-ups find. -/
theorem mem_values_iff {m : KeyMap α} {v : α} : v ∈ m.values ↔ ∃ k, m.get? k = some v := by
  simp only [values, List.mem_map, get?_eq_some_iff]
  constructor
  · rintro ⟨e, he, rfl⟩
    exact ⟨e.1, he⟩
  · rintro ⟨k, hk⟩
    exact ⟨(k, v), hk, rfl⟩

/-- Of two insertions at a key the later one counts. -/
theorem insert_insert (m : KeyMap α) (k : String) (v w : α) : (m.insert k v).insert k w = m.insert k w := by
  refine ext_get? fun k' => ?_
  simp only [get?_insert]
  split <;> rfl

/-- Inserting what is there changes nothing. -/
theorem insert_of_get? {m : KeyMap α} {k : String} {v : α} (h : m.get? k = some v) : m.insert k v = m := by
  refine ext_get? fun k' => ?_
  rw [get?_insert]
  split
  · rename_i hk
    rw [← hk, h]
  · rfl

/-- Erasing what is not there changes nothing. -/
theorem erase_of_get? {m : KeyMap α} {k : String} (h : m.get? k = none) : m.erase k = m := by
  refine ext_get? fun k' => ?_
  rw [get?_erase]
  split
  · rename_i hk
    rw [← hk, h]
  · rfl

/-- A value that is inserted at each key of a list is found there. -/
theorem get?_foldl_insert (keys : List String) (m : KeyMap α) (v : α) (k : String) :
    (keys.foldl (fun m key => m.insert key v) m).get? k = if k ∈ keys then some v else m.get? k := by
  induction keys generalizing m with
  | nil => simp
  | cons key rest ih =>
    rw [List.foldl_cons, ih, get?_insert]
    by_cases hrest : k ∈ rest
    · simp [hrest]
    · by_cases hkey : key = k
      · simp [hkey]
      · simp [hrest, hkey, Ne.symm hkey]

/-- A value that is erased at each key of a list where it stands is found at none of them, and other values stay. -/
theorem get?_foldl_release [DecidableEq α] (keys : List String) (m : KeyMap α) (v : α) (k : String) :
    (keys.foldl (fun m key => if m.get? key = some v then m.erase key else m) m).get? k =
      if k ∈ keys ∧ m.get? k = some v then none else m.get? k := by
  induction keys generalizing m with
  | nil => simp
  | cons key rest ih =>
    have hone : (if m.get? key = some v then m.erase key else m).get? k =
        if k = key ∧ m.get? k = some v then none else m.get? k := by
      by_cases hkey : k = key
      · subst hkey
        split <;> simp [*]
      · split <;> simp [get?_erase, hkey, Ne.symm hkey]
    rw [List.foldl_cons, ih, hone]
    by_cases hv : m.get? k = some v
    · by_cases hkey : k = key
      · simp [hkey, hkey ▸ hv]
      · simp [hkey, hv]
    · simp [hv]

/-- The keys of a map are distinct. -/
theorem keys_nodup (m : KeyMap α) : (m.entries.map (·.1)).Nodup := by
  rw [List.Nodup, List.pairwise_map]
  refine m.ascending.imp fun {a b} hlt heq => ?_
  rw [heq] at hlt
  exact String.lt_irrefl b.1 hlt

end KeyMap

namespace LogicalDatabase

/-- The classifier index once the database is stored. -/
def reindex (db : LogicalDatabase) (index : KeyMap String) : KeyMap String :=
  db.classifiers.foldl (fun index c =>
    let key := classifierKey db.dbType c
    if db.markedForDrop then (if index.get? key = some db.id then index.erase key else index)
    else index.insert key db.id) index

/-- A database without an old classifier is indexed under its classifier. -/
theorem reindex_of_current {db : LogicalDatabase} (h : db.oldClassifier = none) (index : KeyMap String) :
    db.reindex index =
      if db.markedForDrop then
        (if index.get? (classifierKey db.dbType db.classifier) = some db.id then
          index.erase (classifierKey db.dbType db.classifier) else index)
      else index.insert (classifierKey db.dbType db.classifier) db.id := by
  simp only [reindex, classifiers, h, Option.toList_none, List.foldl_cons, List.foldl_nil]

/-- So its key leads to it once it is stored, or, when it is archived, does not lead to it any more; other entries stay. -/
theorem get?_reindex_of_current {db : LogicalDatabase} (h : db.oldClassifier = none) (index : KeyMap String) (key : String) :
    (db.reindex index).get? key =
      if classifierKey db.dbType db.classifier = key then
        (if db.markedForDrop then (if index.get? key = some db.id then none else index.get? key) else some db.id)
      else index.get? key := by
  rw [reindex_of_current h]
  by_cases hkey : classifierKey db.dbType db.classifier = key
  · subst hkey
    split
    · split <;> simp [*]
    · simp
  · split
    · split <;> simp [KeyMap.get?_erase, hkey]
    · simp [KeyMap.get?_insert, hkey]

/-- The keys of the classifiers that the database is known under. -/
def keys (db : LogicalDatabase) : List String := db.classifiers.map (classifierKey db.dbType)

/-- The keys of a database that is not archived lead to it once it is stored, and the others as before. -/
theorem get?_reindex_of_live {db : LogicalDatabase} (h : db.markedForDrop = false) (index : KeyMap String) (key : String) :
    (db.reindex index).get? key = if key ∈ db.keys then some db.id else index.get? key := by
  rw [← KeyMap.get?_foldl_insert, keys, List.foldl_map]
  simp only [reindex, h, Bool.false_eq_true, if_false]

/-- No key of an archived database leads to it once it is stored, and every other entry stays. -/
theorem get?_reindex_of_archived {db : LogicalDatabase} (h : db.markedForDrop = true) (index : KeyMap String) (key : String) :
    (db.reindex index).get? key = if key ∈ db.keys ∧ index.get? key = some db.id then none else index.get? key := by
  rw [← KeyMap.get?_foldl_release, keys, List.foldl_map]
  simp only [reindex, h, if_true]

end LogicalDatabase

namespace Store

/-! ## Writes as updates -/

/-- Storing a logical database writes the database and the classifier index. -/
theorem putLogical_eq (s : Store) (db : LogicalDatabase) :
    s.putLogical db =
      { s with logicals := s.logicals.insert db.id db.reread, classifierIndex := db.reindex s.classifierIndex } := by
  have hfold : ∀ (l : List Classifier) (s : Store),
      l.foldl (fun s c =>
        let key := classifierKey db.dbType c
        if db.markedForDrop then s.unindex key db.id else s.index key db.id) s =
      { s with classifierIndex := l.foldl (fun index c =>
        let key := classifierKey db.dbType c
        if db.markedForDrop then (if index.get? key = some db.id then index.erase key else index)
        else index.insert key db.id) s.classifierIndex } := by
    intro l
    induction l with
    | nil => intro s; rfl
    | cons c rest ih =>
      intro s
      simp only [List.foldl_cons, ih]
      by_cases hdrop : db.markedForDrop = true
      · simp only [hdrop, if_true, unindex]
        split <;> rfl
      · simp only [hdrop, Bool.false_eq_true, if_false, index]
  simp only [putLogical, hfold, LogicalDatabase.reindex]

/-- After a logical database is stored, it is found as it reads back, and the others as before. -/
theorem logical?_putLogical (s : Store) (db : LogicalDatabase) (id : String) :
    (s.putLogical db).logical? id = if db.id = id then some db.reread else s.logical? id := by
  simp only [putLogical_eq, logical?, KeyMap.get?_insert]

/-- What is found after a logical database is stored is what is kept of it, or was found before. -/
theorem logical?_putLogical_cases {s : Store} {db db' : LogicalDatabase} {id : String}
    (h : (s.putLogical db).logical? id = some db') :
    db.id = id ∧ db.reread = db' ∨ db.id ≠ id ∧ s.logical? id = some db' := by
  rw [logical?_putLogical] at h
  split at h
  · rename_i hid
    exact Or.inl ⟨hid, Option.some.inj h⟩
  · rename_i hid
    exact Or.inr ⟨hid, h⟩

/-- Of two instructions stored under one id for one physical database the later one counts. -/
theorem putInstruction_putInstruction (s : Store) {i j : Instruction} (hid : j.id = i.id)
    (hphysical : j.physicalDatabaseId = i.physicalDatabaseId) :
    (s.putInstruction i).putInstruction j = s.putInstruction j := by
  simp only [putInstruction, hid, hphysical, KeyMap.insert_insert]

/-- Deleting an instruction writes the two tables of instructions. -/
theorem deleteInstruction_eq (s : Store) (id : String) :
    ∃ index, s.deleteInstruction id =
      { s with instructions := s.instructions.erase id, instructionsByPhysical := index } := by
  unfold deleteInstruction
  split
  · rename_i hnone
    exact ⟨s.instructionsByPhysical, by rw [KeyMap.erase_of_get? hnone]⟩
  · exact ⟨_, rfl⟩

/-- After a deletion the other instructions are found as before. -/
theorem instruction?_deleteInstruction (s : Store) (id id' : String) :
    (s.deleteInstruction id).instruction? id' = if id = id' then none else s.instruction? id' := by
  obtain ⟨index, h⟩ := s.deleteInstruction_eq id
  simp only [h, instruction?, KeyMap.get?_erase]

/-- Discarding a migration writes the two tables of instructions. -/
theorem discardMigration_eq (s : Store) (physicalDatabaseId : String) :
    ∃ instructions index, s.discardMigration physicalDatabaseId =
      { s with instructions := instructions, instructionsByPhysical := index } := by
  unfold discardMigration
  split
  · obtain ⟨index, h⟩ := s.deleteInstruction_eq ‹Instruction›.id
    exact ⟨_, _, h⟩
  · exact ⟨s.instructions, s.instructionsByPhysical, rfl⟩

/-- Joining a migration writes the two tables of instructions. -/
theorem joinMigration_eq (s : Store) (now : UInt64) (db : LogicalDatabase) :
    ∃ instructions index, s.joinMigration now db =
      { s with instructions := instructions, instructionsByPhysical := index } := by
  unfold joinMigration
  split
  · exact ⟨s.instructions, s.instructionsByPhysical, rfl⟩
  · dsimp only
    split
    · exact ⟨s.instructions, s.instructionsByPhysical, rfl⟩
    · exact ⟨_, _, rfl⟩

/-! ## Listings -/

/-- The databases on a physical database are those bound to it that are not archived. -/
theorem mem_logicalsOn_iff {s : Store} {physicalDatabaseId : String} {db : LogicalDatabase} :
    db ∈ s.logicalsOn physicalDatabaseId ↔
      (∃ id, s.logical? id = some db) ∧ db.physicalDatabaseId = physicalDatabaseId ∧ db.markedForDrop = false := by
  simp only [logicalsOn, List.mem_mergeSort, List.mem_filter, logicalList, KeyMap.mem_values_iff, logical?,
    Bool.and_eq_true, decide_eq_true_eq, Bool.not_eq_true']

/-- The physical databases of a type are those registered with it. -/
theorem mem_physicalsOf_iff {s : Store} {dbType : String} {p : PhysicalDatabase} :
    p ∈ s.physicalsOf dbType ↔ (∃ id, s.physical? id = some p) ∧ p.dbType = dbType := by
  simp only [physicalsOf, List.mem_mergeSort, List.mem_filter, physicalList, KeyMap.mem_values_iff, physical?,
    decide_eq_true_eq]

/-- The databases on a physical database have distinct ids when each stands under its own. -/
theorem logicalsOn_ids_nodup {s : Store} (hid : ∀ id db, s.logical? id = some db → db.id = id)
    (physicalDatabaseId : String) : ((s.logicalsOn physicalDatabaseId).map (·.id)).Nodup := by
  have hkeys : s.logicals.values.map (·.id) = s.logicals.entries.map (·.1) := by
    rw [KeyMap.values, List.map_map]
    exact List.map_congr_left fun e he => hid e.1 e.2 (KeyMap.get?_eq_some_iff.mpr he)
  have hall : (s.logicalList.map (·.id)).Nodup := by
    rw [logicalList, hkeys]
    exact s.logicals.keys_nodup
  have hperm := List.mergeSort_perm (s.logicalList.filter fun db =>
    db.physicalDatabaseId = physicalDatabaseId && !db.markedForDrop) fun a b => decide (a.id ≤ b.id)
  refine (hperm.map (·.id)).nodup_iff.mpr ?_
  exact hall.sublist (List.filter_sublist.map _)

/-! ## Writes that leave databases and instructions alone -/

/-- Two stores with the same databases, instructions and indexes. -/
structure SameRecords (s s' : Store) : Prop where
  physicals : s'.physicals = s.physicals
  logicals : s'.logicals = s.logicals
  classifierIndex : s'.classifierIndex = s.classifierIndex
  instructions : s'.instructions = s.instructions
  instructionsByPhysical : s'.instructionsByPhysical = s.instructionsByPhysical

theorem SameRecords.refl (s : Store) : SameRecords s s := ⟨rfl, rfl, rfl, rfl, rfl⟩

/-- Two stores that differ in rules, entries and labels at most. -/
structure SameButRules (s s' : Store) : Prop extends SameRecords s s' where
  domains : s'.domains = s.domains

namespace SameButRules

theorem refl (s : Store) : SameButRules s s := ⟨.refl s, rfl⟩

theorem trans {s s' s'' : Store} (h : SameButRules s s') (h' : SameButRules s' s'') : SameButRules s s'' :=
  ⟨⟨h'.physicals.trans h.physicals, h'.logicals.trans h.logicals, h'.classifierIndex.trans h.classifierIndex,
    h'.instructions.trans h.instructions, h'.instructionsByPhysical.trans h.instructionsByPhysical⟩,
    h'.domains.trans h.domains⟩

/-- Writing one record after another leaves alone what each write leaves alone. -/
theorem foldl {α : Type} {write : Store → α → Store} (hwrite : ∀ s a, SameButRules s (write s a)) (l : List α) (s : Store) :
    SameButRules s (l.foldl write s) := by
  induction l generalizing s with
  | nil => exact refl s
  | cons a rest ih => exact (hwrite s a).trans (ih _)

end SameButRules

theorem sameButRules_setNamespaceRule {s s' : Store} {now : UInt64} {ns name : String} {r : NamespaceRuleRequest}
    {out : NamespaceRule × RuleWrite} (h : s.setNamespaceRule now ns name r = .ok (out, s')) : SameButRules s s' := by
  simp only [setNamespaceRule, bind, Except.bind] at h
  split at h
  · cases h
  split at h
  · cases h
  split at h
  · cases h
  split at h
  · cases h
  split at h
  · cases h
  · cases h
    exact ⟨⟨rfl, rfl, rfl, rfl, rfl⟩, rfl⟩

theorem sameButRules_removeNamespaceRule {s s' : Store} {ns name : String} (h : s.removeNamespaceRule ns name = .ok s') :
    SameButRules s s' := by
  unfold removeNamespaceRule at h
  split at h
  · cases h
    exact ⟨⟨rfl, rfl, rfl, rfl, rfl⟩, rfl⟩
  · cases h

theorem sameButRules_setMicroserviceRules {s s' : Store} {now : UInt64} {ns : String} {rules : List MicroserviceRule}
    {sets : List MicroserviceRuleSet} (h : s.setMicroserviceRules now ns rules = .ok (sets, s')) : SameButRules s s' := by
  simp only [setMicroserviceRules, bind, Except.bind] at h
  split at h
  · cases h
  split at h
  · cases h
  split at h
  · cases h
    have hwrite : ∀ (s : Store) r, SameButRules s (s.putRuleSet r) := fun _ _ => ⟨⟨rfl, rfl, rfl, rfl, rfl⟩, rfl⟩
    exact SameButRules.foldl hwrite _ s
  · cases h

theorem sameButRules_setPermanentRules {s s' : Store} {rules : List PermanentRule} {entries : List PermanentEntry}
    (h : s.setPermanentRules rules = .ok (entries, s')) : SameButRules s s' := by
  simp only [setPermanentRules, bind, Except.bind] at h
  split at h
  · cases h
  split at h
  · cases h
  · cases h
    have hwrite : ∀ (s : Store) e, SameButRules s (s.putPermanentEntry e) := fun _ _ => ⟨⟨rfl, rfl, rfl, rfl, rfl⟩, rfl⟩
    exact SameButRules.foldl hwrite _ s

theorem sameButRules_removePermanentEntries (s : Store) (ns : String) (dbType : Option String) :
    SameButRules s (s.removePermanentEntries ns dbType).2 := by
  have hwrite : ∀ (s : Store) (e : PermanentEntry), SameButRules s (s.deletePermanentEntry e.ns e.dbType) :=
    fun _ _ => ⟨⟨rfl, rfl, rfl, rfl, rfl⟩, rfl⟩
  exact SameButRules.foldl hwrite _ s

theorem sameButRules_setLabels {s s' : Store} {now : UInt64} {ns microservice : String} {labels : Labels}
    {record : MicroserviceLabels} (h : s.setLabels now ns microservice labels = .ok (record, s')) : SameButRules s s' := by
  simp only [setLabels, bind, Except.bind] at h
  split at h
  · cases h
  split at h
  · cases h
  split at h
  · cases h
  · cases h
    exact ⟨⟨rfl, rfl, rfl, rfl, rfl⟩, rfl⟩

/-- Deleting the rules that lead to a physical database leaves all but rules alone. -/
theorem sameButRules_removeRulesTo (s : Store) (id : String) : SameButRules s (s.removeRulesTo id).2 := by
  have hwrite : ∀ (s : Store) (r : NamespaceRule), SameButRules s (s.deleteNamespaceRule r.ns r.name) :=
    fun _ _ => ⟨⟨rfl, rfl, rfl, rfl, rfl⟩, rfl⟩
  exact SameButRules.foldl hwrite _ s

/-- A domain that is stored passed the check of its members. -/
theorem setDomain_eq_ok {s s' : Store} {now : UInt64} {controller : String} {members : List Member} {d : Domain}
    (h : s.setDomain now controller members = .ok (d, s')) :
    membersProblem? controller members = none ∧ s' = s.putDomain ⟨controller, members, now⟩ := by
  unfold setDomain at h
  split at h
  · cases h
  · rename_i hnone
    cases h
    simp only [Option.orElse_eq_orElse, Option.orElse_eq_or, Option.or_eq_none_iff] at hnone
    exact ⟨hnone.1, rfl⟩

/-- A domain that is deleted leaves the others. -/
theorem removeDomain_eq_ok {s s' : Store} {controller : String} (h : s.removeDomain controller = .ok s') :
    s' = s.deleteDomain controller := by
  unfold removeDomain at h
  split at h
  · cases h
    rfl
  · cases h

end Store

end DatabaseBroker
