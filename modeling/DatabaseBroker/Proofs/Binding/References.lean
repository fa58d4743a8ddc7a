import DatabaseBroker.Proofs.Balancing.Supposition
import DatabaseBroker.Proofs.Migration.Fates
import DatabaseBroker.Proofs.Store.Registry

/-!
# References

A logical database names a physical database, a rule of a namespace names its target, and nothing in the store keeps either from
going away. `Store.References` says that they are there all the same: a database that is not archived is bound to a registered
physical database of its type, and a rule leads to one of its type. Each operation keeps it (`References.run`); deregistration
does because it refuses a physical database that hosts something and takes the rules that lead to one along.

What is deregistered comes back by a new registration only (`registered_anew`).
-/

namespace DatabaseBroker

namespace Store

/-- What holds of a database that is stored: it is known under a classifier with a scope, of its own namespace, and under no
other; and while it is not archived, it is bound to a registered physical database of its type. -/
structure Refers (s : Store) (db : LogicalDatabase) : Prop where
  scope : db.classifier.scope.isSome = true
  ns : db.classifier.ns = some db.ns
  old : db.oldClassifier = none
  bound : db.markedForDrop = false → (s.registered? db.dbType db.physicalDatabaseId).isSome = true

/-- Databases and rules refer to what is registered, the index holds keys of classifiers with a scope, and rules stand under
their own keys. -/
structure References (s : Store) : Prop where
  database : ∀ id db, s.logical? id = some db → s.Refers db
  indexed : ∀ key id, s.classifierIndex.get? key = some id → ∃ dbType c, c.scope.isSome = true ∧ classifierKey dbType c = key
  rule_key : ∀ key rule, s.namespaceRules.get? key = some rule → rule.key = key
  target : ∀ key rule, s.namespaceRules.get? key = some rule →
    (s.registered? rule.dbType rule.physicalDatabaseId).isSome = true

variable {s s' : Store}

/-- A physical database is registered with a type when it is stored and of that type. -/
theorem registered?_isSome_iff {dbType id : String} :
    (s.registered? dbType id).isSome = true ↔ ∃ p, s.physical? id = some p ∧ p.dbType = dbType := by
  simp only [Option.isSome_iff_exists, registered?_eq_some_iff]

/-- A new database is put on a physical database that is registered with its type. -/
theorem RoutingTabled.registered?_of_placeFor (h : s.RoutingTabled) {r : DatabaseRequest} {a : Address}
    {target : PhysicalDatabase} {applied : Option AppliedRule} (hplace : s.placeFor r a = .ok (target, applied)) :
    (s.registered? r.dbType target.id).isSome = true := by
  rw [registered?_isSome_iff]
  unfold placeFor at hplace
  split at hplace
  · split at hplace
    · rename_i p hp
      cases hplace
      obtain ⟨hp, htype⟩ := Option.filter_eq_some_iff.mp hp
      exact ⟨target, h.physical_id _ target hp ▸ hp, by simpa using htype⟩
    · cases hplace
  · split at hplace
    · rename_i decision hdecision
      split at hplace
      · rename_i p hp
        cases hplace
        rw [h.resolve?_eq_head?] at hdecision
        obtain ⟨q, hq, htype, -⟩ := h.sound_of_mem_precedence (List.mem_of_head? hdecision)
        obtain rfl : q = target := Option.some.inj (hq.symm.trans hp)
        exact ⟨q, h.physical_id _ q hp ▸ hp, htype⟩
      · cases hplace
    · cases hplace

/-- The rules that are left when those that lead to a physical database are deleted. -/
theorem namespaceRules_removeRulesTo (hkey : ∀ key rule, s.namespaceRules.get? key = some rule → rule.key = key)
    {id key : String} {rule : NamespaceRule} (hrule : (s.removeRulesTo id).2.namespaceRules.get? key = some rule) :
    s.namespaceRules.get? key = some rule ∧ rule.physicalDatabaseId ≠ id := by
  have herased : ∀ (l : List NamespaceRule) (s : Store),
      (l.foldl (fun s r => s.deleteNamespaceRule r.ns r.name) s).namespaceRules.get? key =
        if key ∈ l.map (·.key) then none else s.namespaceRules.get? key := by
    intro l
    induction l with
    | nil => intro s; simp
    | cons r rest ih =>
      intro s
      rw [List.foldl_cons, ih, deleteNamespaceRule, KeyMap.get?_erase]
      change (if key ∈ rest.map (·.key) then none else if r.key = key then none else s.namespaceRules.get? key) = _
      by_cases hrest : key ∈ rest.map (·.key)
      · simp only [List.map_cons, List.mem_cons, hrest, or_true, if_true]
      · simp only [List.map_cons, List.mem_cons, hrest, or_false, if_false, eq_comm]
  simp only [removeRulesTo, herased] at hrule
  split at hrule
  · cases hrule
  · rename_i hkept
    refine ⟨hrule, fun hid => hkept (List.mem_map.mpr ⟨rule, ?_, hkey key rule hrule⟩)⟩
    exact List.mem_filter.mpr ⟨KeyMap.mem_values_iff.mpr ⟨key, hrule⟩, by simpa using hid⟩

theorem Refers.of_registered {db : LogicalDatabase} (h : s.Refers db)
    (hlasts : ∀ dbType id, (s.registered? dbType id).isSome = true → (s'.registered? dbType id).isSome = true) :
    s'.Refers db :=
  ⟨h.scope, h.ns, h.old, fun hlive => hlasts _ _ (h.bound hlive)⟩

/-- What is kept of a database refers to what the database refers to. -/
theorem Refers.reread {db : LogicalDatabase} (h : s.Refers db) : s.Refers db.reread where
  scope := Classifier.scope_isSome_reread h.scope
  ns := Classifier.part_reread .ns h.ns
  old := by simp only [LogicalDatabase.reread, h.old, Option.map_none]
  bound := h.bound

namespace References

theorem empty : Store.empty.References := by
  constructor <;> simp [Store.empty, logical?]

/-- Rules under their own keys make what resolution reads tabled. -/
theorem routingTabled (h : s.References) (htabled : s.Tabled) : s.RoutingTabled := ⟨htabled.physical_id, h.rule_key⟩

/-- No database is found under a classifier without a scope. -/
theorem findLogical?_legacy (h : s.References) {dbType : String} {c legacy : Classifier} (hlifted : c.ScopeLifted)
    (hlegacy : c.legacyEquivalent? = some legacy) : s.findLogical? dbType legacy = none := by
  cases hfound : s.findLogical? dbType legacy with
  | none => rfl
  | some db =>
    obtain ⟨id, hindex, -⟩ := findLogical?_eq_some_iff.mp hfound
    obtain ⟨dbType', c', hscope, hkey⟩ := h.indexed _ id hindex
    exact absurd hkey.symm (Classifier.classifierKey_legacy_ne hlifted hlegacy hscope)

/-! ## Writes -/

/-- What leaves databases and rules alone keeps references when no physical database goes away or changes its type. -/
theorem of_tables (h : s.References) (hlogicals : s'.logicals = s.logicals)
    (hindex : s'.classifierIndex = s.classifierIndex) (hrules : s'.namespaceRules = s.namespaceRules)
    (hlasts : ∀ dbType id, (s.registered? dbType id).isSome = true → (s'.registered? dbType id).isSome = true) :
    s'.References where
  database id db hdb := (h.database id db (by rwa [logical?, ← hlogicals])).of_registered hlasts
  indexed := by simpa only [hindex] using h.indexed
  rule_key := by simpa only [hrules] using h.rule_key
  target key rule hrule := hlasts _ _ (h.target key rule (hrules ▸ hrule))

/-- What writes the registry alone keeps references when no physical database goes away or changes its type. -/
theorem of_registry (h : s.References) (hsame : SameButRegistry s s')
    (hlasts : ∀ dbType id, (s.registered? dbType id).isSome = true → (s'.registered? dbType id).isSome = true) :
    s'.References :=
  h.of_tables hsame.logicals hsame.classifierIndex hsame.namespaceRules hlasts

/-- What writes no databases and no rules of namespaces keeps references. -/
theorem of_sameButRules (h : s.References) (hsame : SameButRules s s') (hrules : s'.namespaceRules = s.namespaceRules) :
    s'.References := by
  refine h.of_tables hsame.logicals hsame.classifierIndex hrules fun dbType id hsome => ?_
  rwa [registered?, hsame.physicals]

/-- A database that refers to what is registered may be stored. -/
theorem putLogical (h : s.References) {db : LogicalDatabase} (hdb : s.Refers db) : (s.putLogical db).References := by
  have hregistered : ∀ dbType id, (s.putLogical db).registered? dbType id = s.registered? dbType id := by
    intro dbType id
    rw [putLogical_eq]
    rfl
  refine ⟨fun id db' hdb' => ?_, fun key id hkey => ?_, ?_, ?_⟩
  · refine Refers.of_registered (s := s) ?_ fun dbType id hsome => by rwa [hregistered]
    rw [logical?_putLogical] at hdb'
    split at hdb'
    · rw [← Option.some.inj hdb']
      exact hdb.reread
    · exact h.database id db' hdb'
  · rw [putLogical_eq, LogicalDatabase.reindex_of_current hdb.old] at hkey
    split at hkey
    · split at hkey
      · rw [KeyMap.get?_erase] at hkey
        split at hkey
        · cases hkey
        · exact h.indexed key id hkey
      · exact h.indexed key id hkey
    · rw [KeyMap.get?_insert] at hkey
      split at hkey
      · rename_i hown
        exact ⟨db.dbType, db.classifier, hdb.scope, hown⟩
      · exact h.indexed key id hkey
  · rw [putLogical_eq]
    exact h.rule_key
  · intro key rule hrule
    rw [hregistered]
    rw [putLogical_eq] at hrule
    exact h.target key rule hrule

/-- A rule whose target is registered with its type may be stored. -/
theorem putNamespaceRule (h : s.References) {rule : NamespaceRule}
    (htarget : (s.registered? rule.dbType rule.physicalDatabaseId).isSome = true) :
    (s.putNamespaceRule rule).References := by
  have hstored : ∀ key rule', (s.putNamespaceRule rule).namespaceRules.get? key = some rule' →
      (rule.key = key ∧ rule' = rule) ∨ s.namespaceRules.get? key = some rule' := by
    intro key rule' hrule
    simp only [Store.putNamespaceRule, KeyMap.get?_insert] at hrule
    split at hrule
    · rename_i hkey
      exact Or.inl ⟨hkey, (Option.some.inj hrule).symm⟩
    · exact Or.inr hrule
  refine ⟨fun id db hdb => (h.database id db hdb).of_registered fun _ _ hsome => hsome, h.indexed,
    fun key rule' hrule => ?_, fun key rule' hrule => ?_⟩
  · rcases hstored key rule' hrule with ⟨hkey, rfl⟩ | hrule
    · exact hkey
    · exact h.rule_key key rule' hrule
  · rcases hstored key rule' hrule with ⟨-, rfl⟩ | hrule
    · exact htarget
    · exact h.target key rule' hrule

/-- A rule may be deleted. -/
theorem deleteNamespaceRule (h : s.References) (ns name : String) : (s.deleteNamespaceRule ns name).References := by
  have hstored : ∀ key rule, (s.deleteNamespaceRule ns name).namespaceRules.get? key = some rule →
      s.namespaceRules.get? key = some rule := by
    intro key rule hrule
    simp only [Store.deleteNamespaceRule, KeyMap.get?_erase] at hrule
    split at hrule
    · cases hrule
    · exact hrule
  exact ⟨fun id db hdb => (h.database id db hdb).of_registered fun _ _ hsome => hsome, h.indexed,
    fun key rule hrule => h.rule_key key rule (hstored key rule hrule),
    fun key rule hrule => h.target key rule (hstored key rule hrule)⟩

/-! ## Operations -/

/-- A rule that is stored passed the check of its target. -/
theorem setNamespaceRule (h : s.References) {now : UInt64} {ns name : String} {r : NamespaceRuleRequest}
    {out : NamespaceRule × RuleWrite} (hok : s.setNamespaceRule now ns name r = .ok (out, s')) : s'.References := by
  obtain ⟨-, -, htarget, rfl⟩ := setNamespaceRule_eq_ok hok
  exact h.putNamespaceRule htarget

/-- What an acknowledgement records of databases refers to what they referred to. -/
theorem applySuccesses (h : s.References) {i i' : Instruction} {done : List Success}
    (happly : applySuccesses i s done = .ok (i', s')) : s'.References := by
  refine applySuccesses_invariant (fun s₁ db entry d h₁ hdb => ?_) h happly
  have hrefers := h₁.database _ db hdb
  exact h₁.putLogical ⟨hrefers.scope, hrefers.ns, hrefers.old, hrefers.bound⟩

/-- An acknowledgement keeps references when no physical database goes away or changes its type. -/
theorem acknowledged (h : s.References) (hsound : s.MigrationsSound) {now : UInt64} {size : Nat}
    {physicalDatabaseId instructionId : String} {ack : Acknowledgement} {answer : Except RegistryError MigrationStep}
    (hcase : s.Acknowledged now size physicalDatabaseId instructionId ack answer s')
    (hlasts : ∀ dbType id, (s.registered? dbType id).isSome = true → (s'.registered? dbType id).isSome = true) :
    s'.References := by
  cases hcase with
  | unknown => exact h
  | failed => exact h.of_registry (.deleteInstruction s instructionId) hlasts
  | applied hlive hp hfailure happly hadvance =>
    have hrecorded := h.applySuccesses happly
    obtain ⟨logicals, index, rfl⟩ := (hsound.recorded hlive happly).store
    exact hrecorded.of_registry (.advance hadvance) hlasts

/-- Dropping a database keeps references. -/
theorem markForDrop (h : s.References) {id : String} {out : LogicalDatabase} (hok : s.markForDrop id = .ok (out, s')) :
    s'.References := by
  obtain ⟨db, hdb, rfl⟩ := markForDrop_eq_ok hok
  have hrefers := h.database id db hdb
  exact h.putLogical ⟨hrefers.scope, hrefers.ns, hrefers.old, nofun⟩

/-- A request for a database keeps references: it upgrades none, since none is found under a classifier without a scope, and a
new one is put on a physical database of its type. -/
theorem bound (h : s.References) (htabled : s.Tabled) {now : UInt64} {id : String} {r : DatabaseRequest}
    {outcome : BindingOutcome} (hlifted : r.classifier.ScopeLifted) (hcase : s.Bound now id r outcome s') :
    s'.References := by
  cases hcase with
  | refused => exact h
  | found => exact h
  | unplaced => exact h
  | @upgraded a legacy db haddress hmissing hlegacy hfound =>
    rw [h.findLogical?_legacy ((address_scope haddress).2 hlifted) hlegacy] at hfound
    cases hfound
  | @created a target applied haddress hmissing hplace =>
    have hns : a.classifier.ns = some a.ns := by
      obtain ⟨c, own, -, rfl | ⟨d, m, -, -, rfl⟩⟩ := address_cases haddress
      · rfl
      · rfl
    have hregistered := (h.routingTabled htabled).registered?_of_placeFor hplace
    let db := LogicalDatabase.make id now r.dbType a target
    have hrefers : s.Refers db := ⟨(address_scope haddress).1, hns, rfl, fun _ => hregistered⟩
    obtain ⟨instructions, index, hjoined⟩ := (s.putLogical db).joinMigration_eq now db
    have hstore : (s.create now id r.dbType a target).2 =
        { s.putLogical db with instructions := instructions, instructionsByPhysical := index } := hjoined
    rw [hstore]
    exact (h.putLogical hrefers).of_tables rfl rfl rfl fun _ _ hsome => hsome

/-- A deregistration keeps references: nothing is bound to the physical database, and the rules that lead to it go with it. -/
theorem deregister (h : s.References) {id : String} {out : Nat} (hok : s.deregister id = .ok (out, s')) : s'.References := by
  have hlasts : ∀ dbType id', id' ≠ id → (s.registered? dbType id').isSome = true →
      (s'.registered? dbType id').isSome = true := by
    intro dbType id' hne hsome
    rwa [registered?, ← physical?, physical?_of_deregister hok, if_neg (Ne.symm hne)]
  obtain ⟨p, hp, -, hhosted, hs'⟩ := deregister_eq_ok hok
  have hsame := s.sameButRules_removeRulesTo id
  have hrest : SameButRegistry (s.removeRulesTo id).2 s' :=
    hs' ▸ (SameButRegistry.discardMigration _ id).trans (.deletePhysical _ id)
  have hlogicals : s'.logicals = s.logicals := hrest.logicals.trans hsame.logicals
  have hrule : ∀ key rule, s'.namespaceRules.get? key = some rule →
      s.namespaceRules.get? key = some rule ∧ rule.physicalDatabaseId ≠ id := by
    intro key rule hrule
    rw [hrest.namespaceRules] at hrule
    exact namespaceRules_removeRulesTo h.rule_key hrule
  refine ⟨fun id' db hdb => ?_, ?_, fun key rule hkey => h.rule_key key rule (hrule key rule hkey).1, fun key rule hkey => ?_⟩
  · rw [logical?, hlogicals] at hdb
    have hrefers := h.database id' db hdb
    refine ⟨hrefers.scope, hrefers.ns, hrefers.old, fun hlive => hlasts _ _ (fun hon => ?_) (hrefers.bound hlive)⟩
    have hmem : db ∈ s.logicalsOn id := mem_logicalsOn_iff.mpr ⟨⟨id', hdb⟩, hon, hlive⟩
    rw [hhosted] at hmem
    cases hmem
  · rw [hrest.classifierIndex, hsame.classifierIndex]
    exact h.indexed
  · obtain ⟨hstored, hne⟩ := hrule key rule hkey
    exact hlasts _ _ hne (h.target key rule hstored)

end References

end Store

open Store

namespace Broker

variable {env : Surroundings} {b b' : Broker} {now : UInt64}

/-- A physical database that is not deregistered stays registered with its type. -/
theorem Effect.registered_lasts {op : Operation} (heffect : b.Effect env now op b') (hconsistent : b.Consistent env)
    (hop : ∀ id, op ≠ .deregister id) {dbType id : String} (h : (b.store.registered? dbType id).isSome = true) :
    (b'.store.registered? dbType id).isSome = true := by
  obtain ⟨p, hp, htype⟩ := registered?_isSome_iff.mp h
  rcases heffect.physical_of_registered hconsistent hp with ⟨p', hp', htype', -⟩ | ⟨rfl, -⟩
  · exact registered?_isSome_iff.mpr ⟨p', hp', htype'.trans htype⟩
  · exact absurd rfl (hop id)

end Broker

/-- Each operation keeps references. -/
theorem Store.References.run {env : Surroundings} {b : Broker} (h : b.store.References) (hconsistent : b.Consistent env)
    (now : UInt64) (op : Operation) : (b.run env now op).store.References := by
  have hlasts := (b.effect env now op).registered_lasts hconsistent
  have hregistry : SameButRegistry b.store (b.run env now op).store → (∀ id, op ≠ .deregister id) →
      (b.run env now op).store.References :=
    fun hsame hop => h.of_registry hsame fun _ _ => hlasts hop
  have hkeep : ∀ {ε α : Type} {result : Except ε (α × Store)},
      (∀ a s, result = .ok (a, s) → s.References) → (b.keep result).store.References :=
    fun hok => b.keep_invariant (P := fun b => b.store.References) h hok
  cases op with
  | precheck handshake probe =>
    simp only [Broker.run, Broker.precheck]
    split <;> exact h
  | decide handshake =>
    refine hregistry ?_ (by simp)
    simp only [Broker.run, Broker.decide]
    split
    · split
      · exact .refl b.store
      · rename_i hok
        exact .decided (decided_of_decide hok).2
    · exact .refl b.store
  | acknowledge id instructionId ack =>
    exact h.acknowledged hconsistent.migrations (b.store.acknowledged now env.portionSize id instructionId ack)
      fun _ _ => hlasts (by simp)
  | nextPortion instructionId =>
    refine hregistry ?_ (by simp)
    exact b.keep_invariant (P := fun b' => SameButRegistry b.store b'.store) (.refl b.store) fun _ _ hok => .nextPortion hok
  | setGlobal id =>
    refine hregistry ?_ (by simp)
    exact b.keep_invariant (P := fun b' => SameButRegistry b.store b'.store) (.refl b.store) fun _ _ hok => .setGlobal hok
  | deregister id => exact hkeep fun _ _ hok => h.deregister hok
  | getOrCreate call =>
    simp only [Broker.run, Broker.getOrCreate]
    split
    · exact h
    · rename_i hok
      exact h.bound hconsistent.migrations.tabled (Classifier.scopeLifted_ofMap _) (bound_of_getOrCreate hok)
  | drop id => exact hkeep fun _ _ hok => h.markForDrop hok
  | putNamespaceRule ns name r => exact hkeep fun _ _ hok => h.setNamespaceRule hok
  | deleteNamespaceRule ns name =>
    refine b.keep_map_invariant (P := fun b => b.store.References) h fun s hok => ?_
    rw [(removeNamespaceRule_eq_ok hok).2]
    exact h.deleteNamespaceRule ns name
  | putMicroserviceRules ns rules =>
    refine hkeep fun sets s hok => h.of_sameButRules (sameButRules_setMicroserviceRules hok) ?_
    rw [(setMicroserviceRules_eq_ok hok).2.2, foldl_putRuleSet]
  | putPermanentRules rules =>
    refine hkeep fun entries s hok => h.of_sameButRules (sameButRules_setPermanentRules hok) ?_
    rw [(setPermanentRules_eq_ok hok).2.2, foldl_putPermanentEntry]
  | deletePermanentEntries ns dbType =>
    refine h.of_sameButRules (b.store.sameButRules_removePermanentEntries ns dbType) ?_
    exact congrArg (·.namespaceRules) (foldl_deletePermanentEntry _ b.store)
  | putLabels ns microservice labels =>
    refine hkeep fun record s hok => h.of_sameButRules (sameButRules_setLabels hok) ?_
    rw [(setLabels_eq_ok hok).2.2]
    rfl
  | putDomain controller members =>
    refine hkeep fun d s hok => ?_
    obtain ⟨-, rfl⟩ := setDomain_eq_ok hok
    exact h.of_tables rfl rfl rfl fun _ _ hsome => hsome
  | deleteDomain controller =>
    refine b.keep_map_invariant (P := fun b => b.store.References) h fun s hok => ?_
    rw [removeDomain_eq_ok hok]
    exact h.of_tables rfl rfl rfl fun _ _ hsome => hsome

/-- Every history leaves references to what is registered. -/
theorem references_replay (env : Surroundings) (events : List Event) : (replay env events).store.References := by
  have hboth : (replay env events).Consistent env ∧ (replay env events).store.References :=
    replay_invariant (P := fun b => b.Consistent env ∧ b.store.References) ⟨.start, .empty⟩ fun e _ b h =>
      ⟨h.1.effect (b.effect env e.time e.operation), h.2.run h.1 e.time e.operation⟩
  exact hboth.2

/-! ## Registered anew -/

/-- A physical database that is not registered, and is after some events, was registered anew by one of them. -/
theorem registered_anew {env : Surroundings} {b : Broker} (hconsistent : b.Consistent env) {later : List Event} {id : String}
    {p : PhysicalDatabase} (hnone : b.store.physical? id = none) (hp : (b.runAll env later).store.physical? id = some p) :
    ∃ before e after h global, later = before ++ e :: after ∧ e.operation = .decide h ∧ h.id = id ∧
      (b.runAll env before).store.physical? id = none ∧
      (b.runAll env (before ++ [e])).store.physical? id = some (.register id h.dbType global e.time h.registration) := by
  induction later generalizing b with
  | nil =>
    change b.store.physical? id = some p at hp
    rw [hnone] at hp
    cases hp
  | cons e rest ih =>
    have heffect := b.effect env e.time e.operation
    rcases heffect.physical_of_unregistered hconsistent hnone with hstill | ⟨h, global, hop, hid, hregistered⟩
    · obtain ⟨before, e', after, h, global, rfl, hrest⟩ := ih (hconsistent.effect heffect) hstill hp
      exact ⟨e :: before, e', after, h, global, rfl, hrest⟩
    · exact ⟨[], e, rest, h, global, rfl, hop, hid, hnone, hregistered⟩

/-- Nothing that is stored refers to what is not there. After every history
1. the namespace of a database is that of its classifier;
2. a database that is not archived is bound to a registered physical database of its type;
3. a rule of a namespace leads to a registered physical database of its type;
4. a physical database that is not registered, whether it never was or is deregistered, is registered after further events only
   if one of them decides a handshake of its id and registers it anew, with the declaration of that handshake. -/
theorem no_dangling_references (env : Surroundings) (events : List Event) :
    let s := (replay env events).store
    (∀ id db, s.logical? id = some db → db.classifier.ns = some db.ns) ∧
    (∀ id db, s.logical? id = some db → db.markedForDrop = false →
      ∃ p, s.physical? db.physicalDatabaseId = some p ∧ p.dbType = db.dbType) ∧
    (∀ key rule, s.namespaceRules.get? key = some rule →
      ∃ p, s.physical? rule.physicalDatabaseId = some p ∧ p.dbType = rule.dbType) ∧
    (∀ later id p, s.physical? id = none → (replay env (events ++ later)).store.physical? id = some p →
      ∃ before e after h global, later = before ++ e :: after ∧ e.operation = .decide h ∧ h.id = id ∧
        (replay env (events ++ before)).store.physical? id = none ∧
        (replay env (events ++ (before ++ [e]))).store.physical? id =
          some (.register id h.dbType global e.time h.registration)) := by
  intro s
  have hreferences : s.References := references_replay env events
  refine ⟨fun id db hdb => ?_, fun id db hdb hlive => ?_, fun key rule hrule => ?_, fun later id p hnone hp => ?_⟩
  · exact (hreferences.database id db hdb).ns
  · exact registered?_isSome_iff.mp ((hreferences.database id db hdb).bound hlive)
  · exact registered?_isSome_iff.mp (hreferences.target key rule hrule)
  · simp only [replay_append] at hp ⊢
    exact registered_anew (Broker.consistent_replay env events) hnone hp

/-- The first database of the sample is bound to the cluster that is registered for its type. -/
theorem no_dangling_references_of_sampleMigration :
    let s := (replay (.numbered 1) sampleMigration).store
    ∃ db p, s.logical? "ldb-#1" = some db ∧ db.markedForDrop = false ∧
      s.physical? db.physicalDatabaseId = some p ∧ p.dbType = db.dbType := by
  intro s
  have hstored : (s.logical? "ldb-#1").any (fun db => !db.markedForDrop) = true := by decide +kernel
  obtain ⟨db, hdb, hlive⟩ := (Option.any_eq_true _ _).mp hstored
  have hlive : db.markedForDrop = false := by simpa using hlive
  obtain ⟨p, hp, htype⟩ := (no_dangling_references (.numbered 1) sampleMigration).2.1 "ldb-#1" db hdb hlive
  exact ⟨db, p, hdb, hlive, hp, htype⟩

end DatabaseBroker
