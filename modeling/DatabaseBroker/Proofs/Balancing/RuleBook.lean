import DatabaseBroker.Proofs.Binding.References
import DatabaseBroker.Proofs.Migration.Consistency
import DatabaseBroker.Proofs.Store.Registry

/-!
# Rules as maps keyed by pairs

`RuleBook` holds rules, entries and labels as maps keyed by pairs of names, and `RuleBook.apply` says what an operation makes of
them: it writes the pairs that it names and leaves every other pair as it was. A store keeps a book (`Store.Keeps`) when each of its
tables is the map of the book. Each operation leads from a store that keeps a book to one that keeps what the operation makes of the
book, if it is accepted, and the book itself, if it is refused (`Keeps.run`). So after every run from a store without rules, each
read, of whatever names, is answered by the maps that the accepted operations make (`rules_keyed_by_pairs`).
-/

namespace DatabaseBroker

/-! ## The book -/

/-- The rules of a type that are among the rules of a batch, by order. -/
def MicroserviceRuleSet.ofRules (ns : String) (now : UInt64) (rules : List MicroserviceRule) (dbType : String) :
    MicroserviceRuleSet :=
  ⟨ns, dbType, (rules.filter (·.dbType = dbType)).mergeSort byOrder, now⟩

/-- The sets of a batch are those of the types that it mentions. -/
theorem Store.ruleSets_eq_map (ns : String) (now : UInt64) (rules : List MicroserviceRule) :
    ruleSets ns now rules = (distinctTexts (rules.map (·.dbType))).map (.ofRules ns now rules) := rfl

theorem Store.mem_ruleSets_iff {ns : String} {now : UInt64} {rules : List MicroserviceRule} {set : MicroserviceRuleSet} :
    set ∈ ruleSets ns now rules ↔ ∃ rule ∈ rules, .ofRules ns now rules rule.dbType = set := by
  simp only [ruleSets_eq_map, List.mem_map, mem_distinctTexts_iff, exists_exists_and_eq_and]

/-- Rules, entries and labels as maps keyed by pairs. -/
structure RuleBook where
  /-- By namespace and name. -/
  namespaceRules : String × String → Option NamespaceRule
  /-- By namespace and type. -/
  permanentEntries : String × String → Option PermanentEntry
  /-- By namespace and type. -/
  ruleSets : String × String → Option MicroserviceRuleSet
  /-- By namespace and microservice. -/
  labels : String × String → Option MicroserviceLabels

namespace RuleBook

/-- The book without records. -/
def empty : RuleBook := ⟨fun _ => none, fun _ => none, fun _ => none, fun _ => none⟩

/-- What an operation that is accepted makes of a book. -/
def apply (book : RuleBook) (now : UInt64) : Operation → RuleBook
  | .putNamespaceRule ns name r =>
    { book with
      namespaceRules := Function.update book.namespaceRules (ns, name)
        (some ⟨name, ns, r.dbType, r.order, r.physicalDatabaseId, now⟩) }
  | .deleteNamespaceRule ns name => { book with namespaceRules := Function.update book.namespaceRules (ns, name) none }
  | .putMicroserviceRules ns rules =>
    { book with
      ruleSets := fun p =>
        if p.1 = ns ∧ p.2 ∈ rules.map (·.dbType) then
          some (.ofRules ns now rules p.2)
        else book.ruleSets p }
  | .putPermanentRules rules =>
    { book with
      permanentEntries := fun p =>
        match rules.find? (·.isFor p) with
        | some rule => some ⟨p.1, p.2, rule.physicalDatabaseId⟩
        | none => book.permanentEntries p }
  | .deletePermanentEntries ns dbType =>
    { book with permanentEntries := fun p => if p.1 = ns ∧ dbType.all (· = p.2) = true then none else book.permanentEntries p }
  | .putLabels ns microservice labels =>
    { book with labels := Function.update book.labels (ns, microservice) (some ⟨ns, microservice, labels, now⟩) }
  | .deregister id => { book with namespaceRules := fun p => (book.namespaceRules p).filter (·.physicalDatabaseId ≠ id) }
  | _ => book

/-- What events whose operations are all accepted make of a book. -/
def applyAll (book : RuleBook) (events : List Event) : RuleBook := events.foldl (fun book e => book.apply e.time e.operation) book

end RuleBook

namespace Broker

/-- Whether an operation on rules, entries or labels is accepted, or a deregistration. -/
def accepts (b : Broker) (now : UInt64) : Operation → Bool
  | .putNamespaceRule ns name r => (b.store.setNamespaceRule now ns name r).isOk
  | .deleteNamespaceRule ns name => (b.store.removeNamespaceRule ns name).isOk
  | .putMicroserviceRules ns rules => (b.store.setMicroserviceRules now ns rules).isOk
  | .putPermanentRules rules => (b.store.setPermanentRules rules).isOk
  | .putLabels ns microservice labels => (b.store.setLabels now ns microservice labels).isOk
  | .deregister id => (b.store.deregister id).isOk
  | _ => true

/-- The events of a list whose operations are accepted, each by the broker as it is then. -/
def accepted (env : Surroundings) : Broker → List Event → List Event
  | _, [] => []
  | b, e :: rest => (if b.accepts e.time e.operation then [e] else []) ++ accepted env (b.run env e.time e.operation) rest

end Broker

namespace Store

variable {s s' : Store} {now : UInt64} {ns name : String}

/-! ## Stores that keep a book -/

/-- A store keeps a book: each of its tables is the map of the book. -/
structure Keeps (s : Store) (book : RuleBook) : Prop where
  namespaceRules : s.namespaceRules.PairTable (·.pair) book.namespaceRules
  permanentEntries : s.permanentEntries.PairTable (·.pair) book.permanentEntries
  ruleSets : s.microserviceRules.PairTable (·.pair) book.ruleSets
  labels : s.microserviceLabels.PairTable (·.pair) book.labels

namespace Keeps

variable {book : RuleBook}

theorem empty : Store.empty.Keeps .empty := ⟨.empty, .empty, .empty, .empty⟩

/-- What writes no rules keeps the same book. -/
theorem of_sameSettings (h : s.Keeps book) (hsame : SameSettings s s') : s'.Keeps book where
  namespaceRules := hsame.namespaceRules ▸ h.namespaceRules
  permanentEntries := hsame.permanentEntries ▸ h.permanentEntries
  ruleSets := hsame.microserviceRules ▸ h.ruleSets
  labels := hsame.microserviceLabels ▸ h.labels

/-! ### Listings -/

/-- The rules of a namespace are listed by name. -/
theorem namespaceRulesOf (h : s.Keeps book) (ns : String) :
    ListsByName (·.name) (s.namespaceRulesOf ns) fun name => book.namespaceRules (ns, name) :=
  h.namespaceRules.listing ns

/-- The permanent entries of a namespace are listed by type. -/
theorem permanentEntriesOf (h : s.Keeps book) (ns : String) :
    ListsByName (·.dbType) (s.permanentEntriesOf (some ns)) fun dbType => book.permanentEntries (ns, dbType) :=
  h.permanentEntries.listing ns

/-- The sets of rules on microservices of a namespace are listed by type. -/
theorem ruleSetsOf (h : s.Keeps book) (ns : String) :
    ListsByName (·.dbType) (s.ruleSetsOf ns) fun dbType => book.ruleSets (ns, dbType) :=
  h.ruleSets.listing ns

/-! ### Operations -/

theorem setNamespaceRule (h : s.Keeps book) {r : NamespaceRuleRequest} {out : NamespaceRule × RuleWrite}
    (hok : s.setNamespaceRule now ns name r = .ok (out, s')) : s'.Keeps (book.apply now (.putNamespaceRule ns name r)) := by
  obtain ⟨hns, hname, -, rfl⟩ := setNamespaceRule_eq_ok hok
  exact ⟨h.namespaceRules.insert (a := ⟨name, ns, r.dbType, r.order, r.physicalDatabaseId, now⟩) hns hname,
    h.permanentEntries, h.ruleSets, h.labels⟩

/-- A rule is deleted where there is one. -/
theorem removeNamespaceRule (h : s.Keeps book) (now : UInt64) (ns name : String) :
    (s.removeNamespaceRule ns name).isOk = (book.namespaceRules (ns, name)).isSome ∧
      ∀ s', s.removeNamespaceRule ns name = .ok s' → s'.Keeps (book.apply now (.deleteNamespaceRule ns name)) := by
  have hread : s.namespaceRule? ns name = book.namespaceRules (ns, name) := h.namespaceRules.get? (ns, name)
  rw [← hread]
  unfold Store.removeNamespaceRule
  split
  · rename_i hrule
    refine ⟨by rw [hrule]; rfl, fun s' hok => ?_⟩
    cases hok
    exact ⟨h.namespaceRules.erase (ns, name), h.permanentEntries, h.ruleSets, h.labels⟩
  · rename_i hrule
    exact ⟨by rw [hrule]; rfl, nofun⟩

theorem setMicroserviceRules (h : s.Keeps book) {rules : List MicroserviceRule} {sets : List MicroserviceRuleSet}
    (hok : s.setMicroserviceRules now ns rules = .ok (sets, s')) :
    s'.Keeps (book.apply now (.putMicroserviceRules ns rules)) := by
  obtain ⟨hns, htypes, rfl⟩ := setMicroserviceRules_eq_ok hok
  rw [foldl_putRuleSet]
  have hwritten := h.ruleSets.foldl_insert (g := fun p => some (.ofRules ns now rules p.2)) (l := Store.ruleSets ns now rules)
    fun r hr => by
      obtain ⟨rule, hrule, rfl⟩ := mem_ruleSets_iff.mp hr
      exact ⟨hns, htypes rule hrule, rfl⟩
  have hpairs : ∀ p : String × String,
      p ∈ (Store.ruleSets ns now rules).map (·.pair) ↔ p.1 = ns ∧ p.2 ∈ rules.map (·.dbType) := by
    intro p
    rw [List.mem_map]
    constructor
    · rintro ⟨r, hr, rfl⟩
      obtain ⟨rule, hrule, rfl⟩ := mem_ruleSets_iff.mp hr
      exact ⟨rfl, List.mem_map_of_mem hrule⟩
    · rintro ⟨hp, hmentioned⟩
      obtain ⟨rule, hrule, htype⟩ := List.mem_map.mp hmentioned
      exact ⟨.ofRules ns now rules rule.dbType, mem_ruleSets_iff.mpr ⟨rule, hrule, rfl⟩, Prod.ext_iff.mpr ⟨hp.symm, htype⟩⟩
  simp only [hpairs] at hwritten
  exact ⟨h.namespaceRules, h.permanentEntries, hwritten, h.labels⟩

theorem setPermanentRules (h : s.Keeps book) {rules : List PermanentRule} {entries : List PermanentEntry}
    (hok : s.setPermanentRules rules = .ok (entries, s')) : s'.Keeps (book.apply now (.putPermanentRules rules)) := by
  obtain ⟨hnames, hentries, rfl⟩ := setPermanentRules_eq_ok hok
  let entry (p : String × String) : Option PermanentEntry :=
    (rules.find? (·.isFor p)).map fun rule => ⟨p.1, p.2, rule.physicalDatabaseId⟩
  have hentry : ∀ e ∈ entries, SlashFree e.pair.1 ∧ SlashFree e.pair.2 ∧ entry e.pair = some e := by
    intro e he
    obtain ⟨rule, hrule, htarget⟩ := Option.map_eq_some_iff.mp ((hentries e).mp he)
    have hfor := List.find?_some hrule
    simp only [PermanentRule.isFor, Bool.and_eq_true, decide_eq_true_eq, List.contains_eq_mem] at hfor
    obtain ⟨hnamespaces, htype⟩ := hnames rule (List.mem_of_find?_eq_some hrule)
    refine ⟨hnamespaces _ hfor.2, hfor.1 ▸ htype, ?_⟩
    simp only [entry, hrule, Option.map_some, htarget]
    rfl
  have hpairs : ∀ p : String × String, p ∈ entries.map (·.pair) ↔ (entry p).isSome = true := by
    intro p
    rw [List.mem_map]
    constructor
    · rintro ⟨e, he, rfl⟩
      rw [(hentry e he).2.2]
      rfl
    · intro hsome
      obtain ⟨e, he⟩ := Option.isSome_iff_exists.mp hsome
      obtain ⟨rule, hrule, rfl⟩ := Option.map_eq_some_iff.mp he
      refine ⟨⟨p.1, p.2, rule.physicalDatabaseId⟩, (hentries _).mpr ?_, rfl⟩
      exact (congrArg (Option.map (·.physicalDatabaseId)) hrule).trans rfl
  have hwritten := h.permanentEntries.foldl_insert hentry
  have hmap : (fun p => if p ∈ entries.map (·.pair) then entry p else book.permanentEntries p) =
      (book.apply now (.putPermanentRules rules)).permanentEntries := by
    funext p
    simp only [hpairs, entry, RuleBook.apply]
    cases rules.find? (·.isFor p) <;> rfl
  rw [foldl_putPermanentEntry]
  exact ⟨h.namespaceRules, hmap ▸ hwritten, h.ruleSets, h.labels⟩

/-- The permanent entries that are deleted are those of the namespace, of any type or of the type that is named, and their number is
answered. -/
theorem removePermanentEntries (h : s.Keeps book) (now : UInt64) (ns : String) (dbType : Option String) :
    (s.removePermanentEntries ns dbType).1 =
        {t | dbType.all (· = t) = true ∧ (book.permanentEntries (ns, t)).isSome = true}.ncard ∧
      (s.removePermanentEntries ns dbType).2.Keeps (book.apply now (.deletePermanentEntries ns dbType)) := by
  have hlisting := h.permanentEntriesOf ns
  let entries := (s.permanentEntriesOf (some ns)).filter fun e => dbType.all (· = e.dbType)
  have hmem : ∀ t, t ∈ entries.map (·.dbType) ↔ dbType.all (· = t) = true ∧ (book.permanentEntries (ns, t)).isSome = true :=
    fun t => hlisting.mem_names_filter_iff fun t => dbType.all (· = t)
  constructor
  · exact hlisting.length_filter fun t => dbType.all (· = t)
  · have hns : ∀ e ∈ entries, e.ns = ns := by
      intro e he
      have hscanned := (List.mem_filter.mp he).1
      simpa using (List.mem_filter.mp hscanned).2
    have hpairs : ∀ p : String × String, p ∈ entries.map (·.pair) ↔ p.1 = ns ∧ p.2 ∈ entries.map (·.dbType) := by
      intro p
      simp only [List.mem_map]
      constructor
      · rintro ⟨e, he, rfl⟩
        exact ⟨hns e he, e, he, rfl⟩
      · rintro ⟨hp, e, he, htype⟩
        exact ⟨e, he, Prod.ext_iff.mpr ⟨(hns e he).trans hp.symm, htype⟩⟩
    have herased := h.permanentEntries.foldl_erase (entries.map (·.pair))
    have hmap : (fun p => if p ∈ entries.map (·.pair) then none else book.permanentEntries p) =
        (book.apply now (.deletePermanentEntries ns dbType)).permanentEntries := by
      funext p
      simp only [hpairs, hmem, RuleBook.apply]
      by_cases hp : p.1 = ns
      · subst hp
        cases hstored : book.permanentEntries p with
        | none => simp
        | some e => simp
      · simp [hp]
    have hstore : (s.removePermanentEntries ns dbType).2 =
        { s with permanentEntries := (entries.map (·.pair)).foldl (fun m p => m.erase (pairKey p.1 p.2)) s.permanentEntries } :=
      foldl_deletePermanentEntry entries s
    rw [hstore]
    exact ⟨h.namespaceRules, hmap ▸ herased, h.ruleSets, h.labels⟩

theorem setLabels (h : s.Keeps book) {labels : Labels} {record : MicroserviceLabels}
    (hok : s.setLabels now ns name labels = .ok (record, s')) : s'.Keeps (book.apply now (.putLabels ns name labels)) := by
  obtain ⟨hns, hname, rfl⟩ := setLabels_eq_ok hok
  exact ⟨h.namespaceRules, h.permanentEntries, h.ruleSets, h.labels.insert (a := ⟨ns, name, labels, now⟩) hns hname⟩

/-- With a physical database the rules that lead to it go, of every namespace, and no others. -/
theorem deregister (h : s.Keeps book) {id : String} {count : Nat} (hok : s.deregister id = .ok (count, s')) :
    s'.Keeps (book.apply now (.deregister id)) := by
  obtain ⟨p, -, -, -, rfl⟩ := deregister_eq_ok hok
  refine of_sameSettings ?_ (.of_registry ((SameButRegistry.discardMigration _ id).trans (.deletePhysical _ id)))
  let rules := s.namespaceRules.values.filter (·.physicalDatabaseId = id)
  have hpairs : ∀ p : String × String, p ∈ rules.map (·.pair) ↔
      ∃ r, book.namespaceRules p = some r ∧ r.physicalDatabaseId = id := by
    intro p
    simp only [rules, List.mem_map, List.mem_filter, KeyMap.mem_values_iff, decide_eq_true_eq]
    constructor
    · rintro ⟨r, ⟨⟨key, hr⟩, htarget⟩, rfl⟩
      have hkey := h.namespaceRules.key key r hr
      exact ⟨r, by rw [← h.namespaceRules.get?, hkey, hr], htarget⟩
    · rintro ⟨r, hr, htarget⟩
      have hpair := h.namespaceRules.pair_eq hr
      rw [← h.namespaceRules.get?] at hr
      exact ⟨r, ⟨⟨_, hr⟩, htarget⟩, hpair⟩
  have herased := h.namespaceRules.foldl_erase (rules.map (·.pair))
  have hmap : (fun p => if p ∈ rules.map (·.pair) then none else book.namespaceRules p) =
      (book.apply now (.deregister id)).namespaceRules := by
    funext p
    simp only [hpairs, RuleBook.apply]
    cases hr : book.namespaceRules p with
    | none => simp
    | some r => by_cases htarget : r.physicalDatabaseId = id <;> simp [Option.filter, htarget]
  have hstore : (s.removeRulesTo id).2 =
      { s with namespaceRules := (rules.map (·.pair)).foldl (fun m p => m.erase (pairKey p.1 p.2)) s.namespaceRules } :=
    foldl_deleteNamespaceRule rules s
  rw [hstore]
  exact ⟨hmap ▸ herased, h.permanentEntries, h.ruleSets, h.labels⟩

end Keeps

end Store

open Store

/-! ## Runs -/

namespace Store.Keeps

variable {env : Surroundings} {b : Broker} {book book' : RuleBook}

/-- An operation that is accepted leads to another book, and one that is refused keeps the book. -/
theorem keep (h : b.store.Keeps book) {ε α : Type} {result : Except ε (α × Store)}
    (hok : ∀ a s, result = .ok (a, s) → s.Keeps book') : (b.keep result).store.Keeps (if result.isOk then book' else book) := by
  cases result with
  | error e => exact h
  | ok out => exact hok out.1 out.2 rfl

/-- So it is with an operation that answers nothing. -/
theorem keep_map (h : b.store.Keeps book) {ε : Type} {result : Except ε Store} (hok : ∀ s, result = .ok s → s.Keeps book') :
    (b.keep (result.map ((), ·))).store.Keeps (if result.isOk then book' else book) := by
  cases result with
  | error e => exact h
  | ok s => exact hok s rfl

/-- What writes no rules keeps the book. -/
theorem keep_same (h : b.store.Keeps book) {ε α : Type} {result : Except ε (α × Store)}
    (hok : ∀ a s, result = .ok (a, s) → SameSettings b.store s) : (b.keep result).store.Keeps book :=
  b.keep_invariant (P := fun b => b.store.Keeps book) h fun a s hresult => h.of_sameSettings (hok a s hresult)

/-- Each operation leads from a store that keeps a book to one that keeps what the operation makes of the book, if it is accepted, and
the book itself, if it is refused. -/
theorem run (h : b.store.Keeps book) (env : Surroundings) (now : UInt64) (op : Operation) :
    (b.run env now op).store.Keeps (if b.accepts now op then book.apply now op else book) := by
  cases op with
  | putNamespaceRule ns name r => exact h.keep fun _ _ hok => h.setNamespaceRule hok
  | deleteNamespaceRule ns name => exact h.keep_map (h.removeNamespaceRule now ns name).2
  | putMicroserviceRules ns rules => exact h.keep fun _ _ hok => h.setMicroserviceRules hok
  | putPermanentRules rules => exact h.keep fun _ _ hok => h.setPermanentRules hok
  | deletePermanentEntries ns dbType => exact (h.removePermanentEntries now ns dbType).2
  | putLabels ns microservice labels => exact h.keep fun _ _ hok => h.setLabels hok
  | deregister id => exact h.keep fun _ _ hok => h.deregister hok
  | precheck handshake probe =>
    simp only [Broker.run, Broker.precheck]
    split <;> exact h
  | decide handshake =>
    simp only [Broker.run, Broker.decide]
    split
    · split
      · exact h
      · rename_i hok
        exact h.of_sameSettings (.of_registry (.decided (decided_of_decide hok).2))
    · exact h
  | acknowledge id instructionId ack =>
    exact h.of_sameSettings (.acknowledged (b.store.acknowledged now env.portionSize id instructionId ack))
  | nextPortion instructionId => exact h.keep_same fun _ _ hok => .of_registry (.nextPortion hok)
  | setGlobal id => exact h.keep_same fun _ _ hok => .of_registry (.setGlobal hok)
  | getOrCreate call =>
    simp only [Broker.run, Broker.getOrCreate]
    split
    · exact h
    · rename_i hok
      exact h.of_sameSettings (.bound (bound_of_getOrCreate hok))
  | drop id => exact h.keep_same fun _ _ hok => .markForDrop hok
  | putDomain controller members =>
    refine b.keep_invariant (P := fun b => b.store.Keeps book) h fun d s hok => ?_
    obtain ⟨-, rfl⟩ := setDomain_eq_ok hok
    exact ⟨h.namespaceRules, h.permanentEntries, h.ruleSets, h.labels⟩
  | deleteDomain controller =>
    refine b.keep_map_invariant (P := fun b => b.store.Keeps book) h fun s hok => ?_
    rw [removeDomain_eq_ok hok]
    exact ⟨h.namespaceRules, h.permanentEntries, h.ruleSets, h.labels⟩

/-- So does a run, with what the operations that it accepts make of the book one after another. -/
theorem runAll (h : b.store.Keeps book) (env : Surroundings) (events : List Event) :
    (b.runAll env events).store.Keeps (book.applyAll (b.accepted env events)) := by
  induction events generalizing b book with
  | nil => exact h
  | cons e rest ih =>
    rw [Broker.runAll_cons, Broker.accepted, RuleBook.applyAll, List.foldl_append]
    have hstep := h.run env e.time e.operation
    split
    · rename_i haccepted
      rw [if_pos haccepted] at hstep
      exact ih hstep
    · rename_i hrefused
      rw [if_neg hrefused] at hstep
      exact ih hstep

end Store.Keeps

/-- A store in which no rules, entries and labels were written. -/
structure Store.WithoutRules (s : Store) : Prop where
  namespaceRules : s.namespaceRules = .empty
  permanentEntries : s.permanentEntries = .empty
  microserviceRules : s.microserviceRules = .empty
  microserviceLabels : s.microserviceLabels = .empty

/-- A store without rules keeps the book without records. -/
theorem Store.WithoutRules.keeps {s : Store} (h : s.WithoutRules) : s.Keeps .empty where
  namespaceRules := h.namespaceRules ▸ .empty
  permanentEntries := h.permanentEntries ▸ .empty
  ruleSets := h.microserviceRules ▸ .empty
  labels := h.microserviceLabels ▸ .empty

/-- Rules, entries and labels are maps keyed by pairs of names. After every run of operations on a store without rules, whatever names
the operations and the reads are given, blank ones and ones with slashes included, and with the book that the accepted operations
make one after another:
1. a read at a pair is answered with what the book holds there;
2. a listing of a namespace holds what the book holds at the pairs that begin with it, each once and by the second name;
3. a rule is deleted exactly where the book holds one;
4. permanent entries that are deleted are counted as the book holds them at the pairs that are named. -/
theorem rules_keyed_by_pairs (env : Surroundings) (b : Broker) (hempty : b.store.WithoutRules) (events : List Event) :
    let s := (b.runAll env events).store
    let book := RuleBook.empty.applyAll (b.accepted env events)
    (∀ ns second,
      s.namespaceRule? ns second = book.namespaceRules (ns, second) ∧
      s.permanentEntry? ns second = book.permanentEntries (ns, second) ∧
      s.ruleSet? ns second = book.ruleSets (ns, second) ∧
      s.labelsOf ns second = ((book.labels (ns, second)).map (·.labels)).getD .empty) ∧
    (∀ ns,
      ListsByName (·.name) (s.namespaceRulesOf ns) (fun name => book.namespaceRules (ns, name)) ∧
      ListsByName (·.dbType) (s.permanentEntriesOf (some ns)) (fun dbType => book.permanentEntries (ns, dbType)) ∧
      ∃ sets, ListsByName (·.dbType) sets (fun dbType => book.ruleSets (ns, dbType)) ∧
        s.microserviceRulesOf ns = sets.flatMap (·.rules)) ∧
    (∀ ns name, (s.removeNamespaceRule ns name).isOk = (book.namespaceRules (ns, name)).isSome) ∧
    ∀ ns dbType, (s.removePermanentEntries ns dbType).1 =
      {t | dbType.all (· = t) = true ∧ (book.permanentEntries (ns, t)).isSome = true}.ncard := by
  intro s book
  have h : s.Keeps book := hempty.keeps.runAll env events
  refine ⟨fun ns second => ⟨h.namespaceRules.get? (ns, second), h.permanentEntries.get? (ns, second),
    h.ruleSets.get? (ns, second), ?_⟩, fun ns => ⟨h.namespaceRulesOf ns, h.permanentEntriesOf ns, _, h.ruleSetsOf ns, rfl⟩,
    fun ns name => (h.removeNamespaceRule 0 ns name).1,
    fun ns dbType => (h.removePermanentEntries 0 ns dbType).1⟩
  rw [← h.labels.get? (ns, second)]
  rfl

/-- A cluster is registered, and rules of a namespace are written and deleted beside names that would have their keys. -/
def sampleWrites : List Event := [
  ⟨1, .precheck (sampleDeclaration ["admin"]) none⟩,
  ⟨2, .decide (sampleDeclaration ["admin"])⟩,
  ⟨3, .putNamespaceRule "team" "main" ⟨"postgresql", 1, "pg"⟩⟩,
  ⟨4, .putNamespaceRule "team/x" "main" ⟨"postgresql", 1, "pg"⟩⟩,
  ⟨5, .putPermanentRules [⟨"postgresql", "pg", ["team", "shop"]⟩]⟩,
  ⟨6, .deletePermanentEntries "shop" none⟩,
  ⟨7, .deleteNamespaceRule "" "team/main"⟩,
  ⟨8, .putLabels "team" "cart" (KeyMap.empty.insert "tier" "gold")⟩]

/-- The rules of the sample are read under their own pairs, and the key of one can be spelled in another way. -/
theorem rules_keyed_by_pairs_of_sampleWrites :
    let s := (Broker.start.runAll (.numbered 1) sampleWrites).store
    Broker.start.store.WithoutRules ∧
      s.namespaceRule? "team" "main" = some ⟨"main", "team", "postgresql", 1, "pg", 3⟩ ∧
      s.namespaceRule? "team/x" "main" = none ∧
      s.permanentEntry? "team" "postgresql" = some ⟨"team", "postgresql", "pg"⟩ ∧
      s.permanentEntry? "shop" "postgresql" = none ∧
      (s.labelsOf "team" "cart").get? "tier" = some "gold" ∧
      (s.removeNamespaceRule "team" "main").isOk = true ∧
      (s.removeNamespaceRule "" "team/main").isOk = false := by
  intro s
  have hempty : Broker.start.store.WithoutRules := ⟨rfl, rfl, rfl, rfl⟩
  obtain ⟨hreads, -, hdeletes, -⟩ := rules_keyed_by_pairs (.numbered 1) .start hempty sampleWrites
  refine ⟨hempty, (hreads "team" "main").1.trans ?_, (hreads "team/x" "main").1.trans ?_,
    (hreads "team" "postgresql").2.1.trans ?_, (hreads "shop" "postgresql").2.1.trans ?_, ?_,
    (hdeletes "team" "main").trans ?_, (hdeletes "" "team/main").trans ?_⟩
  · decide +kernel
  · decide +kernel
  · decide +kernel
  · decide +kernel
  · rw [(hreads "team" "cart").2.2.2]
    decide +kernel
  · decide +kernel
  · decide +kernel

end DatabaseBroker
