import DatabaseBroker.Balancing.Evaluation
import DatabaseBroker.Proofs.Balancing.RuleWrites
import DatabaseBroker.Proofs.Binding.Addresses
import DatabaseBroker.Proofs.KeyMap
import DatabaseBroker.Proofs.Label

/-!
# What is evaluated is what would happen

`Store.suppose` stores what a question only supposes: its rules, where it has any, and then the labels of each microservice in
turn. The overlay of a view and the store that these writes make differ in almost everything: submitted rules stand in the order
in which they came and stored ones by order, labels of a microservice that is listed twice are laid over in memory and written
over in the store. Resolution sees no difference (`resolve?_of_writtenOver`), so a report says where production would put a new
database, and that it would put none (`evaluation_is_production`).
-/

namespace DatabaseBroker

/-! ## Names in a set -/

/-- The different texts of a list are its texts. -/
theorem mem_distinctTexts_iff {l : List String} {x : String} : x ∈ distinctTexts l ↔ x ∈ l := by
  have hget := KeyMap.get?_ofList_map (fun _ => ()) l x
  rw [distinctTexts, KeyMap.keys, List.mem_map]
  constructor
  · rintro ⟨⟨k, u⟩, hmem, rfl⟩
    have hsome := KeyMap.get?_eq_some_iff.mpr hmem
    by_contra hnot
    rw [hget, if_neg hnot] at hsome
    cases hsome
  · intro hx
    rw [if_pos hx] at hget
    exact ⟨(x, ()), KeyMap.get?_eq_some_iff.mp hget, rfl⟩

/-! ## Stable sorting -/

/-- Leaving members out before a stable sort or after it comes to the same. -/
theorem filter_mergeSort {α : Type} {le : α → α → Bool} (htrans : ∀ a b c, le a b = true → le b c = true → le a c = true)
    (htotal : ∀ a b, (le a b || le b a) = true) (p : α → Bool) (l : List α) :
    (l.mergeSort le).filter p = (l.filter p).mergeSort le := by
  -- members with their positions: the order is then strict, and one sorted list has these members
  let p' : α × Nat → Bool := p ∘ Prod.fst
  have hascending : (l.zipIdx.filter p').Pairwise fun a b => a.2 < b.2 := by
    refine List.Pairwise.filter _ ?_
    rw [← List.pairwise_map (f := Prod.snd), List.zipIdx_map_snd]
    exact List.pairwise_lt_range'
  have hsorted : ∀ l : List (α × Nat), (l.mergeSort (List.zipIdxLE le)).Pairwise fun a b => List.zipIdxLE le a b = true :=
    List.pairwise_mergeSort (List.zipIdxLE_trans htrans) (List.zipIdxLE_total htotal)
  have hpositions : (l.zipIdx.mergeSort (List.zipIdxLE le)).filter p' = (l.zipIdx.filter p').mergeSort (List.zipIdxLE le) := by
    have hperm : ((l.zipIdx.mergeSort (List.zipIdxLE le)).filter p').Perm ((l.zipIdx.filter p').mergeSort (List.zipIdxLE le)) :=
      ((List.mergeSort_perm _ _).filter p').trans (List.mergeSort_perm _ _).symm
    refine hperm.eq_of_pairwise (fun a b ha hb hab hba => ?_) ((hsorted _).filter p') (hsorted _)
    have ha : a ∈ l.zipIdx := List.mem_mergeSort.mp (List.mem_filter.mp ha).1
    have hb : b ∈ l.zipIdx := (List.mem_filter.mp (List.mem_mergeSort.mp hb)).1
    have hposition : a.2 = b.2 := by
      simp only [List.zipIdxLE] at hab hba
      grind
    rw [List.mem_zipIdx_iff_getElem?] at ha hb
    rw [hposition, hb, Option.some.injEq] at ha
    exact Prod.ext ha.symm hposition
  calc (l.mergeSort le).filter p
    _ = ((l.zipIdx.mergeSort (List.zipIdxLE le)).filter p').map (·.1) := by
      rw [← List.mergeSort_zipIdx (l := l), List.filter_map]
    _ = ((l.zipIdx.filter p').map (·.1)).mergeSort le := by rw [hpositions, Store.mergeSort_numbered le hascending]
    _ = (l.filter p).mergeSort le := by rw [← List.filter_map, List.zipIdx_map_fst]

section ByNumber

variable {α : Type} (number : α → UInt32)

/-- Members that are sorted by a number are in ascending order. -/
theorem mergeSort_ascending (l : List α) :
    (l.mergeSort fun a b => decide (number a ≤ number b)).Pairwise fun a b => number a ≤ number b := by
  have hsorted : (l.mergeSort fun a b => decide (number a ≤ number b)).Pairwise fun a b => decide (number a ≤ number b) = true :=
    List.pairwise_mergeSort (fun a b c hab hbc => by simpa using UInt32.le_trans (by simpa using hab) (by simpa using hbc))
      (fun a b => by simpa using UInt32.le_total (number a) (number b)) l
  simpa only [decide_eq_true_eq] using hsorted

variable {number} {l l' : List α}

/-- Where no number stands twice, the order is strict. -/
theorem mergeSort_strict (hnumbers : (l.map number).Nodup) :
    (l.mergeSort fun a b => decide (number a ≤ number b)).Pairwise fun a b => number a < number b := by
  have hdifferent := ((List.mergeSort_perm l fun a b => decide (number a ≤ number b)).map number).nodup_iff.mpr hnumbers
  rw [List.nodup_iff_pairwise_ne, List.pairwise_map] at hdifferent
  exact ((mergeSort_ascending number l).and hdifferent).imp fun h => UInt32.lt_of_le_of_ne h.1 h.2

/-- Members are sorted into one list then, however they come. -/
theorem mergeSort_eq_of_perm (hperm : l'.Perm l) (hnumbers : (l.map number).Nodup) :
    (l'.mergeSort fun a b => decide (number a ≤ number b)) = l.mergeSort fun a b => decide (number a ≤ number b) := by
  have hsame := (List.mergeSort_perm l' fun a b => decide (number a ≤ number b)).trans
    (hperm.trans (List.mergeSort_perm l fun a b => decide (number a ≤ number b)).symm)
  refine hsame.eq_of_pairwise (fun a b _ _ hab hba => ?_)
    (mergeSort_strict ((hperm.map number).nodup_iff.mpr hnumbers)) (mergeSort_strict hnumbers)
  exact absurd hba (UInt32.lt_asymm hab)

end ByNumber

/-- Rules on microservices by order. -/
def byOrder (a b : MicroserviceRule) : Bool := decide (a.order ≤ b.order)

theorem byOrder_trans (a b c : MicroserviceRule) (hab : byOrder a b = true) (hbc : byOrder b c = true) : byOrder a c = true := by
  simp only [byOrder, decide_eq_true_eq] at *
  exact UInt32.le_trans hab hbc

theorem byOrder_total (a b : MicroserviceRule) : (byOrder a b || byOrder b a) = true := by
  simp only [byOrder, Bool.or_eq_true, decide_eq_true_eq]
  exact UInt32.le_total a.order b.order

/-- Rules that are stored by order apply as they do in the order in which they came. -/
theorem applying_of_sorted (p : MicroserviceRule → Bool) (rules : List MicroserviceRule) :
    ((rules.mergeSort byOrder).filter p).mergeSort byOrder = (rules.filter p).mergeSort byOrder := by
  rw [filter_mergeSort byOrder_trans byOrder_total]
  exact List.mergeSort_of_pairwise (List.pairwise_mergeSort byOrder_trans byOrder_total _)

/-! ## Storing what is supposed -/

namespace Store

/-- Stores the labels of microservices one after the other, those of the `i`-th write at the time that the clock shows then. -/
def setAllLabels (clock : Nat → UInt64) (ns : String) : Nat → List Candidate → Store → Except RoutingError Store
  | _, [], s => .ok s
  | i, c :: rest, s =>
    match s.setLabels (clock i) ns c.name c.labels with
    | .ok (_, s) => setAllLabels clock ns (i + 1) rest s
    | .error e => .error e

/-- Stores what a question supposes for a namespace: its rules, where it has any, and then the labels of each microservice. -/
def suppose (s : Store) (clock : Nat → UInt64) (ns : String) (h : Hypothesis) : Except RoutingError Store :=
  if h.rules.isEmpty then setAllLabels clock ns 1 h.candidates s
  else match s.setMicroserviceRules (clock 0) ns h.rules with
    | .ok (_, s) => setAllLabels clock ns 1 h.candidates s
    | .error e => .error e

/-- The second store is the first with rules and labels of a namespace written over, and as resolution sees the namespace. -/
structure WrittenOver (ns : String) (rules : List MicroserviceRule) (labels : KeyMap Labels) (s s' : Store) : Prop where
  records : SameButRules s s'
  namespaceRules : s'.namespaceRules = s.namespaceRules
  permanentEntries : s'.permanentEntries = s.permanentEntries
  rules : ∀ dbType, s'.view.microserviceRules ns dbType =
    if (rules.filter (·.dbType = dbType)).isEmpty then s.view.microserviceRules ns dbType
    else (rules.filter (·.dbType = dbType)).mergeSort byOrder
  labels : ∀ microservice, s'.view.labels ns microservice = (labels.get? microservice).getD (s.view.labels ns microservice)

namespace WrittenOver

variable {ns : String} {rules : List MicroserviceRule} {labels : KeyMap Labels} {s s' s'' : Store}

/-- Nothing is written over by nothing. -/
theorem refl (ns : String) (s : Store) : WrittenOver ns [] .empty s s :=
  ⟨.refl s, rfl, rfl, fun _ => rfl, fun _ => rfl⟩

/-- Rules first, and then labels. -/
theorem trans (h : WrittenOver ns rules .empty s s') (h' : WrittenOver ns [] labels s' s'') : WrittenOver ns rules labels s s'' :=
  ⟨h.records.trans h'.records, h'.namespaceRules.trans h.namespaceRules, h'.permanentEntries.trans h.permanentEntries,
    fun dbType => (h'.rules dbType).trans (h.rules dbType),
    fun microservice => (h'.labels microservice).trans (by rw [h.labels]; rfl)⟩

end WrittenOver

/-! ### Labels -/

/-- The labels of one microservice are written, and those of the others stay. -/
theorem view_labels_putLabels (s : Store) (ns microservice microservice' : String) (labels : Labels) (now : UInt64) :
    (s.putLabels ⟨ns, microservice, labels, now⟩).view.labels ns microservice' =
      if microservice = microservice' then labels else s.view.labels ns microservice' := by
  simp only [view, labels?, putLabels, MicroserviceLabels.key, KeyMap.get?_insert, pairKey_right_inj]
  split <;> rfl

/-- Of a microservice that is listed twice the later labels are kept. -/
theorem writtenOver_setAllLabels {clock : Nat → UInt64} {ns : String} {i : Nat} {candidates : List Candidate} {s s' : Store}
    (h : setAllLabels clock ns i candidates s = .ok s') :
    WrittenOver ns [] (.ofList (candidates.map fun c => (c.name, c.labels))) s s' := by
  induction candidates generalizing i s with
  | nil =>
    cases h
    exact .refl ns _
  | cons c rest ih =>
    rw [setAllLabels] at h
    split at h
    · rename_i record s₁ hset
      have hrest := ih h
      have hrecords := sameButRules_setLabels hset
      obtain ⟨-, -, rfl⟩ := setLabels_eq_ok hset
      refine ⟨hrecords.trans hrest.records, hrest.namespaceRules, hrest.permanentEntries, hrest.rules, fun microservice => ?_⟩
      rw [hrest.labels, view_labels_putLabels, List.map_cons, KeyMap.get?_ofList_cons, Option.getD_or]
      split <;> rfl
    · cases h

/-! ### Rules -/

/-- Sets of rules for types are found under their types, and sets of other types stay. -/
theorem ruleSet?_foldl_putRuleSet {ns : String} {f : String → MicroserviceRuleSet}
    (hkey : ∀ dbType, (f dbType).key = pairKey ns dbType) (types : List String) (s : Store) (dbType : String) :
    ((types.map f).foldl putRuleSet s).ruleSet? ns dbType = if dbType ∈ types then some (f dbType) else s.ruleSet? ns dbType := by
  induction types generalizing s with
  | nil => rfl
  | cons first rest ih =>
    have hfirst : (s.putRuleSet (f first)).ruleSet? ns dbType = if first = dbType then some (f first) else s.ruleSet? ns dbType := by
      simp only [ruleSet?, putRuleSet, hkey, KeyMap.get?_insert, pairKey_right_inj]
    rw [List.map_cons, List.foldl_cons, ih, hfirst]
    by_cases hrest : dbType ∈ rest
    · simp [hrest]
    · by_cases heq : first = dbType
      · simp [heq]
      · simp [hrest, heq, Ne.symm heq]

/-- Rules take the place of the stored ones of their types, by order. -/
theorem writtenOver_setMicroserviceRules {s s' : Store} {now : UInt64} {ns : String} {rules : List MicroserviceRule}
    {sets : List MicroserviceRuleSet} (h : s.setMicroserviceRules now ns rules = .ok (sets, s')) :
    WrittenOver ns rules .empty s s' := by
  have hrecords := sameButRules_setMicroserviceRules h
  obtain ⟨-, -, rfl⟩ := setMicroserviceRules_eq_ok h
  have hstore := foldl_putRuleSet (ruleSets ns now rules) s
  refine ⟨hrecords, by rw [hstore], by rw [hstore], fun dbType => ?_, fun microservice => ?_⟩
  · have hsets : ruleSets ns now rules = (distinctTexts (rules.map (·.dbType))).map fun dbType =>
        ⟨ns, dbType, (rules.filter (·.dbType = dbType)).mergeSort byOrder, now⟩ := rfl
    have hmentioned : dbType ∈ distinctTexts (rules.map (·.dbType)) ↔ ¬(rules.filter (·.dbType = dbType)).isEmpty = true := by
      simp [mem_distinctTexts_iff]
    simp only [view]
    rw [hsets, ruleSet?_foldl_putRuleSet fun _ => rfl]
    by_cases hlaid : (rules.filter (·.dbType = dbType)).isEmpty = true
    · rw [if_neg fun hmem => hmentioned.mp hmem hlaid, if_pos hlaid]
    · rw [if_pos (hmentioned.mpr hlaid), if_neg hlaid]
      rfl
  · rw [hstore]
    rfl

/-- What is supposed is written over what is stored. -/
theorem writtenOver_suppose {s s' : Store} {clock : Nat → UInt64} {ns : String} {h : Hypothesis}
    (hstored : s.suppose clock ns h = .ok s') : WrittenOver ns h.rules h.labels s s' := by
  rw [suppose] at hstored
  split at hstored
  · rename_i hempty
    rw [List.isEmpty_iff.mp hempty]
    exact writtenOver_setAllLabels hstored
  · split at hstored
    · rename_i s₁ hset
      exact (writtenOver_setMicroserviceRules hset).trans (writtenOver_setAllLabels hstored)
    · cases hstored

/-! ## Resolution sees no difference -/

/-- Resolution looks at the applying rules, the labels of the microservice, the permanent entry and the rules of the namespace, and
the physical databases. -/
theorem resolve?_congr {v v' : RoutingView} {r : Route} (happlying : v.applyingRules r = v'.applyingRules r)
    (hlabels : v.labels r.ns r.microservice = v'.labels r.ns r.microservice)
    (hpermanent : v.permanentEntry? r.ns r.dbType = v'.permanentEntry? r.ns r.dbType)
    (hnamespaceRules : v.namespaceRules r.ns r.dbType = v'.namespaceRules r.ns r.dbType)
    (hphysicals : v.physicals = v'.physicals) : v.resolve? r = v'.resolve? r := by
  have hphysical : ∀ dbType id, v.physical? dbType id = v'.physical? dbType id := fun dbType id => by
    rw [RoutingView.physical?, RoutingView.physical?, hphysicals]
  have hrule : v.decideByRule? = v'.decideByRule? := by
    funext dbType labels rule
    simp only [RoutingView.decideByRule?, RoutingView.targetOf?, hphysical, hphysicals]
  simp only [RoutingView.resolve?, RoutingView.decideOnMicroservice?, RoutingView.decidePermanent?,
    RoutingView.decideNamespaced?, RoutingView.decideGlobal?, RoutingView.orderedRules, happlying, hlabels, hpermanent, hnamespaceRules,
    hphysical, hrule, hphysicals]

/-- In the store with the writes resolution answers as it does over the overlay. -/
theorem resolve?_of_writtenOver {ns : String} {rules : List MicroserviceRule} {labels : KeyMap Labels} {s s' : Store}
    (h : WrittenOver ns rules labels s s') (microservice dbType : String) :
    (s.view.overlay ns rules labels).resolve? ⟨ns, microservice, dbType⟩ = s'.view.resolve? ⟨ns, microservice, dbType⟩ := by
  refine resolve?_congr ?_ ?_ ?_ ?_ ?_
  · have hstored := h.rules dbType
    simp only [RoutingView.applyingRules, RoutingView.overlay, decide_true, Bool.true_and, Bool.not_eq_true']
    by_cases hlaid : (rules.filter (·.dbType = dbType)).isEmpty = true
    · rw [if_pos hlaid] at hstored
      simp only [hstored, hlaid, Bool.true_eq_false, if_false]
    · rw [if_neg hlaid] at hstored
      simp only [hstored, hlaid, if_true]
      exact (applying_of_sorted _ _).symm
  · rw [h.labels]
    exact if_pos rfl
  · simp only [RoutingView.overlay, view, permanentEntry?, h.permanentEntries]
  · simp only [RoutingView.overlay, view, namespaceRulesOf, h.namespaceRules]
  · simp only [RoutingView.overlay, view, funext_iff, physicalsOf, physicalList, h.records.physicals, implies_true]

/-- Records stand under their own keys as before. -/
theorem WrittenOver.routingTabled {ns : String} {rules : List MicroserviceRule} {labels : KeyMap Labels} {s s' : Store}
    (h : WrittenOver ns rules labels s s') (htabled : s.RoutingTabled) : s'.RoutingTabled :=
  ⟨fun id p hp => htabled.physical_id id p (by rwa [physical?, ← h.records.physicals]),
    fun key rule hrule => htabled.rule_key key rule (by rwa [← h.namespaceRules])⟩

/-! ## A new database -/

/-- A request for a new database of a microservice: its classifier, in the current shape, is valid and names the namespace and the
microservice, it pins no target, no database is bound under the current or the legacy shape, and the namespace is no controller. -/
structure AsksForNew (s : Store) (r : DatabaseRequest) (c : Classifier) (ns microservice : String) : Prop where
  identity : r.identity = .ok (c, ns)
  microservice : c.microserviceName = some microservice
  unpinned : r.physicalDatabaseId = none
  unbound : s.existing? r.dbType c = none
  noController : s.domain? ns = none

/-- A database is made on a physical database and stored. -/
structure MadeOn (s : Store) (now : UInt64) (id : String) (r : DatabaseRequest) (c : Classifier) (ns : String) (d : Decision)
    (p : PhysicalDatabase) (db : LogicalDatabase) (s' : Store) : Prop where
  target : s.physical? d.physicalDatabaseId = some p
  dbType : p.dbType = r.dbType
  answer : s.getOrCreate now id r = .ok (.resolved db true false (some d.applied), s')
  database : db = .make id now r.dbType ⟨c, ns, false⟩ p
  placed : db.physicalDatabaseId = d.physicalDatabaseId
  stored : s'.logical? id = some db.reread

/-- A new database is stored under its id. -/
theorem logical?_create (s : Store) (now : UInt64) (id dbType : String) (a : Address) (p : PhysicalDatabase) :
    (s.create now id dbType a p).2.logical? id = some (LogicalDatabase.make id now dbType a p).reread := by
  obtain ⟨instructions, index, hjoin⟩ := (s.putLogical (.make id now dbType a p)).joinMigration_eq now (.make id now dbType a p)
  rw [create, hjoin]
  exact (logical?_putLogical s (.make id now dbType a p) id).trans (if_pos rfl)

/-- A request for a new database is put where resolution puts it, or nowhere. -/
theorem AsksForNew.getOrCreate {s : Store} {r : DatabaseRequest} {c : Classifier} {ns microservice : String}
    (h : s.AsksForNew r c ns microservice) (htabled : s.RoutingTabled) (now : UInt64) (id : String) :
    match s.view.resolve? ⟨ns, microservice, r.dbType⟩ with
    | none => s.getOrCreate now id r = .ok (.noAdapter r.dbType, s)
    | some d => ∃ p db s', s.MadeOn now id r c ns d p db s' := by
  have haddress : s.address r = .ok ⟨c, ns, false⟩ := address_of_noController h.identity h.noController
  have hroute : RoutingView.routeOf c r.dbType ns = ⟨ns, microservice, r.dbType⟩ := by
    rw [RoutingView.routeOf, h.microservice, Option.getD_some]
  cases hresolve : s.view.resolve? ⟨ns, microservice, r.dbType⟩ with
  | none => simp only [Store.getOrCreate, haddress, h.unbound, placeFor, h.unpinned, hroute, hresolve]
  | some d =>
    have hhead := htabled.resolve?_eq_head? ⟨ns, microservice, r.dbType⟩
    rw [hresolve] at hhead
    obtain ⟨p, hp, htype, -⟩ := htabled.sound_of_mem_precedence (List.mem_of_head? hhead.symm)
    rw [← physical?] at hp
    refine ⟨p, _, _, hp, htype, ?_, rfl, htabled.physical_id _ p hp, logical?_create s now id r.dbType ⟨c, ns, false⟩ p⟩
    simp only [Store.getOrCreate, haddress, h.unbound, placeFor, h.unpinned, hroute, hresolve, hp]
    rfl

/-! ## Evaluation -/

/-- What a report holds for a microservice and a type that were asked about. -/
theorem get?_evaluate {v : RoutingView} {ns : String} {h : Hypothesis} {report : Report} (hreport : v.evaluate ns h = .ok report)
    {c : Candidate} (hc : c ∈ h.candidates) {dbType : String} (htype : dbType ∈ h.types) :
    (report.get? c.name).bind (·.get? dbType) = some ((v.supposing ns h).resolve? ⟨ns, c.name, dbType⟩) := by
  rw [RoutingView.evaluate] at hreport
  split at hreport
  · cases hreport
  · cases hreport
    have hreports : h.candidates.map (fun c => (c.name,
        KeyMap.ofList (h.types.map fun dbType => (dbType, (v.supposing ns h).resolve? ⟨ns, c.name, dbType⟩)))) =
        (h.candidates.map (·.name)).map fun name => (name,
          KeyMap.ofList (h.types.map fun dbType => (dbType, (v.supposing ns h).resolve? ⟨ns, name, dbType⟩))) := by
      rw [List.map_map]
      rfl
    rw [hreports, KeyMap.get?_ofList_map, if_pos (List.mem_map_of_mem hc), Option.bind_some, KeyMap.get?_ofList_map, if_pos htype]

/-- Evaluation is exactly what production would do. When a question is accepted for a namespace, and so would be storing its rules,
where it has any, and then the labels of each of its microservices in order, then for each microservice and each type asked about
1. the report holds what resolution answers in the store with these writes: target, rule and labels, or nothing where it answers
   nothing;
2. where records stand under their own keys, a request for a new database of the microservice in that store is put on that target, and
   where there is none it is answered so and nothing is stored. -/
theorem evaluation_is_production {s s' : Store} {clock : Nat → UInt64} {ns : String} {h : Hypothesis} {report : Report}
    (hreport : s.view.evaluate ns h = .ok report) (hstored : s.suppose clock ns h = .ok s') {candidate : Candidate}
    (hcandidate : candidate ∈ h.candidates) {dbType : String} (htype : dbType ∈ h.types) :
    (report.get? candidate.name).bind (·.get? dbType) = some (s'.view.resolve? ⟨ns, candidate.name, dbType⟩) ∧
      (s.RoutingTabled → ∀ (now : UInt64) (id : String) (r : DatabaseRequest) (c : Classifier),
        s'.AsksForNew r c ns candidate.name → r.dbType = dbType →
        match s'.view.resolve? ⟨ns, candidate.name, dbType⟩ with
        | none => s'.getOrCreate now id r = .ok (.noAdapter dbType, s')
        | some d => ∃ p db s'', s'.MadeOn now id r c ns d p db s'') := by
  have hwritten := writtenOver_suppose hstored
  refine ⟨?_, fun htabled now id r c hasks hdbType => ?_⟩
  · rw [get?_evaluate hreport hcandidate htype]
    exact congrArg some (resolve?_of_writtenOver hwritten candidate.name dbType)
  · subst hdbType
    exact hasks.getOrCreate (hwritten.routingTabled htabled) now id

/-- A question about `cart`, listed twice with different labels, under two rules. -/
def sampleQuestion : Hypothesis :=
  ⟨[⟨"postgresql", 1, [], [⟨"zone", "b"⟩], none⟩, ⟨"postgresql", 2, [], [⟨"zone", "a"⟩], none⟩],
    [⟨"cart", KeyMap.empty.insert "zone" "b"⟩, ⟨"cart", KeyMap.empty.insert "zone" "a"⟩], []⟩

/-- The physical databases of the sample are stored in order. -/
theorem physicals_sampleRules :
    sampleRules.view.physicals "postgresql" = sampleRules.physicalList.filter (·.dbType = "postgresql") :=
  List.mergeSort_of_pairwise (by decide +kernel)

/-- The rules of the question are valid. -/
theorem problems_sampleQuestion : sampleRules.view.problems sampleQuestion.rules = [] := by
  simp only [RoutingView.problems, sampleQuestion, RoutingView.problemsFrom, RoutingView.ruleProblems, RoutingView.targetProblems,
    physicals_sampleRules]
  decide +kernel

/-- Of the labels of `cart` the last ones are laid over, so the second rule decides. -/
theorem resolve?_sampleQuestion :
    (sampleRules.view.supposing "shop" sampleQuestion).resolve? ⟨"shop", "cart", "postgresql"⟩ =
      some ⟨"pg-a", .onMicroservice 2 ⟨"zone", "a"⟩, KeyMap.empty.insert "zone" "a"⟩ := by
  generalize hview : sampleRules.view.supposing "shop" sampleQuestion = v
  have hlabels : v.labels "shop" "cart" = KeyMap.empty.insert "zone" "a" := by
    rw [← hview]
    decide +kernel
  have hphysicals : v.physicals "postgresql" = sampleRules.physicalList.filter (·.dbType = "postgresql") := by
    rw [← hview]
    exact physicals_sampleRules
  have happlying : v.applyingRules ⟨"shop", "cart", "postgresql"⟩ = sampleQuestion.rules := by
    rw [← hview]
    exact List.mergeSort_of_pairwise (by decide +kernel)
  have hrules : v.decideOnMicroservice? ⟨"shop", "cart", "postgresql"⟩ =
      some ⟨"pg-a", .onMicroservice 2 ⟨"zone", "a"⟩, KeyMap.empty.insert "zone" "a"⟩ := by
    simp only [RoutingView.decideOnMicroservice?, happlying, hlabels, sampleQuestion, List.findSome?_cons, List.findSome?_nil,
      RoutingView.decideByRule?, RoutingView.targetOf?, hphysicals]
    decide +kernel
  rw [RoutingView.resolve?, hrules]
  rfl

/-- The labels that are listed last decide, in the report and for a new database. -/
theorem evaluation_of_sampleQuestion :
    ∃ report s', sampleRules.view.evaluate "shop" sampleQuestion = .ok report ∧
      sampleRules.suppose (fun i => UInt64.ofNat i) "shop" sampleQuestion = .ok s' ∧
      let d : Decision := ⟨"pg-a", .onMicroservice 2 ⟨"zone", "a"⟩, KeyMap.empty.insert "zone" "a"⟩
      let c : Classifier := .service "shop" "cart"
      (report.get? "cart").bind (·.get? "postgresql") = some (some d) ∧
        ∃ p db s'', s'.MadeOn 7 "ldb-1" ⟨c, "postgresql", none, none⟩ c "shop" d p db s'' := by
  obtain ⟨report, hreport⟩ : ∃ report, sampleRules.view.evaluate "shop" sampleQuestion = .ok report := by
    have hproblem : sampleQuestion.problem? = none := by decide +kernel
    rw [RoutingView.evaluate, hproblem]
    exact ⟨_, rfl⟩
  obtain ⟨s', hstored⟩ : ∃ s', sampleRules.suppose (fun i => UInt64.ofNat i) "shop" sampleQuestion = .ok s' := by
    have hset : sampleRules.setMicroserviceRules 0 "shop" sampleQuestion.rules =
        .ok (ruleSets "shop" 0 sampleQuestion.rules, (ruleSets "shop" 0 sampleQuestion.rules).foldl putRuleSet sampleRules) := by
      rw [setMicroserviceRules, problems_sampleQuestion]
      rfl
    have hrules : sampleQuestion.rules.isEmpty = false := rfl
    have hclock : UInt64.ofNat 0 = 0 := rfl
    simp only [suppose, hrules, hclock, hset]
    exact ⟨_, rfl⟩
  have hwritten := writtenOver_suppose hstored
  have hresolve := (resolve?_of_writtenOver hwritten "cart" "postgresql").symm.trans resolve?_sampleQuestion
  have hcandidate : (⟨"cart", KeyMap.empty.insert "zone" "b"⟩ : Candidate) ∈ sampleQuestion.candidates := by decide +kernel
  have htype : "postgresql" ∈ sampleQuestion.types := by decide +kernel
  have htabled : sampleRules.RoutingTabled := by decide +kernel
  have hasks : s'.AsksForNew ⟨.service "shop" "cart", "postgresql", none, none⟩ (.service "shop" "cart") "shop" "cart" := by
    refine ⟨rfl, rfl, rfl, ?_, ?_⟩
    · simp only [existing?, findLogical?, hwritten.records.classifierIndex]
      rfl
    · rw [domain?, hwritten.records.domains]
      rfl
  obtain ⟨hreported, hmade⟩ := evaluation_is_production hreport hstored hcandidate htype
  have hmade := hmade htabled 7 "ldb-1" _ _ hasks rfl
  rw [hresolve] at hmade
  exact ⟨report, s', hreport, hstored, hreported.trans (congrArg some hresolve), hmade⟩

end Store

end DatabaseBroker
