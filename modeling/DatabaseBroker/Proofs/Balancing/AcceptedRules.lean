import DatabaseBroker.Proofs.Balancing.Supposition

/-!
# Rules on microservices that are accepted

Rules are accepted when no problem is found (`RoutingView.ValidRules`): then what a rule pins is a physical database of its type, and
without a pinned target each of its labels is carried by one. This is said of every label, since which one a rule applies by is not
known before a microservice asks. So an accepted rule decides whenever it applies (`RoutingView.decideByRule?_isSome`), and as long as
the rules and the physical databases stay, a microservice that it applies to is never left to the lower tiers
(`accepted_rules_route`).
-/

namespace DatabaseBroker

/-! ## Rules without problems -/

namespace RoutingView

variable {v : RoutingView}

/-- A rule that has a target by whichever of its labels it applies. -/
def HasTarget (v : RoutingView) (rule : MicroserviceRule) : Prop :=
  match rule.physicalDatabaseId with
  | some pinned => ∃ p ∈ v.physicals rule.dbType, p.id = pinned
  | none => ∀ label ∈ rule.labels, ∃ p ∈ v.physicals rule.dbType, label.selects p.labels = true

/-- A rule that is valid by itself. -/
structure ValidRule (v : RoutingView) (rule : MicroserviceRule) : Prop where
  dbType : Text.isBlank rule.dbType = false
  labels : rule.labels ≠ []
  microservices : ∀ microservice ∈ rule.microservices, Text.isBlank microservice = false
  target : v.HasTarget rule

/-- Rules that are valid, each by itself and beside the others: there are some, and no two have one type and order. -/
structure ValidRules (v : RoutingView) (rules : List MicroserviceRule) : Prop where
  given : rules ≠ []
  each : ∀ rule ∈ rules, v.ValidRule rule
  orders : (rules.map fun rule => (rule.dbType, rule.order)).Nodup

theorem targetProblems_eq_nil_iff {i : Nat} {rule : MicroserviceRule} : v.targetProblems i rule = [] ↔ v.HasTarget rule := by
  unfold targetProblems HasTarget
  cases rule.physicalDatabaseId with
  | some pinned => simp
  | none => simp [List.filter_eq_nil_iff]

theorem ruleProblems_eq_nil_iff {orders : List (String × UInt32)} {i : Nat} {rule : MicroserviceRule}
    (hnamed : Text.isBlank rule.dbType = false) :
    v.ruleProblems orders i rule = [] ↔ (rule.dbType, rule.order) ∉ orders ∧ v.ValidRule rule := by
  simp only [ruleProblems, List.append_eq_nil_iff, targetProblems_eq_nil_iff, ite_eq_right_iff, List.cons_ne_nil, imp_false,
    List.contains_eq_mem, decide_eq_true_eq, List.isEmpty_iff, List.any_eq_true, not_exists, not_and, Bool.not_eq_true]
  constructor
  · rintro ⟨⟨⟨hfree, hlabels⟩, hmicroservices⟩, htarget⟩
    exact ⟨hfree, hnamed, hlabels, hmicroservices, htarget⟩
  · rintro ⟨hfree, hvalid⟩
    exact ⟨⟨⟨hfree, hvalid.labels⟩, hvalid.microservices⟩, hvalid.target⟩

/-- No problem is found in rules that are valid and have types and orders of their own, also beside those that are taken. -/
theorem problemsFrom_eq_nil_iff {orders : List (String × UInt32)} {i : Nat} {rules : List MicroserviceRule} :
    v.problemsFrom orders i rules = [] ↔
      (∀ rule ∈ rules, (rule.dbType, rule.order) ∉ orders ∧ v.ValidRule rule) ∧
        (rules.map fun rule => (rule.dbType, rule.order)).Nodup := by
  induction rules generalizing orders i with
  | nil => simp [problemsFrom]
  | cons rule rest ih =>
    rw [problemsFrom, List.forall_mem_cons, List.map_cons, List.nodup_cons]
    split
    · rename_i hblank
      constructor
      · intro hnil
        cases hnil
      · rintro ⟨⟨⟨-, hvalid⟩, -⟩, -⟩
        rw [hvalid.dbType] at hblank
        cases hblank
    · rename_i hnamed
      rw [List.append_eq_nil_iff, ruleProblems_eq_nil_iff (by simpa using hnamed), ih]
      constructor
      · rintro ⟨hfirst, hrest, hnodup⟩
        refine ⟨⟨hfirst, fun rule' hrule' => ⟨fun hmem => (hrest rule' hrule').1 (List.mem_cons_of_mem _ hmem),
          (hrest rule' hrule').2⟩⟩, fun hmem => ?_, hnodup⟩
        obtain ⟨rule', hrule', hslot⟩ := List.mem_map.mp hmem
        exact (hrest rule' hrule').1 (hslot ▸ List.mem_cons_self)
      · rintro ⟨⟨hfirst, hrest⟩, hfresh, hnodup⟩
        refine ⟨hfirst, fun rule' hrule' => ⟨fun hmem => ?_, (hrest rule' hrule').2⟩, hnodup⟩
        rcases List.mem_cons.mp hmem with hslot | hmem
        · exact hfresh (List.mem_map.mpr ⟨rule', hrule', hslot⟩)
        · exact (hrest rule' hrule').1 hmem

/-- No problem is found exactly in valid rules. -/
theorem problems_eq_nil_iff {rules : List MicroserviceRule} : v.problems rules = [] ↔ v.ValidRules rules := by
  simp only [problems, List.append_eq_nil_iff, ite_eq_right_iff, List.cons_ne_nil, imp_false, List.isEmpty_iff,
    problemsFrom_eq_nil_iff, List.not_mem_nil, not_false_eq_true, true_and]
  constructor
  · rintro ⟨hgiven, heach, horders⟩
    exact ⟨hgiven, heach, horders⟩
  · intro h
    exact ⟨h.given, h.each, h.orders⟩

/-! ## Rules that decide -/

/-- A rule that has a target decides for every microservice that carries one of its labels, by a label that it carries. -/
theorem HasTarget.decides {rule : MicroserviceRule} (h : v.HasTarget rule) {labels : Labels} {label : Label}
    (hlabel : label ∈ rule.labels) (hcarried : label.selects labels = true) :
    (v.decideByRule? rule.dbType labels rule).isSome = true := by
  obtain ⟨matched, hmatched⟩ : ∃ matched, rule.matchedLabel? labels = some matched :=
    Option.isSome_iff_exists.mp (List.find?_isSome.mpr ⟨label, hlabel, hcarried⟩)
  have htarget : (v.targetOf? rule.dbType rule matched).isSome = true := by
    unfold HasTarget at h
    unfold targetOf?
    cases hpinned : rule.physicalDatabaseId with
    | some pinned =>
      rw [hpinned] at h
      simpa [physical?] using h
    | none =>
      rw [hpinned] at h
      simpa using h matched (List.mem_of_find?_eq_some hmatched)
  rw [decideByRule?, hmatched, Option.bind_some, Option.isSome_map]
  exact htarget

/-- What a rule decides is a physical database of the type, by a label of the rule that the microservice carries. -/
theorem decideByRule?_eq_some {rule : MicroserviceRule} {dbType : String} {labels : Labels} {d : Decision}
    (h : v.decideByRule? dbType labels rule = some d) :
    ∃ label ∈ rule.labels, label.selects labels = true ∧ ∃ p ∈ v.physicals dbType,
      d = p.chosenBy (.onMicroservice rule.order label) := by
  obtain ⟨label, hmatched, htarget⟩ := Option.bind_eq_some_iff.mp h
  obtain ⟨p, hp, rfl⟩ := Option.map_eq_some_iff.mp htarget
  refine ⟨label, List.mem_of_find?_eq_some hmatched, by simpa using List.find?_some hmatched, p, ?_, rfl⟩
  unfold targetOf? at hp
  split at hp
  · exact List.mem_of_find?_eq_some hp
  · exact List.mem_of_find?_eq_some hp

/-- Of the rules that apply to a route, the first that decides has the lowest order among those that decide. -/
theorem decideOnMicroservice?_of_isSome {r : Route} {rule : MicroserviceRule} (hrule : rule ∈ v.applyingRules r)
    (hdecides : (v.decideByRule? r.dbType (v.labels r.ns r.microservice) rule).isSome = true) :
    ∃ first ∈ v.applyingRules r, first.order ≤ rule.order ∧ ∃ d, v.decideOnMicroservice? r = some d ∧
      v.decideByRule? r.dbType (v.labels r.ns r.microservice) first = some d := by
  have hsorted : (v.applyingRules r).Pairwise fun a b => byOrder a b = true := List.pairwise_mergeSort byOrder_trans byOrder_total _
  obtain ⟨d, hd⟩ : ∃ d, v.decideOnMicroservice? r = some d :=
    Option.isSome_iff_exists.mp (List.findSome?_isSome_iff.mpr ⟨rule, hrule, hdecides⟩)
  obtain ⟨before, first, after, hsplit, hfirst, hbefore⟩ := List.findSome?_eq_some_iff.mp hd
  rw [hsplit] at hrule hsorted ⊢
  refine ⟨first, by simp, ?_, d, hd, hfirst⟩
  rcases List.mem_append.mp hrule with hearlier | hlater
  · simp [hbefore rule hearlier] at hdecides
  · rcases List.mem_cons.mp hlater with rfl | hlater
    · exact UInt32.le_refl _
    · have hle := (List.pairwise_cons.mp (List.pairwise_append.mp hsorted).2.1).1 rule hlater
      simpa [byOrder] using hle

end RoutingView

namespace Store

variable {s s' later : Store} {now : UInt64} {ns : String} {rules : List MicroserviceRule} {sets : List MicroserviceRuleSet}

/-- Rules are accepted when their names are plain and they are valid, and then stored type by type. -/
theorem setMicroserviceRules_eq_ok_iff {out : List MicroserviceRuleSet × Store} : s.setMicroserviceRules now ns rules = .ok out ↔
    PlainName ns ∧ (∀ rule ∈ rules, PlainName rule.dbType) ∧ s.view.ValidRules rules ∧
      out = (ruleSets ns now rules, (ruleSets ns now rules).foldl putRuleSet s) := by
  simp only [setMicroserviceRules, bind_eq_ok, checkName_eq_ok_iff, forM_eq_ok_iff, ← RoutingView.problems_eq_nil_iff]
  constructor
  · rintro ⟨_, hns, _, htypes, h⟩
    split at h
    · rename_i hnone
      cases h
      exact ⟨hns, htypes, hnone, rfl⟩
    · cases h
  · rintro ⟨hns, htypes, hnone, rfl⟩
    refine ⟨(), hns, (), htypes, ?_⟩
    rw [hnone]

/-- The rules of an accepted list that apply to a route are found as long as they stay stored. -/
theorem mem_applyingRules_iff (hok : s.setMicroserviceRules now ns rules = .ok (sets, s')) {dbType : String}
    (hset : later.ruleSet? ns dbType = s'.ruleSet? ns dbType) (hmentioned : ∃ rule ∈ rules, rule.dbType = dbType)
    {microservice : String} {rule : MicroserviceRule} :
    rule ∈ later.view.applyingRules ⟨ns, microservice, dbType⟩ ↔
      rule ∈ rules ∧ rule.dbType = dbType ∧ rule.appliesTo microservice = true := by
  have hlisted : later.view.microserviceRules ns dbType = (rules.filter (·.dbType = dbType)).mergeSort byOrder := by
    have hwritten := (writtenOver_setMicroserviceRules hok).rules dbType
    rw [if_neg (by simpa using hmentioned)] at hwritten
    rw [← hwritten]
    simp only [view, hset]
  simp only [RoutingView.applyingRules, hlisted, List.mem_mergeSort, List.mem_filter, Bool.and_eq_true, decide_eq_true_eq]
  constructor
  · rintro ⟨⟨hrule, -⟩, htype, happlies⟩
    exact ⟨hrule, htype, happlies⟩
  · rintro ⟨hrule, htype, happlies⟩
    exact ⟨⟨hrule, htype⟩, htype, happlies⟩

/-- The rules of an accepted list have targets as long as the physical databases of their type stay. -/
theorem hasTarget_of_setMicroserviceRules (hok : s.setMicroserviceRules now ns rules = .ok (sets, s')) {rule : MicroserviceRule}
    (hrule : rule ∈ rules) (hphysicals : later.physicalsOf rule.dbType = s'.physicalsOf rule.dbType) :
    later.view.HasTarget rule := by
  have hsame : later.view.physicals rule.dbType = s.view.physicals rule.dbType := by
    have hrecords := (writtenOver_setMicroserviceRules hok).records.physicals
    refine hphysicals.trans ?_
    simp only [view, physicalsOf, physicalList, hrecords]
  have htarget := ((setMicroserviceRules_eq_ok_iff.mp hok).2.2.1.each rule hrule).target
  unfold RoutingView.HasTarget at htarget ⊢
  rw [hsame]
  exact htarget

/-- Rules that are accepted route for good. From the store that they leave on, in every store in which the physical databases of a type
and the stored rules of the type for the namespace are still the same, and for each rule of the type and each microservice that it
applies to and that carries one of its labels: resolution answers with a physical database of the type, chosen by a rule of the list
that applies to the microservice by a label that it carries, and whose order is at most that of the rule. -/
theorem accepted_rules_route (hok : s.setMicroserviceRules now ns rules = .ok (sets, s')) {rule : MicroserviceRule}
    (hrule : rule ∈ rules) (hphysicals : later.physicalsOf rule.dbType = s'.physicalsOf rule.dbType)
    (hset : later.ruleSet? ns rule.dbType = s'.ruleSet? ns rule.dbType) {microservice : String}
    (happlies : rule.appliesTo microservice = true) {label : Label} (hlabel : label ∈ rule.labels)
    (hcarried : label.selects (later.labelsOf ns microservice) = true) :
    ∃ first ∈ rules, first.dbType = rule.dbType ∧ first.appliesTo microservice = true ∧ first.order ≤ rule.order ∧
      ∃ matched ∈ first.labels, matched.selects (later.labelsOf ns microservice) = true ∧
        ∃ p ∈ later.physicalsOf rule.dbType, later.view.resolve? ⟨ns, microservice, rule.dbType⟩ =
          some (p.chosenBy (.onMicroservice first.order matched)) := by
  have happlying : ∀ {r}, r ∈ later.view.applyingRules ⟨ns, microservice, rule.dbType⟩ ↔
      r ∈ rules ∧ r.dbType = rule.dbType ∧ r.appliesTo microservice = true := mem_applyingRules_iff hok hset ⟨rule, hrule, rfl⟩
  have hdecides := (hasTarget_of_setMicroserviceRules hok hrule hphysicals).decides hlabel hcarried
  obtain ⟨first, hfirst, hle, d, hd, hdecided⟩ :=
    RoutingView.decideOnMicroservice?_of_isSome (happlying.mpr ⟨hrule, rfl, happlies⟩) hdecides
  obtain ⟨hmem, htype, hfirstApplies⟩ := happlying.mp hfirst
  obtain ⟨matched, hmatched, hselects, p, hp, rfl⟩ := RoutingView.decideByRule?_eq_some hdecided
  refine ⟨first, hmem, htype, hfirstApplies, hle, matched, hmatched, hselects, p, hp, ?_⟩
  rw [RoutingView.resolve?, hd]
  rfl

/-- The rules of the sample are accepted, and when a permanent entry for another cluster is stored as well, they still decide for the
label that `cart` carries. -/
theorem accepted_rules_route_of_sampleRules :
    ∃ sets s', sampleRules.setMicroserviceRules 9 "shop" sampleQuestion.rules = .ok (sets, s') ∧
      ∃ (p : PhysicalDatabase) (order : UInt32) (matched : Label), order ≤ 2 ∧
        (s'.putPermanentEntry ⟨"shop", "postgresql", "pg-b"⟩).view.resolve? ⟨"shop", "cart", "postgresql"⟩ =
          some (p.chosenBy (.onMicroservice order matched)) := by
  let s' := (ruleSets "shop" 9 sampleQuestion.rules).foldl putRuleSet sampleRules
  let later := s'.putPermanentEntry ⟨"shop", "postgresql", "pg-b"⟩
  let rule : MicroserviceRule := ⟨"postgresql", 2, [], [⟨"zone", "a"⟩], none⟩
  have hok : sampleRules.setMicroserviceRules 9 "shop" sampleQuestion.rules = .ok (ruleSets "shop" 9 sampleQuestion.rules, s') :=
    setMicroserviceRules_eq_ok_iff.mpr
      ⟨by decide +kernel, by decide +kernel, RoutingView.problems_eq_nil_iff.mp problems_sampleQuestion, rfl⟩
  have hrule : rule ∈ sampleQuestion.rules := by decide +kernel
  have hphysicals : later.physicalsOf "postgresql" = s'.physicalsOf "postgresql" := rfl
  have hset : later.ruleSet? "shop" "postgresql" = s'.ruleSet? "shop" "postgresql" := rfl
  have happlies : rule.appliesTo "cart" = true := rfl
  have hlabel : ⟨"zone", "a"⟩ ∈ rule.labels := List.mem_singleton_self _
  have hcarried : (⟨"zone", "a"⟩ : Label).selects (later.labelsOf "shop" "cart") = true := by
    simp only [later, s', foldl_putRuleSet]
    decide +kernel
  obtain ⟨first, -, -, -, hle, matched, -, -, p, -, hresolve⟩ :=
    accepted_rules_route hok hrule hphysicals hset happlies hlabel hcarried
  exact ⟨_, s', hok, p, first.order, matched, hle, hresolve⟩

end Store

end DatabaseBroker
