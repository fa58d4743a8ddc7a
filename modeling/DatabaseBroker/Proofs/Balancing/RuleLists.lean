import DatabaseBroker.Proofs.Balancing.AcceptedRules
import DatabaseBroker.Proofs.Balancing.RuleBook

/-!
# The order of a list of rules

Rules on microservices come as a list and are kept as sets, one for each type. Which rules are valid does not depend on where in the
list they stand (`RoutingView.ValidRules.perm`), and valid rules of one type have different orders, so only one list of them is
ascending (`mergeSort_eq_of_perm`). What is stored therefore depends on the rules alone: each set holds the rules of its type by order
(`RuleSetOf`), in place of the whole set that was there (`rules_stored_in_any_order`).
-/

namespace DatabaseBroker

/-! ## Types -/

/-- Different texts are listed in order. -/
theorem distinctTexts_ascending (l : List String) : (distinctTexts l).Pairwise (· < ·) :=
  List.pairwise_map.mpr (KeyMap.ofList (l.map (·, ()))).ascending

/-- Lists of the same texts have one list of different texts. -/
theorem distinctTexts_congr {l l' : List String} (h : ∀ x, x ∈ l ↔ x ∈ l') : distinctTexts l = distinctTexts l' := by
  have hsame : KeyMap.ofList (l.map (·, ())) = KeyMap.ofList (l'.map (·, ())) := by
    refine KeyMap.ext_get? fun x => ?_
    rw [KeyMap.get?_ofList_map (fun _ => ()), KeyMap.get?_ofList_map (fun _ => ())]
    simp only [h]
  rw [distinctTexts, hsame, distinctTexts]

/-! ## Rules of one type -/

/-- The rules of a list for a type. -/
def rulesFor (dbType : String) (rules : List MicroserviceRule) : List MicroserviceRule := rules.filter (·.dbType = dbType)

theorem mem_rulesFor_iff {dbType : String} {rules : List MicroserviceRule} {rule : MicroserviceRule} :
    rule ∈ rulesFor dbType rules ↔ rule ∈ rules ∧ rule.dbType = dbType := by
  rw [rulesFor, List.mem_filter, decide_eq_true_iff]

namespace RoutingView

variable {v : RoutingView} {rules rules' : List MicroserviceRule}

/-- Rules are valid wherever in the list they stand. -/
theorem ValidRules.perm (h : v.ValidRules rules) (hperm : rules'.Perm rules) : v.ValidRules rules' where
  given := fun hnil => h.given (by simpa [hnil] using hperm)
  each := fun rule hrule => h.each rule (hperm.mem_iff.mp hrule)
  orders := (hperm.map _).nodup_iff.mpr h.orders

/-- No two valid rules of one type have one order. -/
theorem ValidRules.nodup_orders (h : v.ValidRules rules) (dbType : String) : ((rulesFor dbType rules).map (·.order)).Nodup := by
  have hpairs : ((rulesFor dbType rules).map fun rule => (rule.dbType, rule.order)).Nodup :=
    h.orders.sublist (List.filter_sublist.map _)
  rw [List.nodup_iff_pairwise_ne, List.pairwise_map] at hpairs ⊢
  refine hpairs.imp_of_mem fun {a b} ha hb hne horder => hne ?_
  rw [(mem_rulesFor_iff.mp ha).2, (mem_rulesFor_iff.mp hb).2, horder]

end RoutingView

namespace Store

/-! ## Sets of rules -/

/-- A set that holds the rules of a list for its type, each as often as it was given, and by order. -/
structure RuleSetOf (now : UInt64) (ns : String) (rules : List MicroserviceRule) (set : MicroserviceRuleSet) : Prop where
  ns : set.ns = ns
  updatedAt : set.updatedAt = now
  filled : set.rules ≠ []
  ascending : set.rules.Pairwise fun a b => a.order < b.order
  submitted : set.rules.Perm (rulesFor set.dbType rules)

variable {s s' : Store} {now : UInt64} {ns : String} {rules rules' : List MicroserviceRule} {sets : List MicroserviceRuleSet}

/-- Valid rules make the same sets wherever in the list they stand. -/
theorem ruleSets_perm {v : RoutingView} (hvalid : v.ValidRules rules) (hperm : rules'.Perm rules) :
    ruleSets ns now rules' = ruleSets ns now rules := by
  have htypes : distinctTexts (rules'.map (·.dbType)) = distinctTexts (rules.map (·.dbType)) :=
    distinctTexts_congr fun _ => (hperm.map _).mem_iff
  rw [ruleSets_eq_map, ruleSets_eq_map, htypes]
  refine List.map_congr_left fun dbType _ => ?_
  have hsorted : (rulesFor dbType rules').mergeSort byOrder = (rulesFor dbType rules).mergeSort byOrder :=
    mergeSort_eq_of_perm (hperm.filter _) (hvalid.nodup_orders dbType)
  exact congrArg (MicroserviceRuleSet.mk ns dbType · now) hsorted

/-- The set for a type that valid rules mention holds the rules of the type. -/
theorem ruleSetOf_ofRules {v : RoutingView} (hvalid : v.ValidRules rules) {rule : MicroserviceRule} (hrule : rule ∈ rules) :
    RuleSetOf now ns rules (.ofRules ns now rules rule.dbType) where
  ns := rfl
  updatedAt := rfl
  filled := List.ne_nil_of_mem (List.mem_mergeSort.mpr (mem_rulesFor_iff.mpr ⟨hrule, rfl⟩))
  ascending := mergeSort_strict (hvalid.nodup_orders rule.dbType)
  submitted := List.mergeSort_perm _ _

/-- Sets of rules for types of a namespace leave the sets of every other pair alone, whatever names it is made of. -/
theorem ruleSet?_foldl_putRuleSet_of_ne (hns : SlashFree ns) {sets : List MicroserviceRuleSet}
    (hsets : ∀ set ∈ sets, set.ns = ns ∧ SlashFree set.dbType) {ns' dbType : String}
    (hother : ns' = ns → ∀ set ∈ sets, set.dbType ≠ dbType) (s : Store) :
    (sets.foldl putRuleSet s).ruleSet? ns' dbType = s.ruleSet? ns' dbType := by
  induction sets generalizing s with
  | nil => rfl
  | cons set rest ih =>
    -- names without a slash make a key of their own, whatever the other pair is made of
    obtain ⟨⟨hset, hplain⟩, hrest⟩ := List.forall_mem_cons.mp hsets
    have hkey : set.key ≠ pairKey ns' dbType := by
      rw [MicroserviceRuleSet.key, hset]
      intro hkey
      obtain ⟨hns', htype⟩ := (pairKey_inj hns hplain).mp hkey
      exact hother hns'.symm set List.mem_cons_self htype
    rw [List.foldl_cons, ih hrest fun h set' hset' => hother h set' (List.mem_cons_of_mem _ hset')]
    simp only [ruleSet?, putRuleSet, KeyMap.get?_insert_of_ne _ _ hkey]

/-! ## Lists of rules -/

/-- A list of rules is accepted or refused however the rules are ordered, and leaves the same sets and the same store. -/
theorem setMicroserviceRules_perm (hperm : rules'.Perm rules) {out : List MicroserviceRuleSet × Store} :
    s.setMicroserviceRules now ns rules' = .ok out ↔ s.setMicroserviceRules now ns rules = .ok out := by
  have htypes : (∀ rule ∈ rules', PlainName rule.dbType) ↔ ∀ rule ∈ rules, PlainName rule.dbType := by
    simp only [hperm.mem_iff]
  have hvalid : s.view.ValidRules rules' ↔ s.view.ValidRules rules := ⟨fun h => h.perm hperm.symm, fun h => h.perm hperm⟩
  simp only [setMicroserviceRules_eq_ok_iff, htypes, hvalid]
  refine and_congr_right fun _ => and_congr_right fun _ => and_congr_right fun h => ?_
  rw [ruleSets_perm h hperm]

/-- A list of rules on microservices is submitted for a namespace.
1. However its rules are ordered, the list is accepted or refused alike, and what is accepted makes the same sets and the same store.

Of an accepted list
2. there is one set for each type that it mentions, by type;
3. each set is not empty, strictly ascending by order, and holds the rules of its type, none lost and none doubled;
4. the set is what is stored for its type in the namespace afterwards, in place of what was there;
5. for any other type, and in any other namespace, what is stored stays, and nothing is written but sets of rules. -/
theorem rules_stored_in_any_order (s : Store) (now : UInt64) (ns : String) (rules : List MicroserviceRule) :
    (∀ rules', rules'.Perm rules → ∀ out,
      s.setMicroserviceRules now ns rules' = .ok out ↔ s.setMicroserviceRules now ns rules = .ok out) ∧
    ∀ sets s', s.setMicroserviceRules now ns rules = .ok (sets, s') →
      ((sets.map (·.dbType)).Pairwise (· < ·) ∧ ∀ dbType, dbType ∈ sets.map (·.dbType) ↔ ∃ rule ∈ rules, rule.dbType = dbType) ∧
      (∀ set ∈ sets, RuleSetOf now ns rules set) ∧
      (∀ set ∈ sets, s'.ruleSet? ns set.dbType = some set) ∧
      (∀ ns' dbType, (ns' = ns → ∀ rule ∈ rules, rule.dbType ≠ dbType) → s'.ruleSet? ns' dbType = s.ruleSet? ns' dbType) ∧
      s' = { s with microserviceRules := s'.microserviceRules } := by
  refine ⟨fun rules' hperm out => setMicroserviceRules_perm hperm, fun sets s' hok => ?_⟩
  obtain ⟨hns, hplain, hvalid, hout⟩ := setMicroserviceRules_eq_ok_iff.mp hok
  obtain ⟨rfl, rfl⟩ := Prod.mk.inj hout
  have hmentioned : ∀ dbType, dbType ∈ distinctTexts (rules.map (·.dbType)) ↔ ∃ rule ∈ rules, rule.dbType = dbType := by
    simp only [mem_distinctTexts_iff, List.mem_map, implies_true]
  have hdbTypes : (ruleSets ns now rules).map (·.dbType) = distinctTexts (rules.map (·.dbType)) := by
    rw [ruleSets_eq_map, List.map_map]
    exact List.map_id _
  refine ⟨⟨hdbTypes ▸ distinctTexts_ascending _, hdbTypes ▸ hmentioned⟩, fun set hset => ?_, fun set hset => ?_,
    fun ns' dbType hother => ?_, ?_⟩
  · obtain ⟨rule, hrule, rfl⟩ := mem_ruleSets_iff.mp hset
    exact ruleSetOf_ofRules hvalid hrule
  · obtain ⟨rule, hrule, rfl⟩ := mem_ruleSets_iff.mp hset
    rw [ruleSets_eq_map, ruleSet?_foldl_putRuleSet fun _ => rfl]
    exact if_pos ((hmentioned _).mpr ⟨rule, hrule, rfl⟩)
  · refine ruleSet?_foldl_putRuleSet_of_ne hns.slashFree (fun set hset => ?_) (fun hsame set hset => ?_) s
    · obtain ⟨rule, hrule, rfl⟩ := mem_ruleSets_iff.mp hset
      exact ⟨rfl, (hplain rule hrule).slashFree⟩
    · obtain ⟨rule, hrule, rfl⟩ := mem_ruleSets_iff.mp hset
      exact hother hsame rule hrule
  · rw [foldl_putRuleSet]

/-- The rules of the sample are accepted from the last to the first too, and stored as they were: the set of four rules that was there
is gone. -/
theorem rules_stored_in_any_order_of_sampleRules :
    ∃ sets s', sampleRules.setMicroserviceRules 9 "shop" sampleQuestion.rules.reverse = .ok (sets, s') ∧
      ∃ set, s'.ruleSet? "shop" "postgresql" = some set ∧ set.rules = sampleQuestion.rules := by
  obtain ⟨hany, hstored⟩ := rules_stored_in_any_order sampleRules 9 "shop" sampleQuestion.rules
  have hok : sampleRules.setMicroserviceRules 9 "shop" sampleQuestion.rules =
      .ok (ruleSets "shop" 9 sampleQuestion.rules, (ruleSets "shop" 9 sampleQuestion.rules).foldl putRuleSet sampleRules) :=
    setMicroserviceRules_eq_ok_iff.mpr
      ⟨by decide +kernel, by decide +kernel, RoutingView.problems_eq_nil_iff.mp problems_sampleQuestion, rfl⟩
  obtain ⟨⟨-, htypes⟩, hsets, hfound, -⟩ := hstored _ _ hok
  obtain ⟨set, hset, htype⟩ := List.mem_map.mp ((htypes "postgresql").mpr ⟨_, List.mem_cons_self, rfl⟩)
  have hsubmitted : set.rules.Perm sampleQuestion.rules := by
    have hfor : rulesFor "postgresql" sampleQuestion.rules = sampleQuestion.rules := rfl
    rw [← hfor, ← htype]
    exact (hsets set hset).submitted
  refine ⟨_, _, (hany _ (List.reverse_perm _) _).mpr hok, set, htype ▸ hfound set hset, ?_⟩
  refine hsubmitted.eq_of_pairwise (fun a b _ _ hab hba => ?_) (hsets set hset).ascending (by decide +kernel)
  exact absurd hba (UInt32.lt_asymm hab)

end Store

end DatabaseBroker
