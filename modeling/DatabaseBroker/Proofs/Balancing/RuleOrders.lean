import DatabaseBroker.Proofs.Balancing.RuleBook

/-!
# Orders of the rules of a namespace

A rule of a namespace may be written again under its own name with another type, order and target, and rules go with the physical
databases that they lead to. Whatever happens, no two rules of a namespace have one type and order (`RuleBook.OrdersDistinct`): only an
accepted write adds a rule, and it looks at every rule of the namespace first. So the rules of a namespace for a type stand in one
order, however ties would be broken, and a write is refused exactly where another rule is in its way (`namespace_orders_distinct`).
-/

namespace DatabaseBroker

/-! ## What operations keep -/

namespace RuleBook

variable {book book' : RuleBook}

/-- No two rules of a namespace have one type and order. -/
def OrdersDistinct (book : RuleBook) : Prop :=
  ∀ ns name name' rule rule', book.namespaceRules (ns, name) = some rule → book.namespaceRules (ns, name') = some rule' →
    rule.dbType = rule'.dbType → rule.order = rule'.order → name = name'

theorem ordersDistinct_empty : RuleBook.empty.OrdersDistinct := fun _ _ _ _ _ h => nomatch h

/-- Rules that go leave the others distinct. -/
theorem OrdersDistinct.of_kept (h : book.OrdersDistinct)
    (hkept : ∀ p rule, book'.namespaceRules p = some rule → book.namespaceRules p = some rule) : book'.OrdersDistinct :=
  fun ns name name' rule rule' hrule hrule' => h ns name name' rule rule' (hkept _ _ hrule) (hkept _ _ hrule')

/-- A rule that is written stays distinct from the others when none of them has its type and order. -/
theorem OrdersDistinct.update (h : book.OrdersDistinct) {ns name : String} {rule : NamespaceRule}
    (hfree : ∀ other o, book.namespaceRules (ns, other) = some o → o.dbType = rule.dbType → o.order = rule.order → other = name) :
    OrdersDistinct { book with namespaceRules := Function.update book.namespaceRules (ns, name) (some rule) } := by
  intro ns' first second a b ha hb htype horder
  simp only [Function.update_apply, Prod.mk.injEq] at ha hb
  split at ha
  · rename_i hfirst
    obtain ⟨rfl, rfl⟩ := hfirst
    cases ha
    split at hb
    · rename_i hsecond
      exact hsecond.2.symm
    · exact (hfree second b hb htype.symm horder.symm).symm
  · split at hb
    · rename_i hsecond
      obtain ⟨rfl, rfl⟩ := hsecond
      cases hb
      exact hfree first a ha htype horder
    · exact h ns' first second a b ha hb htype horder

/-- An operation other than a write of a rule adds none. -/
theorem namespaceRules_of_apply {now : UInt64} {op : Operation} (hop : ∀ ns name r, op ≠ .putNamespaceRule ns name r)
    {p : String × String} {rule : NamespaceRule} (h : (book.apply now op).namespaceRules p = some rule) :
    book.namespaceRules p = some rule := by
  cases op with
  | putNamespaceRule ns name r => exact absurd rfl (hop ns name r)
  | deleteNamespaceRule ns name =>
    simp only [apply, Function.update_apply] at h
    split at h
    · cases h
    · exact h
  | deregister id => exact (Option.filter_eq_some_iff.mp h).1
  | _ => exact h

end RuleBook

namespace Store

variable {s s' : Store} {book : RuleBook} {now : UInt64} {ns name : String} {r : NamespaceRuleRequest}

/-- A rule of another name that has the type and the order of a rule to be written. -/
structure InTheWay (s : Store) (ns name : String) (r : NamespaceRuleRequest) (other : NamespaceRule) : Prop where
  stored : s.namespaceRule? ns other.name = some other
  name : other.name ≠ name
  dbType : other.dbType = r.dbType
  order : other.order = r.order

namespace Keeps

/-- What a write of a rule looks for among the rules of the namespace. -/
theorem mem_inTheWay_iff (h : s.Keeps book) {other : NamespaceRule} :
    (other ∈ s.namespaceRulesOf ns ∧ (other.name ≠ name && other.dbType = r.dbType && other.order = r.order) = true) ↔
      s.InTheWay ns name r other := by
  have hstored : s.namespaceRule? ns other.name = some other ↔ other ∈ s.namespaceRulesOf ns := by
    rw [namespaceRule?, h.namespaceRules.get? (ns, other.name), (h.namespaceRulesOf ns).mem]
    exact and_iff_left rfl
  simp only [← hstored, Bool.and_eq_true, decide_eq_true_eq]
  exact ⟨fun ⟨hstored, ⟨hname, htype⟩, horder⟩ => ⟨hstored, hname, htype, horder⟩,
    fun h => ⟨h.stored, ⟨h.name, h.dbType⟩, h.order⟩⟩

/-- A write that is accepted found no rule in its way. -/
theorem not_inTheWay_of_setNamespaceRule (h : s.Keeps book) {out : NamespaceRule × RuleWrite}
    (hok : s.setNamespaceRule now ns name r = .ok (out, s')) (other : NamespaceRule) : ¬s.InTheWay ns name r other := by
  simp only [Store.setNamespaceRule, bind_eq_ok] at hok
  obtain ⟨_, -, _, -, _, -, _, -, hok⟩ := hok
  split at hok
  · cases hok
  · rename_i hnone
    intro hother
    obtain ⟨hlisted, hsame⟩ := h.mem_inTheWay_iff.mpr hother
    exact List.find?_eq_none.mp hnone other hlisted hsame

/-- Each operation keeps the orders distinct. -/
theorem ordersDistinct_apply {b : Broker} (h : b.store.Keeps book) (hdistinct : book.OrdersDistinct) {op : Operation}
    (haccepted : b.accepts now op = true) : (book.apply now op).OrdersDistinct := by
  by_cases hput : ∃ ns name r, op = .putNamespaceRule ns name r
  · obtain ⟨ns, name, r, rfl⟩ := hput
    cases hok : b.store.setNamespaceRule now ns name r with
    | error reason => simp [Broker.accepts, hok, Except.isOk, Except.toBool] at haccepted
    | ok accepted =>
      obtain ⟨out, s'⟩ := accepted
      refine hdistinct.update fun other o ho htype horder => ?_
      have hname : o.name = other := congrArg Prod.snd (h.namespaceRules.pair_eq ho)
      by_contra hne
      refine h.not_inTheWay_of_setNamespaceRule hok o ⟨?_, hname.trans_ne hne, htype, horder⟩
      rw [hname]
      exact (h.namespaceRules.get? (ns, other)).trans ho
  · refine hdistinct.of_kept fun p rule => RuleBook.namespaceRules_of_apply fun ns name r hop => hput ⟨ns, name, r, hop⟩

end Keeps

/-- After every history the orders are distinct. -/
theorem ordersDistinct_replay (env : Surroundings) (events : List Event) :
    ∃ book, (replay env events).store.Keeps book ∧ book.OrdersDistinct := by
  refine replay_invariant (P := fun b => ∃ book, b.store.Keeps book ∧ book.OrdersDistinct)
    ⟨_, Keeps.empty, RuleBook.ordersDistinct_empty⟩ fun e _ b hb => ?_
  obtain ⟨book, h, hdistinct⟩ := hb
  refine ⟨_, h.run env e.time e.operation, ?_⟩
  split
  · rename_i haccepted
    exact h.ordersDistinct_apply hdistinct haccepted
  · exact hdistinct

/-! ## Writes of a rule -/

/-- What a write comes to when its names are plain and its target is registered. -/
theorem setNamespaceRule_eq (hns : PlainName ns) (hname : PlainName name) (htype : PlainName r.dbType)
    (htarget : (s.registered? r.dbType r.physicalDatabaseId).isSome = true) :
    s.setNamespaceRule now ns name r =
      match (s.namespaceRulesOf ns).find? fun o => o.name ≠ name && o.dbType = r.dbType && o.order = r.order with
      | some other => .error (.orderTaken other.name r.order r.dbType)
      | none => .ok ((⟨name, ns, r.dbType, r.order, r.physicalDatabaseId, now⟩,
          if (s.namespaceRulesOf ns).any (·.name = name) then .updated else .created),
          s.putNamespaceRule ⟨name, ns, r.dbType, r.order, r.physicalDatabaseId, now⟩) := by
  rw [setNamespaceRule, checkName_eq_ok_iff (u := ()).mpr hns, checkName_eq_ok_iff (u := ()).mpr hname,
    checkName_eq_ok_iff (u := ()).mpr htype, checkTarget_eq_ok_iff (u := ()).mpr htarget]
  rfl

namespace Keeps

/-- A write is refused where a rule is in its way, and for no other reason when its names are plain and its target is registered. -/
theorem setNamespaceRule_eq_error_iff (h : s.Keeps book) (hdistinct : book.OrdersDistinct) (hns : PlainName ns)
    (hname : PlainName name) (htype : PlainName r.dbType)
    (htarget : (s.registered? r.dbType r.physicalDatabaseId).isSome = true) (reason : RoutingError) :
    s.setNamespaceRule now ns name r = .error reason ↔
      ∃ other, s.InTheWay ns name r other ∧ reason = .orderTaken other.name r.order r.dbType := by
  rw [setNamespaceRule_eq hns hname htype htarget]
  split
  · rename_i found hfound
    have hsame := List.find?_some hfound
    have hother : s.InTheWay ns name r found := h.mem_inTheWay_iff.mp ⟨List.mem_of_find?_eq_some hfound, hsame⟩
    constructor
    · intro herror
      cases herror
      exact ⟨found, hother, rfl⟩
    · rintro ⟨other, hother', rfl⟩
      have hstored : ∀ o, s.InTheWay ns name r o → book.namespaceRules (ns, o.name) = some o := fun o ho =>
        (h.namespaceRules.get? (ns, o.name)).symm.trans ho.stored
      rw [hdistinct ns found.name other.name found other (hstored found hother) (hstored other hother')
        (hother.dbType.trans hother'.dbType.symm) (hother.order.trans hother'.order.symm)]
  · rename_i hnone
    refine ⟨nofun, ?_⟩
    rintro ⟨other, hother, -⟩
    obtain ⟨hlisted, hsame⟩ := h.mem_inTheWay_iff.mpr hother
    exact absurd hsame (List.find?_eq_none.mp hnone other hlisted)

/-- A write with no rule in its way answers whether the name was there, and writes its rule only. -/
theorem setNamespaceRule_of_free (h : s.Keeps book) (now : UInt64) (hns : PlainName ns) (hname : PlainName name) (htype : PlainName r.dbType)
    (htarget : (s.registered? r.dbType r.physicalDatabaseId).isSome = true) (hfree : ∀ other, ¬s.InTheWay ns name r other) :
    let rule : NamespaceRule := ⟨name, ns, r.dbType, r.order, r.physicalDatabaseId, now⟩
    let write := if (s.namespaceRule? ns name).isSome then RuleWrite.updated else .created
    s.setNamespaceRule now ns name r = .ok ((rule, write), s.putNamespaceRule rule) ∧
      ∀ ns' name', (s.putNamespaceRule rule).namespaceRule? ns' name' =
        if ns' = ns ∧ name' = name then some rule else s.namespaceRule? ns' name' := by
  intro rule write
  constructor
  · have hnone : ((s.namespaceRulesOf ns).find? fun o => o.name ≠ name && o.dbType = r.dbType && o.order = r.order) = none :=
      List.find?_eq_none.mpr fun o ho hsame => hfree o (h.mem_inTheWay_iff.mp ⟨ho, hsame⟩)
    have hany : (s.namespaceRulesOf ns).any (·.name = name) = (s.namespaceRule? ns name).isSome := by
      rw [namespaceRule?, h.namespaceRules.get? (ns, name), Bool.eq_iff_iff, List.any_eq_true, Option.isSome_iff_exists]
      simp only [(h.namespaceRulesOf ns).mem, decide_eq_true_eq]
    rw [setNamespaceRule_eq hns hname htype htarget, hnone]
    simp only [hany]
    rfl
  · intro ns' name'
    have hwritten := (h.namespaceRules.insert (a := rule) hns.slashFree hname.slashFree).get? (ns', name')
    rw [Function.update_apply, ← h.namespaceRules.get? (ns', name')] at hwritten
    simp only [rule, NamespaceRule.pair, Prod.mk.injEq] at hwritten
    exact hwritten

/-- Of the rules of a namespace for a type, each has an order of its own. -/
theorem eq_of_order_eq (h : s.Keeps book) (hdistinct : book.OrdersDistinct) {rule rule' : NamespaceRule}
    (hrule : rule ∈ s.namespaceRulesOf ns) (hrule' : rule' ∈ s.namespaceRulesOf ns) (htype : rule.dbType = rule'.dbType)
    (horder : rule.order = rule'.order) : rule = rule' := by
  have hstored := ((h.namespaceRulesOf ns).mem rule.name rule).mpr ⟨hrule, rfl⟩
  have hstored' := ((h.namespaceRulesOf ns).mem rule'.name rule').mpr ⟨hrule', rfl⟩
  have hname := hdistinct ns rule.name rule'.name rule rule' hstored hstored' htype horder
  rw [hname, hstored', Option.some.injEq] at hstored
  exact hstored.symm

end Keeps

end Store

/-! ## The order of the rules -/

/-- The rules of a namespace for a type by order, and those of one order in any way. -/
def RoutingView.orderedBy (v : RoutingView) (tie : NamespaceRule → NamespaceRule → Bool) (ns dbType : String) :
    List NamespaceRule :=
  (v.namespaceRules ns dbType).mergeSort fun a b => decide (a.order < b.order ∨ (a.order = b.order ∧ tie a b = true))

/-- Orders that agree on the members of a list sort it alike. -/
theorem mergeSort_congr {α : Type} {l : List α} {le le' : α → α → Bool} (h : ∀ a ∈ l, ∀ b ∈ l, le a b = le' a b) :
    l.mergeSort le = l.mergeSort le' := by
  simpa using List.map_mergeSort (f := id) h

/-- Resolution breaks ties by name. -/
theorem RoutingView.orderedRules_eq (v : RoutingView) (ns dbType : String) :
    v.orderedRules ns dbType = v.orderedBy (fun a b => decide (a.name ≤ b.name)) ns dbType := by
  simp only [orderedBy, orderedRules, decide_eq_true_eq]

/-- Where orders are distinct, every way to break ties sorts the rules by order alone. -/
theorem RoutingView.orderedBy_eq {s : Store} {book : RuleBook} (h : s.Keeps book) (hdistinct : book.OrdersDistinct)
    {tie : NamespaceRule → NamespaceRule → Bool} (htie : ∀ rule, tie rule rule = true) (ns dbType : String) :
    s.view.orderedBy tie ns dbType = (s.view.namespaceRules ns dbType).mergeSort fun a b => decide (a.order ≤ b.order) := by
  have hsame : ∀ a ∈ s.view.namespaceRules ns dbType, ∀ b ∈ s.view.namespaceRules ns dbType,
      decide (a.order < b.order ∨ (a.order = b.order ∧ tie a b = true)) = decide (a.order ≤ b.order) := by
    intro a ha b hb
    obtain ⟨ha, htype⟩ := List.mem_filter.mp ha
    obtain ⟨hb, htype'⟩ := List.mem_filter.mp hb
    rw [decide_eq_true_eq] at htype htype'
    have hequal : a.order = b.order → tie a b = true := fun horder => by
      rw [h.eq_of_order_eq hdistinct ha hb (htype.trans htype'.symm) horder]
      exact htie b
    rw [decide_eq_decide, UInt32.le_iff_lt_or_eq]
    exact ⟨fun hle => hle.imp id And.left, fun hle => hle.imp id fun heq => ⟨heq, hequal heq⟩⟩
  exact mergeSort_congr hsame

/-- Where orders are distinct, the rules stand in strictly ascending order. -/
theorem RoutingView.orderedRules_ascending {s : Store} {book : RuleBook} (h : s.Keeps book) (hdistinct : book.OrdersDistinct)
    (ns dbType : String) : (s.view.orderedRules ns dbType).Pairwise fun a b => a.order < b.order := by
  rw [orderedRules_eq, orderedBy_eq h hdistinct (by simp)]
  have hnodup : (s.view.namespaceRules ns dbType).Nodup := (h.namespaceRulesOf ns).nodup.of_map.filter _
  refine mergeSort_strict (hnodup.map_on fun a ha b hb horder => ?_)
  obtain ⟨ha, htype⟩ := List.mem_filter.mp ha
  obtain ⟨hb, htype'⟩ := List.mem_filter.mp hb
  rw [decide_eq_true_eq] at htype htype'
  exact h.eq_of_order_eq hdistinct ha hb (htype.trans htype'.symm) horder

open Store

/-- The orders of the rules of a namespace, after every history:
1. no two rules of the namespace have one type and order;
2. so the rules for a type stand in strictly ascending order, and breaking ties in another way than by name changes nothing;
3. a write of a rule with plain names and a registered target is refused exactly where a rule of another name has its type and order,
with a conflict that names this rule, and then nothing changes; otherwise it answers whether a rule of the name was there, and changes
this rule only. -/
theorem namespace_orders_distinct (env : Surroundings) (events : List Event) (ns : String) :
    let b := replay env events
    (∀ rule ∈ b.store.namespaceRulesOf ns, ∀ rule' ∈ b.store.namespaceRulesOf ns,
        rule.dbType = rule'.dbType → rule.order = rule'.order → rule = rule') ∧
      (∀ dbType, (b.store.view.orderedRules ns dbType).Pairwise (fun rule rule' => rule.order < rule'.order) ∧
        ∀ tie : NamespaceRule → NamespaceRule → Bool, (∀ rule, tie rule rule = true) →
          b.store.view.orderedBy tie ns dbType = b.store.view.orderedRules ns dbType) ∧
      ∀ (now : UInt64) (name : String) (r : NamespaceRuleRequest), PlainName ns → PlainName name → PlainName r.dbType →
        (b.store.registered? r.dbType r.physicalDatabaseId).isSome = true →
        let answer := b.store.setNamespaceRule now ns name r
        let b' := b.run env now (.putNamespaceRule ns name r)
        let rule : NamespaceRule := ⟨name, ns, r.dbType, r.order, r.physicalDatabaseId, now⟩
        (∀ reason, answer = .error reason ↔
          ∃ other, b.store.InTheWay ns name r other ∧ reason = .orderTaken other.name r.order r.dbType) ∧
        (∀ reason, answer = .error reason → b' = b) ∧
        ((∀ other, ¬b.store.InTheWay ns name r other) → ∃ s',
          answer = .ok ((rule, if (b.store.namespaceRule? ns name).isSome then .updated else .created), s') ∧
          b' = b.withStore s' ∧ s' = { b.store with namespaceRules := s'.namespaceRules } ∧
          ∀ ns' name', s'.namespaceRule? ns' name' =
            if ns' = ns ∧ name' = name then some rule else b.store.namespaceRule? ns' name') := by
  intro b
  obtain ⟨book, h, hdistinct⟩ := ordersDistinct_replay env events
  refine ⟨fun rule hrule rule' hrule' => h.eq_of_order_eq hdistinct hrule hrule', fun dbType =>
    ⟨RoutingView.orderedRules_ascending h hdistinct ns dbType, fun tie htie => ?_⟩,
    fun now name r hns hname htype htarget => ?_⟩
  · rw [RoutingView.orderedRules_eq, RoutingView.orderedBy_eq h hdistinct htie, RoutingView.orderedBy_eq h hdistinct (by simp)]
  · intro answer b' rule
    refine ⟨h.setNamespaceRule_eq_error_iff hdistinct hns hname htype htarget, fun reason herror => congrArg b.keep herror,
      fun hfree => ?_⟩
    obtain ⟨hok, hread⟩ := h.setNamespaceRule_of_free now hns hname htype htarget hfree
    exact ⟨_, hok, congrArg b.keep hok, rfl, hread⟩

/-- In the sample the order of the rule of `team` is refused to another name, and the rule itself may take another order. -/
theorem namespace_orders_distinct_of_sampleWrites :
    let s := (replay (.numbered 1) sampleWrites).store
    PlainName "team" ∧ PlainName "main" ∧ PlainName "extra" ∧ PlainName "postgresql" ∧
      (s.registered? "postgresql" "pg").isSome = true ∧
      s.setNamespaceRule 9 "team" "extra" ⟨"postgresql", 1, "pg"⟩ = .error (.orderTaken "main" 1 "postgresql") ∧
      ∃ s', s.setNamespaceRule 9 "team" "main" ⟨"postgresql", 2, "pg"⟩ =
        .ok ((⟨"main", "team", "postgresql", 2, "pg", 9⟩, .updated), s') := by
  intro s
  have hteam : PlainName "team" := by decide +kernel
  have hmain : PlainName "main" := by decide +kernel
  have hextra : PlainName "extra" := by decide +kernel
  have htype : PlainName "postgresql" := by decide +kernel
  have htarget : (s.registered? "postgresql" "pg").isSome = true := by decide +kernel
  obtain ⟨-, -, hwrites⟩ := namespace_orders_distinct (.numbered 1) sampleWrites "team"
  refine ⟨hteam, hmain, hextra, htype, htarget, ?_, ?_⟩
  · have hother : s.InTheWay "team" "extra" ⟨"postgresql", 1, "pg"⟩ ⟨"main", "team", "postgresql", 1, "pg", 3⟩ :=
      ⟨by decide +kernel, by decide, rfl, rfl⟩
    exact ((hwrites 9 "extra" ⟨"postgresql", 1, "pg"⟩ hteam hextra htype htarget).1 _).mpr ⟨_, hother, rfl⟩
  · obtain ⟨hrefused, -, haccepted⟩ := hwrites 9 "main" ⟨"postgresql", 2, "pg"⟩ hteam hmain htype htarget
    have hok : (s.setNamespaceRule 9 "team" "main" ⟨"postgresql", 2, "pg"⟩).isOk = true := by decide +kernel
    obtain ⟨s', hs', -⟩ := haccepted fun other hother => by
      have herror := (hrefused _).mpr ⟨other, hother, rfl⟩
      rw [herror] at hok
      cases hok
    have hthere : (s.namespaceRule? "team" "main").isSome = true := by decide +kernel
    rw [hthere] at hs'
    exact ⟨s', hs'⟩

end DatabaseBroker
