import DatabaseBroker.Balancing.Resolution
import DatabaseBroker.Proofs.Store.Scans

/-!
# Precedence of rules

Everything that may decide where a new database goes, in one list: each applying rule on microservices by order and stored
position, the permanent entry, the rules of the namespace by order and name, the global physical database. What names no
registered physical database of the type is not in the list. The list is read off the tables, each record under its composite
key, and not through the view that resolution looks at. Resolution answers with the first decision of the list
(`resolution_by_precedence`).
-/

namespace DatabaseBroker

namespace Store

/-! ## Precedence -/

/-- Physical databases and rules of namespaces stand under their own keys. -/
structure RoutingTabled (s : Store) : Prop where
  physical_id : ∀ id p, s.physical? id = some p → p.id = id
  rule_key : ∀ key rule, s.namespaceRules.get? key = some rule → rule.key = key

/-- Whether records stand under their own keys can be read off the tables. -/
theorem routingTabled_iff {s : Store} : s.RoutingTabled ↔
    (∀ e ∈ s.physicals.entries, e.2.id = e.1) ∧ ∀ e ∈ s.namespaceRules.entries, e.2.key = e.1 := by
  constructor
  · intro h
    exact ⟨fun e he => h.physical_id e.1 e.2 (KeyMap.get?_eq_some_iff.mpr he),
      fun e he => h.rule_key e.1 e.2 (KeyMap.get?_eq_some_iff.mpr he)⟩
  · rintro ⟨hphysical, hrule⟩
    exact ⟨fun id p hp => hphysical (id, p) (KeyMap.get?_eq_some_iff.mp hp),
      fun key rule hr => hrule (key, rule) (KeyMap.get?_eq_some_iff.mp hr)⟩

instance (s : Store) : Decidable s.RoutingTabled := decidable_of_iff _ routingTabled_iff.symm

/-- The physical database of an id, when it is registered with the type. -/
def registered? (s : Store) (dbType id : String) : Option PhysicalDatabase :=
  (s.physicals.get? id).filter (·.dbType = dbType)

/-- The physical databases of a type among which one is wanted. -/
def candidates (s : Store) (dbType : String) (wanted : PhysicalDatabase → Bool) : List PhysicalDatabase :=
  s.physicals.values.filter fun p => p.dbType = dbType && wanted p

/-- The candidate whose id is below the ids of all others. -/
def lowest? (s : Store) (dbType : String) (wanted : PhysicalDatabase → Bool) : Option PhysicalDatabase :=
  (s.candidates dbType wanted).find? fun p => (s.candidates dbType wanted).all fun q => p.id ≤ q.id

/-- A rule with its stored position comes before another: by order, and of one order by position. -/
def comesBefore (a b : MicroserviceRule × Nat) : Bool :=
  decide (a.1.order < b.1.order ∨ (a.1.order = b.1.order ∧ a.2 ≤ b.2))

/-- The stored rules that are for a route, each with its position in the stored list. A rule that names no microservice is for
all of them. -/
def positionedRules (s : Store) (r : Route) : List (MicroserviceRule × Nat) :=
  (((s.microserviceRules.get? (pairKey r.ns r.dbType)).map (·.rules)).getD []).zipIdx.filter fun e =>
    decide (e.1.dbType = r.dbType ∧ (e.1.microservices = [] ∨ r.microservice ∈ e.1.microservices))

/-- The labels that the microservice of a route carries. -/
def carriedLabels (s : Store) (r : Route) : Labels :=
  ((s.microserviceLabels.get? (pairKey r.ns r.microservice)).map (·.labels)).getD .empty

/-- Whether labels carry a label: its value stands under its key. -/
def carry (labels : Labels) (label : Label) : Bool := decide (labels.get? label.key = some label.value)

/-- The target of a rule that applies by a label: the pinned physical database, or the lowest that carries the label. -/
def targetOf? (s : Store) (dbType : String) (rule : MicroserviceRule) (label : Label) : Option PhysicalDatabase :=
  match rule.physicalDatabaseId with
  | some pinned => s.registered? dbType pinned
  | none => s.lowest? dbType fun p => carry p.labels label

/-- The decisions of the rules on microservices, the first to be followed first. -/
def microserviceDecisions (s : Store) (r : Route) : List Decision :=
  ((s.positionedRules r).mergeSort comesBefore).filterMap fun (rule, _) =>
    (rule.labels.find? (carry (s.carriedLabels r))).bind fun label =>
      (s.targetOf? r.dbType rule label).map (·.chosenBy (.onMicroservice rule.order label))

/-- The decision of the permanent entry. -/
def permanentDecisions (s : Store) (r : Route) : List Decision :=
  ((s.permanentEntries.get? (pairKey r.ns r.dbType)).bind fun e =>
    (s.registered? r.dbType e.physicalDatabaseId).map (·.chosenBy (.permanent e.ns))).toList

/-- The decisions of the rules of the namespace, the first to be followed first. -/
def namespacedDecisions (s : Store) (r : Route) : List Decision :=
  ((s.namespaceRules.values.filter fun rule => rule.ns = r.ns && rule.dbType = r.dbType).mergeSort fun a b =>
      decide (a.order < b.order ∨ (a.order = b.order ∧ a.name ≤ b.name))).filterMap fun rule =>
    (s.registered? r.dbType rule.physicalDatabaseId).map (·.chosenBy (.namespaced rule.name rule.order))

/-- The decision for the global physical database of the type. -/
def globalDecisions (s : Store) (r : Route) : List Decision :=
  ((s.lowest? r.dbType (·.global)).map (·.chosenBy .global)).toList

/-- Every decision that may be made for a route, the first to be followed first. -/
def precedence (s : Store) (r : Route) : List Decision :=
  s.microserviceDecisions r ++ s.permanentDecisions r ++ s.namespacedDecisions r ++ s.globalDecisions r

/-! ## Physical databases of a type -/

variable {s : Store} {dbType : String} {wanted : PhysicalDatabase → Bool}

/-- What is registered with a type is registered. -/
theorem registered?_eq_some_iff {id : String} {p : PhysicalDatabase} :
    s.registered? dbType id = some p ↔ s.physical? id = some p ∧ p.dbType = dbType := by
  simp [registered?, physical?, Option.filter_eq_some_iff]

theorem mem_candidates_iff {p : PhysicalDatabase} :
    p ∈ s.candidates dbType wanted ↔ (∃ id, s.physical? id = some p) ∧ p.dbType = dbType ∧ wanted p = true := by
  simp only [candidates, List.mem_filter, KeyMap.mem_values_iff, physical?, Bool.and_eq_true, decide_eq_true_eq]

/-- The lowest candidate is one, and none is below it. -/
theorem lowest?_spec {p : PhysicalDatabase} (h : s.lowest? dbType wanted = some p) :
    p ∈ s.candidates dbType wanted ∧ ∀ q ∈ s.candidates dbType wanted, p.id ≤ q.id := by
  have hall := List.find?_some h
  simp only [List.all_eq_true, decide_eq_true_eq] at hall
  exact ⟨List.mem_of_find?_eq_some h, hall⟩

/-- In a listing by id, the first that is wanted is a candidate, and no candidate is below it. -/
theorem find?_physicalsOf_spec {p : PhysicalDatabase} (h : (s.physicalsOf dbType).find? wanted = some p) :
    p ∈ s.candidates dbType wanted ∧ ∀ q ∈ s.candidates dbType wanted, p.id ≤ q.id := by
  have hsorted : (s.physicalsOf dbType).Pairwise fun a b => decide (a.id ≤ b.id) = true :=
    List.pairwise_mergeSort (fun a b c hab hbc => by simpa using String.le_trans (by simpa using hab) (by simpa using hbc))
      (fun a b => by simpa using String.le_total a.id b.id) _
  obtain ⟨hwanted, before, after, hsplit, hbefore⟩ := List.find?_eq_some_iff_append.mp h
  have hmem : p ∈ s.physicalsOf dbType := List.mem_of_find?_eq_some h
  obtain ⟨hstored, htype⟩ := mem_physicalsOf_iff.mp hmem
  refine ⟨mem_candidates_iff.mpr ⟨hstored, htype, hwanted⟩, fun q hq => ?_⟩
  obtain ⟨hstoredq, htypeq, hwantedq⟩ := mem_candidates_iff.mp hq
  have hmemq : q ∈ before ++ p :: after := hsplit ▸ mem_physicalsOf_iff.mpr ⟨hstoredq, htypeq⟩
  rw [hsplit, List.pairwise_append, List.pairwise_cons] at hsorted
  rcases List.mem_append.mp hmemq with hq | hq
  · exact absurd (hbefore q hq) (by simp [hwantedq])
  · rcases List.mem_cons.mp hq with rfl | hq
    · exact String.le_refl q.id
    · simpa using hsorted.2.1.1 q hq

/-- A lowest candidate is found when there is a candidate. -/
theorem lowest?_isSome {q : PhysicalDatabase} (hq : q ∈ s.candidates dbType wanted) : (s.lowest? dbType wanted).isSome := by
  obtain ⟨hstored, htype, hwanted⟩ := mem_candidates_iff.mp hq
  have hfound : ((s.physicalsOf dbType).find? wanted).isSome :=
    List.find?_isSome.mpr ⟨q, mem_physicalsOf_iff.mpr ⟨hstored, htype⟩, hwanted⟩
  obtain ⟨p, hp⟩ := Option.isSome_iff_exists.mp hfound
  obtain ⟨hmem, hleast⟩ := find?_physicalsOf_spec hp
  exact List.find?_isSome.mpr ⟨p, hmem, by simpa using hleast⟩

namespace RoutingTabled

/-- The first that is wanted in a listing by id is the lowest candidate. -/
theorem find?_physicalsOf (h : s.RoutingTabled) : (s.physicalsOf dbType).find? wanted = s.lowest? dbType wanted := by
  cases hfind : (s.physicalsOf dbType).find? wanted with
  | none =>
    symm
    refine Option.eq_none_iff_forall_ne_some.mpr fun p hp => ?_
    obtain ⟨hstored, htype, hwanted⟩ := mem_candidates_iff.mp (lowest?_spec hp).1
    exact List.find?_eq_none.mp hfind p (mem_physicalsOf_iff.mpr ⟨hstored, htype⟩) hwanted
  | some p =>
    obtain ⟨hp, hleast⟩ := find?_physicalsOf_spec hfind
    obtain ⟨q, hq⟩ := Option.isSome_iff_exists.mp (lowest?_isSome hp)
    obtain ⟨hmem, hleastq⟩ := lowest?_spec hq
    have hid : p.id = q.id := String.le_antisymm (hleast q hmem) (hleastq p hp)
    obtain ⟨idp, hstoredp⟩ := (mem_candidates_iff.mp hp).1
    obtain ⟨idq, hstoredq⟩ := (mem_candidates_iff.mp hmem).1
    have hsame : idp = idq := by rw [← h.physical_id idp p hstoredp, ← h.physical_id idq q hstoredq, hid]
    rw [hq, ← hstoredp, ← hstoredq, hsame]

/-- The view finds a physical database of a type by its id. -/
theorem view_physical? (h : s.RoutingTabled) (dbType id : String) : s.view.physical? dbType id = s.registered? dbType id := by
  have hmem : ∀ p, p ∈ s.physicalsOf dbType ∧ p.id = id ↔ s.registered? dbType id = some p := by
    intro p
    rw [mem_physicalsOf_iff, registered?_eq_some_iff]
    constructor
    · rintro ⟨⟨⟨id', hp⟩, htype⟩, rfl⟩
      exact ⟨h.physical_id id' p hp ▸ hp, htype⟩
    · rintro ⟨hp, htype⟩
      exact ⟨⟨⟨id, hp⟩, htype⟩, h.physical_id id p hp⟩
  rw [RoutingView.physical?, Store.view]
  cases hfind : (s.physicalsOf dbType).find? (·.id = id) with
  | none =>
    symm
    refine Option.eq_none_iff_forall_ne_some.mpr fun p hp => ?_
    obtain ⟨hlisted, hid⟩ := (hmem p).mpr hp
    exact List.find?_eq_none.mp hfind p hlisted (by simpa using hid)
  | some p =>
    have hid := List.find?_some hfind
    exact ((hmem p).mp ⟨List.mem_of_find?_eq_some hfind, by simpa using hid⟩).symm

end RoutingTabled

/-! ## Rules in order -/

/-- In an ascending numbering, places and numbers agree in order. -/
theorem le_iff_of_mem_zipIdx {α : Type} {l : List (α × Nat)} (h : l.Pairwise fun a b => a.2 < b.2) {a b : (α × Nat) × Nat}
    (ha : a ∈ l.zipIdx) (hb : b ∈ l.zipIdx) : a.2 ≤ b.2 ↔ a.1.2 ≤ b.1.2 := by
  obtain ⟨hia, hia'⟩ := List.getElem?_eq_some_iff.mp (List.mem_zipIdx_iff_getElem?.mp ha)
  obtain ⟨hib, hib'⟩ := List.getElem?_eq_some_iff.mp (List.mem_zipIdx_iff_getElem?.mp hb)
  have hlater := List.pairwise_iff_getElem.mp h
  rw [← hia', ← hib']
  rcases Nat.lt_trichotomy a.2 b.2 with hlt | heq | hlt
  · have := hlater a.2 b.2 hia hib hlt
    omega
  · simp only [heq, Nat.le_refl]
  · have := hlater b.2 a.2 hib hia hlt
    omega

/-- A stable sort of an ascending numbering sorts what is alike by number. -/
theorem mergeSort_numbered {α : Type} (le : α → α → Bool) {l : List (α × Nat)} (h : l.Pairwise fun a b => a.2 < b.2) :
    (l.mergeSort (List.zipIdxLE le)).map (·.1) = (l.map (·.1)).mergeSort le := by
  have hsorted : l.mergeSort (List.zipIdxLE le) = l.mergeSort fun a b => le a.1 b.1 := by
    let byFirst (a b : α × Nat) : Bool := le a.1 b.1
    rw [← @List.mergeSort_zipIdx (α × Nat) byFirst l, List.map_mergeSort (s := List.zipIdxLE le), List.zipIdx_map_fst]
    intro a ha b hb
    simp only [byFirst, List.zipIdxLE, le_iff_of_mem_zipIdx h ha hb]
  rw [hsorted]
  exact List.map_mergeSort fun _ _ _ _ => rfl

/-- To come before is to have the lower order, or the same order and the lower position. -/
theorem comesBefore_eq : comesBefore = List.zipIdxLE fun a b => decide (a.order ≤ b.order) := by
  funext a b
  rw [Bool.eq_iff_iff]
  simp only [comesBefore, List.zipIdxLE, decide_eq_true_eq, UInt32.lt_iff_toNat_lt, UInt32.le_iff_toNat_le, ← UInt32.toNat_inj]
  grind

/-- A rule applies to the microservices that it names, and without any to all. -/
theorem appliesTo_eq (rule : MicroserviceRule) (microservice : String) :
    rule.appliesTo microservice = decide (rule.microservices = [] ∨ microservice ∈ rule.microservices) := by
  rw [Bool.eq_iff_iff, MicroserviceRule.appliesTo, Bool.or_eq_true, List.isEmpty_iff, List.contains_iff_mem, decide_eq_true_eq]

/-- A label selects the labels that carry it. -/
theorem selects_eq_carry (label : Label) (labels : Labels) : label.selects labels = carry labels label := by
  rw [Bool.eq_iff_iff, carry, Label.selects, beq_iff_eq, decide_eq_true_eq]

/-- The rules that a resolution follows are those for the route, by order and stored position. -/
theorem applyingRules_eq (s : Store) (r : Route) :
    s.view.applyingRules r = ((s.positionedRules r).mergeSort comesBefore).map (·.1) := by
  have hascending : (s.positionedRules r).Pairwise fun a b => a.2 < b.2 := by
    refine List.Pairwise.filter _ ?_
    rw [← List.pairwise_map (f := Prod.snd), List.zipIdx_map_snd]
    exact List.pairwise_lt_range'
  have hrules : (s.positionedRules r).map (·.1) = (s.view.microserviceRules r.ns r.dbType).filter fun rule =>
      rule.dbType = r.dbType && rule.appliesTo r.microservice := by
    conv_rhs => rw [← List.zipIdx_map_fst 0 (s.view.microserviceRules r.ns r.dbType), List.filter_map]
    simp only [positionedRules, Bool.decide_and, ← appliesTo_eq]
    rfl
  rw [comesBefore_eq, mergeSort_numbered _ hascending, hrules, RoutingView.applyingRules]

/-! ## Tier by tier -/

namespace RoutingTabled

variable (h : s.RoutingTabled) (r : Route)
include h

/-- A rule that applies by a label goes to the same target in the view. -/
theorem view_targetOf? (dbType : String) (rule : MicroserviceRule) (label : Label) :
    s.view.targetOf? dbType rule label = s.targetOf? dbType rule label := by
  rw [RoutingView.targetOf?, targetOf?]
  cases rule.physicalDatabaseId with
  | some pinned => exact h.view_physical? dbType pinned
  | none =>
    simp only [selects_eq_carry]
    exact h.find?_physicalsOf

theorem head?_microserviceDecisions : (s.microserviceDecisions r).head? = s.view.decideOnMicroservice? r := by
  rw [microserviceDecisions, List.head?_filterMap, RoutingView.decideOnMicroservice?, applyingRules_eq, List.findSome?_map]
  congr 1
  funext e
  simp only [Function.comp_apply, RoutingView.decideByRule?, MicroserviceRule.matchedLabel?, selects_eq_carry, h.view_targetOf?]
  rfl

theorem head?_permanentDecisions : (s.permanentDecisions r).head? = s.view.decidePermanent? r := by
  simp only [permanentDecisions, Option.head?_toList, RoutingView.decidePermanent?, h.view_physical?]
  rfl

theorem head?_namespacedDecisions : (s.namespacedDecisions r).head? = s.view.decideNamespaced? r := by
  have hrules : (s.namespaceRules.values.filter fun rule => rule.ns = r.ns && rule.dbType = r.dbType) =
      s.view.namespaceRules r.ns r.dbType := by
    simp only [Store.view, namespaceRulesOf_eq h.rule_key, List.filter_filter, Bool.and_comm]
  rw [namespacedDecisions, List.head?_filterMap, hrules]
  simp only [RoutingView.decideNamespaced?, RoutingView.orderedRules, h.view_physical?]

theorem head?_globalDecisions : (s.globalDecisions r).head? = s.view.decideGlobal? r := by
  rw [globalDecisions, Option.head?_toList, RoutingView.decideGlobal?, ← h.find?_physicalsOf]
  rfl

/-- Resolution answers with the head of the precedence list. -/
theorem resolve?_eq_head? : s.view.resolve? r = (s.precedence r).head? := by
  simp only [precedence, List.head?_append, h.head?_microserviceDecisions, h.head?_permanentDecisions,
    h.head?_namespacedDecisions, h.head?_globalDecisions, RoutingView.resolve?, Option.or_assoc, Option.orElse_eq_orElse,
    Option.orElse_eq_or]

end RoutingTabled

/-! ## Targets -/

/-- A decision is sound when it names a registered physical database of the type, with its labels. -/
def Sound (s : Store) (dbType : String) (d : Decision) : Prop :=
  ∃ p, s.physicals.get? d.physicalDatabaseId = some p ∧ p.dbType = dbType ∧ d.labels = p.labels

namespace RoutingTabled

variable (h : s.RoutingTabled)
include h

theorem sound_of_lowest? {p : PhysicalDatabase} {rule : AppliedRule} (hp : s.lowest? dbType wanted = some p) :
    s.Sound dbType (p.chosenBy rule) := by
  obtain ⟨⟨id, hstored⟩, htype, -⟩ := mem_candidates_iff.mp (lowest?_spec hp).1
  obtain rfl := h.physical_id id p hstored
  exact ⟨p, hstored, htype, rfl⟩

theorem sound_of_registered? {id : String} {p : PhysicalDatabase} {rule : AppliedRule} (hp : s.registered? dbType id = some p) :
    s.Sound dbType (p.chosenBy rule) := by
  obtain ⟨hstored, htype⟩ := registered?_eq_some_iff.mp hp
  obtain rfl := h.physical_id id p hstored
  exact ⟨p, hstored, htype, rfl⟩

/-- Every decision of the precedence list is sound. -/
theorem sound_of_mem_precedence {r : Route} {d : Decision} (hd : d ∈ s.precedence r) : s.Sound r.dbType d := by
  simp only [precedence, List.mem_append] at hd
  rcases hd with ((hd | hd) | hd) | hd
  · obtain ⟨⟨rule, _⟩, -, hrule⟩ := List.mem_filterMap.mp hd
    obtain ⟨label, -, htarget⟩ := Option.bind_eq_some_iff.mp hrule
    obtain ⟨p, hp, rfl⟩ := Option.map_eq_some_iff.mp htarget
    unfold targetOf? at hp
    split at hp
    · exact h.sound_of_registered? hp
    · exact h.sound_of_lowest? hp
  · obtain ⟨e, -, hentry⟩ := Option.bind_eq_some_iff.mp (Option.mem_toList.mp hd)
    obtain ⟨p, hp, rfl⟩ := Option.map_eq_some_iff.mp hentry
    exact h.sound_of_registered? hp
  · obtain ⟨rule, -, hrule⟩ := List.mem_filterMap.mp hd
    obtain ⟨p, hp, rfl⟩ := Option.map_eq_some_iff.mp hrule
    exact h.sound_of_registered? hp
  · obtain ⟨p, hp, rfl⟩ := Option.map_eq_some_iff.mp (Option.mem_toList.mp hd)
    exact h.sound_of_lowest? hp

end RoutingTabled

/-! ## Resolution -/

/-- Resolution follows precedence: where rules and physical databases stand under their own keys,
1. it answers with the first decision of the precedence list;
2. it answers nothing exactly when that list is empty;
3. what it answers is a registered physical database of the type, with its labels. -/
theorem resolution_by_precedence (h : s.RoutingTabled) (r : Route) :
    s.view.resolve? r = (s.precedence r).head? ∧
      (s.view.resolve? r = none ↔ s.precedence r = []) ∧
      ∀ d, s.view.resolve? r = some d → s.Sound r.dbType d := by
  have hhead := h.resolve?_eq_head? r
  refine ⟨hhead, ?_, fun d hd => ?_⟩
  · rw [hhead, List.head?_eq_none_iff]
  · rw [hhead] at hd
    exact h.sound_of_mem_precedence (List.mem_of_head? hd)

/-- Two clusters of a type, of which the second is global, and rules of each kind for the namespace `shop`: of the rules on
microservices, the first in order pins a cluster that is not registered, the next is for a label that `cart` does not carry. -/
def sampleRules : Store :=
  let cluster (id zone : String) (global : Bool) : PhysicalDatabase :=
    ⟨id, "postgresql", "http://" ++ id, none, ⟨"v1", [], .empty⟩, .run, KeyMap.empty.insert "zone" zone, global, none,
      0, 0⟩
  let rule (order : UInt32) (zone : String) (pinned : Option String) : MicroserviceRule :=
    ⟨"postgresql", order, [], [⟨"zone", zone⟩], pinned⟩
  Store.empty.putPhysical (cluster "pg-a" "a" false)
    |>.putPhysical (cluster "pg-b" "b" true)
    |>.putRuleSet ⟨"shop", "postgresql",
      [rule 0 "a" (some "pg-c"), rule 1 "b" none, rule 2 "a" none, rule 2 "a" (some "pg-b")], 0⟩
    |>.putLabels ⟨"shop", "cart", KeyMap.empty.insert "zone" "a", 0⟩
    |>.putPermanentEntry ⟨"shop", "postgresql", "pg-c"⟩
    |>.putNamespaceRule ⟨"first", "shop", "postgresql", 0, "pg-b", 0⟩

/-- The same with a permanent entry and a rule for the namespace `team`. -/
def sampleEntry : Store :=
  (sampleRules.putPermanentEntry ⟨"team", "postgresql", "pg-a"⟩).putNamespaceRule ⟨"first", "team", "postgresql", 0, "pg-b", 0⟩

/-- Of the two rules of one order that remain for `shop`, the one stored first decides; for `team` the permanent entry does. -/
theorem resolution_of_sampleRules :
    sampleRules.RoutingTabled ∧
      sampleRules.view.resolve? ⟨"shop", "cart", "postgresql"⟩ =
        some ⟨"pg-a", .onMicroservice 2 ⟨"zone", "a"⟩, KeyMap.empty.insert "zone" "a"⟩ ∧
      sampleEntry.RoutingTabled ∧
      sampleEntry.view.resolve? ⟨"team", "cart", "postgresql"⟩ =
        some ⟨"pg-a", .permanent "team", KeyMap.empty.insert "zone" "a"⟩ := by
  have htabled : sampleRules.RoutingTabled := by decide +kernel
  have hsorted : (sampleRules.positionedRules ⟨"shop", "cart", "postgresql"⟩).mergeSort comesBefore =
      sampleRules.positionedRules ⟨"shop", "cart", "postgresql"⟩ := List.mergeSort_of_pairwise (by decide +kernel)
  have htabled' : sampleEntry.RoutingTabled := by decide +kernel
  have hnone : sampleEntry.positionedRules ⟨"team", "cart", "postgresql"⟩ = [] := by decide +kernel
  have hpermanent : sampleEntry.permanentDecisions ⟨"team", "cart", "postgresql"⟩ =
      [⟨"pg-a", .permanent "team", KeyMap.empty.insert "zone" "a"⟩] := by decide +kernel
  refine ⟨htabled, ?_, htabled', ?_⟩
  · rw [(resolution_by_precedence htabled ⟨"shop", "cart", "postgresql"⟩).1]
    simp only [precedence, microserviceDecisions, hsorted]
    decide +kernel
  · rw [(resolution_by_precedence htabled' ⟨"team", "cart", "postgresql"⟩).1]
    simp only [precedence, microserviceDecisions, hnone, hpermanent, List.mergeSort_nil, List.filterMap_nil, List.nil_append,
      List.cons_append, List.head?_cons]

end Store

end DatabaseBroker
