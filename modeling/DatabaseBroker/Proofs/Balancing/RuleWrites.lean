import DatabaseBroker.Proofs.Balancing.PairKeys

/-!
# Writes of rules and labels

What each operation on rules, entries and labels does when it is accepted: the names that it was given have no slash, the target is
registered with its type, and the records are stored as they are given, one after another. Permanent rules claim pairs first, and the
claims of a batch come to the target of the first rule for each pair (`setPermanentRules_eq_ok`).
-/

namespace DatabaseBroker

/-! ## Pairs -/

/-- The pair that names a rule of a namespace. -/
def NamespaceRule.pair (r : NamespaceRule) : String × String := (r.ns, r.name)

/-- The pair that names a permanent entry. -/
def PermanentEntry.pair (e : PermanentEntry) : String × String := (e.ns, e.dbType)

/-- The pair that names the rules on microservices of a type. -/
def MicroserviceRuleSet.pair (r : MicroserviceRuleSet) : String × String := (r.ns, r.dbType)

/-- The pair that names the labels of a microservice. -/
def MicroserviceLabels.pair (l : MicroserviceLabels) : String × String := (l.ns, l.microservice)

/-- Whether a permanent rule is for a pair of a namespace and a type. -/
def PermanentRule.isFor (r : PermanentRule) (p : String × String) : Bool := r.dbType = p.2 && r.namespaces.contains p.1

/-! ## Steps that come to a result -/

/-- What comes to a result took both steps. -/
theorem bind_eq_ok {ε α β : Type} {x : Except ε α} {f : α → Except ε β} {b : β} :
    x >>= f = .ok b ↔ ∃ a, x = .ok a ∧ f a = .ok b := by
  cases x with
  | error e => simp [bind, Except.bind]
  | ok a => simp [bind, Except.bind]

/-- A list of checks passes when each does. -/
theorem forM_eq_ok_iff {ε α : Type} {check : α → Except ε Unit} {l : List α} {u : Unit} :
    l.forM check = .ok u ↔ ∀ a ∈ l, check a = .ok () := by
  induction l with
  | nil => simp [pure, Except.pure]
  | cons a rest ih =>
    simp only [List.forM_eq_forM, List.forM_cons, bind_eq_ok, List.forall_mem_cons, ← ih]
    exact ⟨fun ⟨_, ha, hrest⟩ => ⟨ha, hrest⟩, fun ⟨ha, hrest⟩ => ⟨(), ha, hrest⟩⟩

namespace Store

variable {s s' : Store} {now : UInt64} {ns name : String}

/-! ## Checks -/

/-- The check of a target lets through what is registered with the type. -/
theorem checkTarget_eq_ok_iff {id dbType : String} {u : Unit} :
    s.checkTarget id dbType = .ok u ↔ (s.registered? dbType id).isSome = true := by
  rw [registered?, ← physical?]
  unfold checkTarget
  split
  · rename_i hnone
    simp [hnone]
  · rename_i p hp
    by_cases htype : p.dbType = dbType
    · simp [hp, htype, Option.filter]
    · simp [hp, htype, Option.filter]

/-! ## Records one after another -/

theorem foldl_putRuleSet (sets : List MicroserviceRuleSet) (s : Store) :
    sets.foldl putRuleSet s =
      { s with microserviceRules := sets.foldl (fun m r => m.insert r.key r) s.microserviceRules } := by
  induction sets generalizing s with
  | nil => rfl
  | cons r rest ih => exact ih (s.putRuleSet r)

theorem foldl_putPermanentEntry (entries : List PermanentEntry) (s : Store) :
    entries.foldl putPermanentEntry s =
      { s with permanentEntries := entries.foldl (fun m e => m.insert e.key e) s.permanentEntries } := by
  induction entries generalizing s with
  | nil => rfl
  | cons e rest ih => exact ih (s.putPermanentEntry e)

theorem foldl_deletePermanentEntry (entries : List PermanentEntry) (s : Store) :
    entries.foldl (fun s e => s.deletePermanentEntry e.ns e.dbType) s =
      { s with permanentEntries := (entries.map (·.pair)).foldl (fun m p => m.erase (pairKey p.1 p.2)) s.permanentEntries } := by
  induction entries generalizing s with
  | nil => rfl
  | cons e rest ih => exact ih (s.deletePermanentEntry e.ns e.dbType)

theorem foldl_deleteNamespaceRule (rules : List NamespaceRule) (s : Store) :
    rules.foldl (fun s r => s.deleteNamespaceRule r.ns r.name) s =
      { s with namespaceRules := (rules.map (·.pair)).foldl (fun m p => m.erase (pairKey p.1 p.2)) s.namespaceRules } := by
  induction rules generalizing s with
  | nil => rfl
  | cons r rest ih => exact ih (s.deleteNamespaceRule r.ns r.name)

/-! ## Claims of permanent rules -/

/-- What is claimed after one more claim; an earlier claim is for the same target. -/
theorem claim_eq_ok {claims claims' : Claims} {dbType target : String} (h : s.claim claims ns dbType target = .ok claims') :
    (∀ p, claimed? claims' p.1 p.2 = if p = (ns, dbType) then some target else claimed? claims p.1 p.2) ∧
      ∀ other, claimed? claims ns dbType = some other → other = target := by
  unfold claim at h
  dsimp only at h
  split at h
  · cases h
  rename_i hfree
  cases h
  refine ⟨fun p => ?_, fun other hother => ?_⟩
  · simp only [claimed?, KeyMap.get?_insert]
    by_cases hns : ns = p.1
    · by_cases htype : dbType = p.2
      · simp [hns, htype]
      · have hp : p ≠ (ns, dbType) := fun hp => htype (by rw [hp])
        rw [if_pos hns, if_neg hp, Option.bind_some, KeyMap.get?_insert, if_neg htype, ← hns]
        cases claims.get? ns <;> rfl
    · have hp : p ≠ (ns, dbType) := fun hp => hns (by rw [hp])
      rw [if_neg hns, if_neg hp]
  · simp only [Option.orElse_eq_orElse, Option.orElse_eq_or, Option.or_eq_none_iff, hother] at hfree
    by_contra hne
    simp [Option.filter, hne] at hfree

/-- What is claimed for a target after claims for several namespaces. -/
theorem claim_foldlM_eq_ok {claims claims' : Claims} {namespaces : List String} {dbType target : String}
    (h : namespaces.foldlM (fun claims ns => s.claim claims ns dbType target) claims = .ok claims') :
    (∀ p : String × String, claimed? claims' p.1 p.2 =
      if dbType = p.2 ∧ p.1 ∈ namespaces then some target else claimed? claims p.1 p.2) ∧
      ∀ ns ∈ namespaces, ∀ other, claimed? claims ns dbType = some other → other = target := by
  induction namespaces generalizing claims with
  | nil =>
    cases h
    simp
  | cons ns rest ih =>
    simp only [List.foldlM_cons, bind_eq_ok] at h
    obtain ⟨claims₁, hclaim, h⟩ := h
    obtain ⟨hfirst, hsame⟩ := claim_eq_ok hclaim
    obtain ⟨hrest, hlater⟩ := ih h
    refine ⟨fun p => ?_, fun ns' hns' other hother => ?_⟩
    · rw [hrest, hfirst]
      by_cases htype : dbType = p.2
      · by_cases hns : p.1 = ns
        · simp [Prod.ext_iff, htype, hns]
        · simp [Prod.ext_iff, htype, hns]
      · have hp : p ≠ (ns, dbType) := fun hp => htype (by rw [hp])
        simp [htype, hp]
    · rcases List.mem_cons.mp hns' with rfl | hmem
      · exact hsame other hother
      · by_cases hns : ns' = ns
        · exact hsame other (hns ▸ hother)
        · refine hlater ns' hmem other ?_
          rw [hfirst (ns', dbType), if_neg (by simp [hns]), hother]

/-- What is claimed after the claims of a rule: its target for each pair that it is for. -/
theorem claimRule_eq_ok {claims claims' : Claims} {rule : PermanentRule} (h : s.claimRule claims rule = .ok claims') :
    (∀ ns ∈ rule.namespaces, SlashFree ns) ∧ SlashFree rule.dbType ∧
      (∀ p, claimed? claims' p.1 p.2 = if rule.isFor p then some rule.physicalDatabaseId else claimed? claims p.1 p.2) ∧
      ∀ p other, rule.isFor p = true → claimed? claims p.1 p.2 = some other → other = rule.physicalDatabaseId := by
  unfold claimRule at h
  split at h
  · cases h
  simp only [bind_eq_ok] at h
  obtain ⟨_, htype, _, hnames, -, -, h⟩ := h
  obtain ⟨hclaimed, hsame⟩ := claim_foldlM_eq_ok h
  have hfor : ∀ p, rule.isFor p = true ↔ rule.dbType = p.2 ∧ p.1 ∈ rule.namespaces := by simp [PermanentRule.isFor]
  refine ⟨fun ns hns => slashFree_of_checkName (forM_eq_ok_iff.mp hnames ns hns), slashFree_of_checkName htype, fun p => ?_,
    fun p other hp hother => ?_⟩
  · simp only [hclaimed, hfor]
  · obtain ⟨htype, hns⟩ := (hfor p).mp hp
    exact hsame p.1 hns other (htype ▸ hother)

/-- What is claimed after a batch of rules: for each pair, the target of the first rule that is for it. -/
theorem claimRules_eq_ok {claims claims' : Claims} {rules : List PermanentRule}
    (h : rules.foldlM s.claimRule claims = .ok claims') :
    (∀ rule ∈ rules, (∀ ns ∈ rule.namespaces, SlashFree ns) ∧ SlashFree rule.dbType) ∧
      ∀ p, claimed? claims' p.1 p.2 = (claimed? claims p.1 p.2).or ((rules.find? (·.isFor p)).map (·.physicalDatabaseId)) := by
  induction rules generalizing claims with
  | nil =>
    cases h
    simp
  | cons rule rest ih =>
    simp only [List.foldlM_cons, bind_eq_ok] at h
    obtain ⟨claims₁, hrule, h⟩ := h
    obtain ⟨hnames, htype, hfirst, hsame⟩ := claimRule_eq_ok hrule
    obtain ⟨hrest, hlater⟩ := ih h
    refine ⟨fun r hr => ?_, fun p => ?_⟩
    · rcases List.mem_cons.mp hr with rfl | hr
      · exact ⟨hnames, htype⟩
      · exact hrest r hr
    · rw [hlater, hfirst, List.find?_cons]
      cases hfor : rule.isFor p with
      | false => simp
      | true =>
        cases hclaimed : claimed? claims p.1 p.2 with
        | none => simp
        | some other => simp [hsame p other hfor hclaimed]

/-- The entries of claims are the claimed targets. -/
theorem mem_claimedEntries_iff {claims : Claims} {e : PermanentEntry} :
    e ∈ claimedEntries claims ↔ claimed? claims e.ns e.dbType = some e.physicalDatabaseId := by
  simp only [claimedEntries, List.mem_flatMap, List.mem_map, claimed?, Option.bind_eq_some_iff, KeyMap.get?_eq_some_iff]
  constructor
  · rintro ⟨⟨ns, targets⟩, htargets, ⟨dbType, target⟩, htarget, rfl⟩
    exact ⟨targets, htargets, htarget⟩
  · rintro ⟨targets, htargets, htarget⟩
    exact ⟨⟨e.ns, targets⟩, htargets, ⟨e.dbType, e.physicalDatabaseId⟩, htarget, rfl⟩

/-! ## Operations -/

/-- A rule of a namespace that is accepted is stored as it is given, and leads to a registered target. -/
theorem setNamespaceRule_eq_ok {r : NamespaceRuleRequest} {out : NamespaceRule × RuleWrite}
    (h : s.setNamespaceRule now ns name r = .ok (out, s')) :
    SlashFree ns ∧ SlashFree name ∧ (s.registered? r.dbType r.physicalDatabaseId).isSome = true ∧
      s' = s.putNamespaceRule ⟨name, ns, r.dbType, r.order, r.physicalDatabaseId, now⟩ := by
  simp only [setNamespaceRule, bind_eq_ok] at h
  obtain ⟨_, hns, _, hname, _, _, _, htarget, h⟩ := h
  split at h
  · cases h
  · cases h
    exact ⟨slashFree_of_checkName hns, slashFree_of_checkName hname, checkTarget_eq_ok_iff.mp htarget, rfl⟩

/-- A rule that is deleted was there. -/
theorem removeNamespaceRule_eq_ok (h : s.removeNamespaceRule ns name = .ok s') :
    (s.namespaceRule? ns name).isSome = true ∧ s' = s.deleteNamespaceRule ns name := by
  unfold removeNamespaceRule at h
  split at h
  · rename_i hrule
    cases h
    exact ⟨by rw [hrule]; rfl, rfl⟩
  · cases h

/-- Rules on microservices that are accepted are stored type by type. -/
theorem setMicroserviceRules_eq_ok {rules : List MicroserviceRule} {sets : List MicroserviceRuleSet}
    (h : s.setMicroserviceRules now ns rules = .ok (sets, s')) :
    SlashFree ns ∧ (∀ rule ∈ rules, SlashFree rule.dbType) ∧ s' = (ruleSets ns now rules).foldl putRuleSet s := by
  simp only [setMicroserviceRules, bind_eq_ok] at h
  obtain ⟨_, hns, _, htypes, h⟩ := h
  split at h
  · cases h
    exact ⟨slashFree_of_checkName hns, fun rule hrule => slashFree_of_checkName (forM_eq_ok_iff.mp htypes rule hrule), rfl⟩
  · cases h

/-- Labels that are accepted are stored as they are given. -/
theorem setLabels_eq_ok {labels : Labels} {record : MicroserviceLabels} (h : s.setLabels now ns name labels = .ok (record, s')) :
    SlashFree ns ∧ SlashFree name ∧ s' = s.putLabels ⟨ns, name, labels, now⟩ := by
  simp only [setLabels, bind_eq_ok] at h
  obtain ⟨_, hns, _, hname, h⟩ := h
  split at h
  · cases h
  · cases h
    exact ⟨slashFree_of_checkName hns, slashFree_of_checkName hname, rfl⟩

/-- Permanent rules that are accepted are stored as entries: for each pair that a rule is for, the target of the first one. -/
theorem setPermanentRules_eq_ok {rules : List PermanentRule} {entries : List PermanentEntry}
    (h : s.setPermanentRules rules = .ok (entries, s')) :
    (∀ rule ∈ rules, (∀ ns ∈ rule.namespaces, SlashFree ns) ∧ SlashFree rule.dbType) ∧
      (∀ e, e ∈ entries ↔ (rules.find? (·.isFor e.pair)).map (·.physicalDatabaseId) = some e.physicalDatabaseId) ∧
      s' = entries.foldl putPermanentEntry s := by
  unfold setPermanentRules at h
  split at h
  · cases h
  obtain ⟨claims, hclaims, h⟩ := bind_eq_ok.mp h
  cases h
  obtain ⟨hnames, hclaimed⟩ := claimRules_eq_ok hclaims
  refine ⟨hnames, fun e => ?_, rfl⟩
  rw [mem_claimedEntries_iff]
  exact Eq.congr_left ((hclaimed e.pair).trans (Option.none_or ..))

end Store

end DatabaseBroker
