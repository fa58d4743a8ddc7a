import DatabaseBroker.Proofs.Balancing.RuleBook

/-!
# Batches of permanent rules

A batch is looked through rule by rule and namespace by namespace, and each claim is held against the claims before it and against
what is stored. What the loops accept does not show their order: a batch is accepted exactly when its rules are in order one by one
and no two entries of one pair are claimed or stored (`Store.AdmitsPermanent`). So it does not matter how the rules of a batch and
their namespaces are arranged, nor whether they are repeated (`permanent_rules_exact`).
-/

namespace DatabaseBroker

/-! ## What a batch claims -/

namespace PermanentRule

/-- A rule claims an entry for each of its namespaces. -/
def Claims (r : PermanentRule) (e : PermanentEntry) : Prop :=
  e.dbType = r.dbType ∧ e.ns ∈ r.namespaces ∧ e.physicalDatabaseId = r.physicalDatabaseId

/-- The entries of a rule are for the pairs that it is for, and lead to its target. -/
theorem claims_iff {r : PermanentRule} {e : PermanentEntry} :
    r.Claims e ↔ r.isFor e.pair = true ∧ r.physicalDatabaseId = e.physicalDatabaseId := by
  simp only [Claims, isFor, PermanentEntry.pair, Bool.and_eq_true, decide_eq_true_eq, List.contains_eq_mem]
  grind

/-- Two rules with the same target for each pair that both are for. -/
def Agrees (r r' : PermanentRule) : Prop :=
  ∀ p, r.isFor p = true → r'.isFor p = true → r.physicalDatabaseId = r'.physicalDatabaseId

theorem Agrees.refl (r : PermanentRule) : r.Agrees r := fun _ _ _ => rfl

theorem Agrees.symm {r r' : PermanentRule} (h : r.Agrees r') : r'.Agrees r := fun p hp hp' => (h p hp' hp).symm

/-- Two rules that name the same namespaces for the same type and target, in whatever order and however often. -/
structure SameAs (r r' : PermanentRule) : Prop where
  dbType : r'.dbType = r.dbType
  target : r'.physicalDatabaseId = r.physicalDatabaseId
  namespaces : ∀ ns, ns ∈ r'.namespaces ↔ ns ∈ r.namespaces

theorem SameAs.refl (r : PermanentRule) : r.SameAs r := ⟨rfl, rfl, fun _ => Iff.rfl⟩

theorem SameAs.symm {r r' : PermanentRule} (h : r.SameAs r') : r'.SameAs r :=
  ⟨h.dbType.symm, h.target.symm, fun ns => (h.namespaces ns).symm⟩

theorem SameAs.claims {r r' : PermanentRule} (h : r.SameAs r') {e : PermanentEntry} (he : r.Claims e) : r'.Claims e :=
  ⟨he.1.trans h.dbType.symm, (h.namespaces e.ns).mpr he.2.1, he.2.2.trans h.target.symm⟩

end PermanentRule

namespace PermanentEntry

/-- One entry comes before another by namespace, and in a namespace by type. -/
def Before (e e' : PermanentEntry) : Prop := e.ns < e'.ns ∨ e.ns = e'.ns ∧ e.dbType < e'.dbType

theorem Before.asymm {e e' : PermanentEntry} (h : e.Before e') : ¬e'.Before e := by
  rcases h with hns | ⟨hns, htype⟩
  · rintro (hns' | ⟨hns', -⟩)
    · exact String.lt_irrefl _ (String.lt_trans hns hns')
    · exact String.lt_irrefl _ (hns' ▸ hns)
  · rintro (hns' | ⟨-, htype'⟩)
    · exact String.lt_irrefl _ (hns ▸ hns')
    · exact String.lt_irrefl _ (String.lt_trans htype htype')

/-- One list of entries is in order. -/
theorem eq_of_ascending {l l' : List PermanentEntry} (h : l.Pairwise Before) (h' : l'.Pairwise Before)
    (hmem : ∀ e, e ∈ l ↔ e ∈ l') : l = l' := by
  have hnodup : ∀ {l : List PermanentEntry}, l.Pairwise Before → l.Nodup := fun h =>
    h.imp fun {e e'} hbefore heq => (heq ▸ hbefore).asymm (heq ▸ hbefore)
  refine List.Perm.eq_of_pairwise (fun e e' _ _ hbefore hbefore' => absurd hbefore' hbefore.asymm) h h' ?_
  exact (List.perm_ext_iff_of_nodup (hnodup h) (hnodup h')).mpr hmem

end PermanentEntry

/-- An entry that a rule of a batch claims. -/
def ClaimedBy (rules : List PermanentRule) (e : PermanentEntry) : Prop := ∃ r ∈ rules, r.Claims e

/-- Two batches of the same rules, in whatever order and however often. -/
structure SameBatch (rules rules' : List PermanentRule) : Prop where
  forth : ∀ r ∈ rules, ∃ r' ∈ rules', r.SameAs r'
  back : ∀ r' ∈ rules', ∃ r ∈ rules, r'.SameAs r

namespace SameBatch

variable {rules rules' : List PermanentRule}

theorem symm (h : SameBatch rules rules') : SameBatch rules' rules := ⟨h.back, h.forth⟩

/-- The rules of a batch may be permuted and repeated. -/
theorem of_mem_iff (h : ∀ r, r ∈ rules ↔ r ∈ rules') : SameBatch rules rules' :=
  ⟨fun r hr => ⟨r, (h r).mp hr, .refl r⟩, fun r hr => ⟨r, (h r).mpr hr, .refl r⟩⟩

/-- So may the namespaces of each rule. -/
theorem of_namespaces {f : PermanentRule → List String} (h : ∀ r ∈ rules, ∀ ns, ns ∈ f r ↔ ns ∈ r.namespaces) :
    SameBatch rules (rules.map fun r => { r with namespaces := f r }) where
  forth r hr := ⟨_, List.mem_map_of_mem hr, rfl, rfl, h r hr⟩
  back r' hr' := by
    obtain ⟨r, hr, rfl⟩ := List.mem_map.mp hr'
    exact ⟨r, hr, rfl, rfl, fun ns => (h r hr ns).symm⟩

theorem trans {rules'' : List PermanentRule} (h : SameBatch rules rules') (h' : SameBatch rules' rules'') :
    SameBatch rules rules'' where
  forth r hr := by
    obtain ⟨r', hr', hsame⟩ := h.forth r hr
    obtain ⟨r'', hr'', hsame'⟩ := h'.forth r' hr'
    exact ⟨r'', hr'', hsame'.dbType.trans hsame.dbType, hsame'.target.trans hsame.target,
      fun ns => (hsame'.namespaces ns).trans (hsame.namespaces ns)⟩
  back r'' hr'' := by
    obtain ⟨r', hr', hsame'⟩ := h'.back r'' hr''
    obtain ⟨r, hr, hsame⟩ := h.back r' hr'
    exact ⟨r, hr, hsame.dbType.trans hsame'.dbType, hsame.target.trans hsame'.target,
      fun ns => (hsame.namespaces ns).trans (hsame'.namespaces ns)⟩

/-- The same rules claim the same entries. -/
theorem claimedBy_iff (h : SameBatch rules rules') {e : PermanentEntry} : ClaimedBy rules e ↔ ClaimedBy rules' e := by
  constructor
  · rintro ⟨r, hr, he⟩
    obtain ⟨r', hr', hsame⟩ := h.forth r hr
    exact ⟨r', hr', hsame.claims he⟩
  · rintro ⟨r', hr', he⟩
    obtain ⟨r, hr, hsame⟩ := h.back r' hr'
    exact ⟨r, hr, hsame.claims he⟩

end SameBatch

namespace Store

variable {s s' : Store} {book : RuleBook} {ns dbType target : String} {claims claims' : Claims} {rules rules' : List PermanentRule}

/-! ## What the loops accept -/

/-- What is claimed or stored for a namespace and a type, if anything, is the target. -/
structure Unopposed (s : Store) (claims : Claims) (ns dbType target : String) : Prop where
  claimed : ∀ other, claimed? claims ns dbType = some other → other = target
  stored : ∀ e, s.permanentEntry? ns dbType = some e → e.physicalDatabaseId = target

/-- A claim is accepted where nothing else is claimed or stored. -/
theorem claim_eq_ok_iff : (∃ claims', s.claim claims ns dbType target = .ok claims') ↔ s.Unopposed claims ns dbType target := by
  have hfree : ((claimed? claims ns dbType).filter (· ≠ target) <|>
      ((s.permanentEntry? ns dbType).map (·.physicalDatabaseId)).filter (· ≠ target)) = none ↔
        s.Unopposed claims ns dbType target := by
    simp only [Option.orElse_eq_orElse, Option.orElse_eq_or, Option.or_eq_none_iff, Option.filter_eq_none_iff, Option.map_eq_some_iff,
      ne_eq, decide_not, Bool.not_eq_true', decide_eq_false_iff_not, not_not, forall_exists_index, and_imp, forall_apply_eq_imp_iff₂]
    exact ⟨fun ⟨hclaimed, hstored⟩ => ⟨hclaimed, hstored⟩, fun h => ⟨h.claimed, h.stored⟩⟩
  rw [← hfree, claim]
  split
  · rename_i hother
    rw [hother]
    simp
  · rename_i hnone
    rw [hnone]
    simp

/-- Once pairs are claimed for a target, another claim for one of them has to be for this target too. -/
theorem unopposed_after {P : String × String → Prop} [DecidablePred P] {wanted : String}
    (hclaimed : ∀ p, claimed? claims' p.1 p.2 = if P p then some target else claimed? claims p.1 p.2)
    (hsame : ∀ p other, P p → claimed? claims p.1 p.2 = some other → other = target) :
    s.Unopposed claims' ns dbType wanted ↔ s.Unopposed claims ns dbType wanted ∧ (P (ns, dbType) → target = wanted) := by
  have hpair := hclaimed (ns, dbType)
  by_cases hP : P (ns, dbType)
  · rw [if_pos hP] at hpair
    constructor
    · intro h
      obtain rfl : target = wanted := h.claimed target hpair
      exact ⟨⟨fun other => hsame _ other hP, h.stored⟩, fun _ => rfl⟩
    · rintro ⟨h, hwanted⟩
      refine ⟨fun other hother => ?_, h.stored⟩
      rw [← Option.some.inj (hpair.symm.trans hother)]
      exact hwanted hP
  · rw [if_neg hP] at hpair
    constructor
    · intro h
      exact ⟨⟨fun other hother => h.claimed other (hpair.trans hother), h.stored⟩, fun h => absurd h hP⟩
    · rintro ⟨h, -⟩
      exact ⟨fun other hother => h.claimed other (hpair.symm.trans hother), h.stored⟩

/-- Claims for one target do not stand in each other's way. -/
theorem claim_foldlM_eq_ok_iff {namespaces : List String} :
    (∃ claims', namespaces.foldlM (fun claims ns => s.claim claims ns dbType target) claims = .ok claims') ↔
      ∀ ns ∈ namespaces, s.Unopposed claims ns dbType target := by
  induction namespaces generalizing claims with
  | nil => simp [pure, Except.pure]
  | cons ns rest ih =>
    have hafter : ∀ claims₁, s.claim claims ns dbType target = .ok claims₁ →
        ∀ ns', s.Unopposed claims₁ ns' dbType target ↔ s.Unopposed claims ns' dbType target := by
      intro claims₁ hclaim ns'
      obtain ⟨hclaimed, hsame⟩ := claim_eq_ok hclaim
      rw [unopposed_after (P := (· = (ns, dbType))) hclaimed fun p other hp hother => hsame other (by rwa [hp] at hother)]
      exact and_iff_left fun _ => rfl
    rw [List.forall_mem_cons, ← claim_eq_ok_iff]
    simp only [List.foldlM_cons, bind_eq_ok]
    constructor
    · rintro ⟨claims', claims₁, hclaim, hrest⟩
      exact ⟨⟨claims₁, hclaim⟩, fun ns' hns' => (hafter claims₁ hclaim ns').mp (ih.mp ⟨claims', hrest⟩ ns' hns')⟩
    · rintro ⟨⟨claims₁, hclaim⟩, hrest⟩
      obtain ⟨claims', hrest⟩ := ih.mpr fun ns' hns' => (hafter claims₁ hclaim ns').mpr (hrest ns' hns')
      exact ⟨claims', claims₁, hclaim, hrest⟩

/-- A rule that may be part of a batch, whatever else is claimed. -/
structure AdmitsPermanentRule (s : Store) (r : PermanentRule) : Prop where
  given : r.namespaces ≠ []
  dbType : PlainName r.dbType
  namespaces : ∀ ns ∈ r.namespaces, PlainName ns
  target : (s.registered? r.dbType r.physicalDatabaseId).isSome = true

/-- The claims of a rule are accepted when it may be part of a batch and nothing else is claimed or stored for its pairs. -/
theorem claimRule_eq_ok_iff {r : PermanentRule} : (∃ claims', s.claimRule claims r = .ok claims') ↔
    s.AdmitsPermanentRule r ∧ ∀ ns ∈ r.namespaces, s.Unopposed claims ns r.dbType r.physicalDatabaseId := by
  rw [← claim_foldlM_eq_ok_iff, claimRule]
  constructor
  · rintro ⟨claims', h⟩
    split at h
    · cases h
    rename_i hgiven
    simp only [bind_eq_ok, checkName_eq_ok_iff, forM_eq_ok_iff, checkTarget_eq_ok_iff] at h
    obtain ⟨_, htype, _, hnames, _, htarget, hclaims⟩ := h
    exact ⟨⟨by simpa using hgiven, htype, hnames, htarget⟩, claims', hclaims⟩
  · rintro ⟨h, claims', hclaims⟩
    rw [if_neg (by simpa using h.given)]
    simp only [bind_eq_ok, checkName_eq_ok_iff, forM_eq_ok_iff, checkTarget_eq_ok_iff]
    exact ⟨claims', (), h.dbType, (), h.namespaces, (), h.target, hclaims⟩

/-- The claims of several rules are accepted when those of each are, and each two rules agree. -/
theorem claimRules_eq_ok_iff : (∃ claims', rules.foldlM s.claimRule claims = .ok claims') ↔
    (∀ r ∈ rules, s.AdmitsPermanentRule r ∧ ∀ ns ∈ r.namespaces, s.Unopposed claims ns r.dbType r.physicalDatabaseId) ∧
      ∀ r ∈ rules, ∀ r' ∈ rules, r.Agrees r' := by
  induction rules generalizing claims with
  | nil => simp [pure, Except.pure]
  | cons rule rest ih =>
    have hafter : ∀ claims₁, s.claimRule claims rule = .ok claims₁ → ∀ (ns : String) (r : PermanentRule),
        (s.Unopposed claims₁ ns r.dbType r.physicalDatabaseId ↔ s.Unopposed claims ns r.dbType r.physicalDatabaseId ∧
          (rule.isFor (ns, r.dbType) = true → rule.physicalDatabaseId = r.physicalDatabaseId)) := by
      intro claims₁ hrule ns r
      obtain ⟨-, -, hclaimed, hsame⟩ := claimRule_eq_ok hrule
      exact unopposed_after hclaimed hsame
    rw [List.forall_mem_cons, ← claimRule_eq_ok_iff]
    simp only [List.foldlM_cons, bind_eq_ok]
    constructor
    · rintro ⟨claims', claims₁, hrule, hrest⟩
      obtain ⟨hrules, hagree⟩ := ih.mp ⟨claims', hrest⟩
      have hfirst : ∀ r ∈ rest, rule.Agrees r := by
        intro r hr p hp hp'
        simp only [PermanentRule.isFor, Bool.and_eq_true, decide_eq_true_eq, List.contains_eq_mem] at hp'
        refine ((hafter claims₁ hrule p.1 r).mp ((hrules r hr).2 p.1 hp'.2)).2 ?_
        rwa [hp'.1]
      refine ⟨⟨⟨claims₁, hrule⟩, fun r hr => ⟨(hrules r hr).1, fun ns hns => ?_⟩⟩, ?_⟩
      · exact ((hafter claims₁ hrule ns r).mp ((hrules r hr).2 ns hns)).1
      · simp only [List.forall_mem_cons]
        exact ⟨⟨.refl rule, hfirst⟩, fun r hr => ⟨(hfirst r hr).symm, hagree r hr⟩⟩
    · rintro ⟨⟨⟨claims₁, hrule⟩, hrules⟩, hagree⟩
      simp only [List.forall_mem_cons] at hagree
      obtain ⟨claims', hrest⟩ := ih.mpr ⟨fun r hr => ⟨(hrules r hr).1, fun ns hns =>
          (hafter claims₁ hrule ns r).mpr ⟨(hrules r hr).2 ns hns, fun hfor => hagree.1.2 r hr (ns, r.dbType) hfor (by
            simpa [PermanentRule.isFor] using hns)⟩⟩,
        fun r hr => (hagree.2 r hr).2⟩
      exact ⟨claims', claims₁, hrule, hrest⟩

/-- A batch is accepted when there are rules and their claims are accepted. -/
theorem isOk_setPermanentRules_iff : (s.setPermanentRules rules).isOk = true ↔
    rules ≠ [] ∧ ∃ claims, rules.foldlM s.claimRule .empty = .ok claims := by
  rw [setPermanentRules]
  cases rules with
  | nil => simp [bind, Except.bind, Except.isOk, Except.toBool]
  | cons r rest =>
    cases hclaims : (r :: rest).foldlM s.claimRule .empty <;> simp [bind, Except.bind, Except.isOk, Except.toBool]

/-! ## What is claimed or stored -/

/-- An entry that is stored, or that a batch claims. -/
def ClaimedOrStored (s : Store) (rules : List PermanentRule) (e : PermanentEntry) : Prop :=
  ClaimedBy rules e ∨ e ∈ s.permanentEntriesOf none

/-- A batch that may be stored: there are rules, each names namespaces, types and namespaces are plain names, targets are registered
with the types, and no namespace and type are claimed for two targets among the batch and the stored entries. -/
structure AdmitsPermanent (s : Store) (rules : List PermanentRule) : Prop where
  given : rules ≠ []
  each : ∀ r ∈ rules, s.AdmitsPermanentRule r
  single : ∀ e e', s.ClaimedOrStored rules e → s.ClaimedOrStored rules e' → e'.ns = e.ns → e'.dbType = e.dbType →
    e'.physicalDatabaseId = e.physicalDatabaseId

/-- The same rules are admitted alike. -/
theorem AdmitsPermanent.of_sameBatch (h : s.AdmitsPermanent rules) (hsame : SameBatch rules rules') :
    s.AdmitsPermanent rules' := by
  refine ⟨?_, fun r' hr' => ?_, ?_⟩
  · obtain ⟨r, hr⟩ := List.exists_mem_of_ne_nil rules h.given
    obtain ⟨r', hr', -⟩ := hsame.forth r hr
    exact List.ne_nil_of_mem hr'
  · obtain ⟨r, hr, hlike⟩ := hsame.back r' hr'
    obtain ⟨hgiven, htype, hnames, htarget⟩ := h.each r hr
    obtain ⟨ns, hns⟩ := List.exists_mem_of_ne_nil r.namespaces hgiven
    refine ⟨List.ne_nil_of_mem ((hlike.namespaces ns).mp hns), hlike.dbType ▸ htype,
      fun ns hns => hnames ns ((hlike.namespaces ns).mpr hns), ?_⟩
    rw [← hlike.dbType, ← hlike.target]
    exact htarget
  · intro e e' he he'
    simp only [ClaimedOrStored, ← hsame.claimedBy_iff] at he he'
    exact h.single e e' he he'

/-- After a batch the entry of a pair leads to the target of the first rule for it; without one it is what it was. -/
theorem permanentEntries_putPermanentRules (book : RuleBook) (rules : List PermanentRule) (p : String × String) :
    (book.apply 0 (.putPermanentRules rules)).permanentEntries p =
      ((rules.find? (·.isFor p)).map fun r => ⟨p.1, p.2, r.physicalDatabaseId⟩).or (book.permanentEntries p) := by
  simp only [RuleBook.apply]
  cases rules.find? (·.isFor p) <;> rfl

namespace Keeps

/-- The stored entries are those that are found under their pairs. -/
theorem mem_permanentEntriesOf_iff (h : s.Keeps book) {e : PermanentEntry} :
    e ∈ s.permanentEntriesOf none ↔ s.permanentEntry? e.ns e.dbType = some e :=
  h.permanentEntries.mem_values_iff.trans (by rw [← h.permanentEntries.get? e.pair]; rfl)

/-- Rules agree, and nothing else is stored for their pairs, when no pair is claimed for two targets. -/
theorem single_iff (h : s.Keeps book) :
    ((∀ r ∈ rules, ∀ ns ∈ r.namespaces, s.Unopposed .empty ns r.dbType r.physicalDatabaseId) ∧
        ∀ r ∈ rules, ∀ r' ∈ rules, r.Agrees r') ↔
      ∀ e e', s.ClaimedOrStored rules e → s.ClaimedOrStored rules e' → e'.ns = e.ns → e'.dbType = e.dbType →
        e'.physicalDatabaseId = e.physicalDatabaseId := by
  constructor
  · rintro ⟨hstored, hagree⟩
    have hmixed : ∀ e e', ClaimedBy rules e → e' ∈ s.permanentEntriesOf none → e'.ns = e.ns → e'.dbType = e.dbType →
        e'.physicalDatabaseId = e.physicalDatabaseId := by
      rintro e e' ⟨r, hr, htype, hns, htarget⟩ he' hns' htype'
      have hread := h.mem_permanentEntriesOf_iff.mp he'
      rw [hns', htype', htype] at hread
      exact ((hstored r hr e.ns hns).stored e' hread).trans htarget.symm
    rintro e e' (⟨r, hr, he⟩ | he) (⟨r', hr', he'⟩ | he') hns htype
    · have hpair : e'.pair = e.pair := Prod.ext_iff.mpr ⟨hns, htype⟩
      obtain ⟨hfor, htarget⟩ := PermanentRule.claims_iff.mp he
      obtain ⟨hfor', htarget'⟩ := PermanentRule.claims_iff.mp he'
      rw [← htarget, ← htarget']
      exact hagree r' hr' r hr e.pair (hpair ▸ hfor') hfor
    · exact hmixed e e' ⟨r, hr, he⟩ he' hns htype
    · exact (hmixed e' e ⟨r', hr', he'⟩ he hns.symm htype.symm).symm
    · have hread := h.mem_permanentEntriesOf_iff.mp he'
      rw [hns, htype, h.mem_permanentEntriesOf_iff.mp he] at hread
      rw [Option.some.inj hread]
  · intro hsingle
    have hclaimed : ∀ r ∈ rules, ∀ p, r.isFor p = true → s.ClaimedOrStored rules ⟨p.1, p.2, r.physicalDatabaseId⟩ :=
      fun r hr p hp => Or.inl ⟨r, hr, PermanentRule.claims_iff.mpr ⟨hp, rfl⟩⟩
    refine ⟨fun r hr ns hns => ⟨nofun, fun e he => ?_⟩, fun r hr r' hr' p hp hp' => ?_⟩
    · have hfor : r.isFor (ns, r.dbType) = true := by simpa [PermanentRule.isFor] using hns
      have hpair : e.pair = (ns, r.dbType) := h.permanentEntries.pair_eq ((h.permanentEntries.get? (ns, r.dbType)).symm.trans he)
      have hns' : e.ns = ns := congrArg Prod.fst hpair
      have htype : e.dbType = r.dbType := congrArg Prod.snd hpair
      have hstored : e ∈ s.permanentEntriesOf none := h.mem_permanentEntriesOf_iff.mpr (by rwa [hns', htype])
      exact hsingle _ e (hclaimed r hr _ hfor) (Or.inr hstored) hns' htype
    · exact hsingle _ _ (hclaimed r' hr' p hp') (hclaimed r hr p hp) rfl rfl

/-- A batch is accepted exactly when it may be stored. -/
theorem setPermanentRules_isOk_iff (h : s.Keeps book) : (s.setPermanentRules rules).isOk = true ↔ s.AdmitsPermanent rules := by
  rw [isOk_setPermanentRules_iff, claimRules_eq_ok_iff]
  constructor
  · rintro ⟨hgiven, hrules, hagree⟩
    exact ⟨hgiven, fun r hr => (hrules r hr).1, h.single_iff.mp ⟨fun r hr => (hrules r hr).2, hagree⟩⟩
  · intro hadmits
    obtain ⟨hstored, hagree⟩ := h.single_iff.mpr hadmits.single
    exact ⟨hadmits.given, fun r hr => ⟨hadmits.each r hr, hstored r hr⟩, hagree⟩

/-- What a batch that is accepted comes to: the claimed entries are answered and stored beside the others. -/
theorem mem_of_setPermanentRules (h : s.Keeps book) {entries : List PermanentEntry}
    (hok : s.setPermanentRules rules = .ok (entries, s')) (e : PermanentEntry) :
    (e ∈ entries ↔ ClaimedBy rules e) ∧ (e ∈ s'.permanentEntriesOf none ↔ s.ClaimedOrStored rules e) := by
  have hadmits : s.AdmitsPermanent rules := h.setPermanentRules_isOk_iff.mp (by rw [hok]; rfl)
  have h' : s'.Keeps (book.apply 0 (.putPermanentRules rules)) := h.setPermanentRules hok
  obtain ⟨-, hentries, -⟩ := setPermanentRules_eq_ok hok
  have hread : e ∈ s'.permanentEntriesOf none ↔
      (book.apply 0 (.putPermanentRules rules)).permanentEntries e.pair = some e := h'.permanentEntries.mem_values_iff
  have hstored : e ∈ s.permanentEntriesOf none ↔ book.permanentEntries e.pair = some e := h.permanentEntries.mem_values_iff
  rw [hentries, hread, permanentEntries_putPermanentRules]
  cases hfind : rules.find? (·.isFor e.pair) with
  | none =>
    have hfree : ¬ClaimedBy rules e := by
      rintro ⟨r, hr, he⟩
      exact List.find?_eq_none.mp hfind r hr (PermanentRule.claims_iff.mp he).1
    simp [hfree, ClaimedOrStored, hstored]
  | some r =>
    have hr : r ∈ rules := List.mem_of_find?_eq_some hfind
    have hfor : r.isFor e.pair = true := by simpa only using List.find?_some hfind
    -- whoever claims or stored an entry of this pair, it leads to the target of the first rule for it
    have hclaims : s.ClaimedOrStored rules e → r.physicalDatabaseId = e.physicalDatabaseId := fun he =>
      hadmits.single e ⟨e.ns, e.dbType, r.physicalDatabaseId⟩ he (Or.inl ⟨r, hr, PermanentRule.claims_iff.mpr ⟨hfor, rfl⟩⟩)
        rfl rfl
    have hclaimed : r.physicalDatabaseId = e.physicalDatabaseId → ClaimedBy rules e := fun htarget =>
      ⟨r, hr, PermanentRule.claims_iff.mpr ⟨hfor, htarget⟩⟩
    have hentry : (⟨e.pair.1, e.pair.2, r.physicalDatabaseId⟩ : PermanentEntry) = e ↔
        r.physicalDatabaseId = e.physicalDatabaseId := by
      cases e
      simp [PermanentEntry.pair]
    simp only [Option.map_some, Option.some_or, Option.some.injEq, hentry]
    exact ⟨⟨hclaimed, fun he => hclaims (Or.inl he)⟩, fun htarget => Or.inl (hclaimed htarget), hclaims⟩

end Keeps

/-! ## What is answered -/

/-- Entries are answered by namespace and type. -/
theorem claimedEntries_ascending (claims : Claims) : (claimedEntries claims).Pairwise PermanentEntry.Before := by
  rw [claimedEntries, List.pairwise_flatMap]
  constructor
  · rintro ⟨ns, targets⟩ -
    exact List.pairwise_map.mpr (targets.ascending.imp fun hlt => Or.inr ⟨rfl, hlt⟩)
  · refine claims.ascending.imp fun {a b} hlt e he e' he' => ?_
    obtain ⟨x, -, rfl⟩ := List.mem_map.mp he
    obtain ⟨y, -, rfl⟩ := List.mem_map.mp he'
    exact Or.inl hlt

theorem ascending_of_setPermanentRules {entries : List PermanentEntry} (hok : s.setPermanentRules rules = .ok (entries, s')) :
    entries.Pairwise PermanentEntry.Before := by
  unfold setPermanentRules at hok
  split at hok
  · cases hok
  obtain ⟨claims, -, hok⟩ := bind_eq_ok.mp hok
  cases hok
  exact claimedEntries_ascending claims

/-- The same rules are answered alike. -/
theorem Keeps.setPermanentRules_of_sameBatch (h : s.Keeps book) (hsame : SameBatch rules rules') :
    (s.setPermanentRules rules').toOption = (s.setPermanentRules rules).toOption := by
  have hisOk : (s.setPermanentRules rules').isOk = true ↔ (s.setPermanentRules rules).isOk = true := by
    rw [h.setPermanentRules_isOk_iff, h.setPermanentRules_isOk_iff]
    exact ⟨fun hadmits => hadmits.of_sameBatch hsame.symm, fun hadmits => hadmits.of_sameBatch hsame⟩
  cases hok : s.setPermanentRules rules with
  | error reason =>
    cases hok' : s.setPermanentRules rules' with
    | error reason' => rfl
    | ok out' =>
      rw [hok, hok'] at hisOk
      cases hisOk.mp rfl
  | ok out =>
    cases hok' : s.setPermanentRules rules' with
    | error reason' =>
      rw [hok, hok'] at hisOk
      cases hisOk.mpr rfl
    | ok out' =>
      obtain ⟨entries, s₁⟩ := out
      obtain ⟨entries', s₁'⟩ := out'
      have hentries : entries' = entries := by
        refine PermanentEntry.eq_of_ascending (ascending_of_setPermanentRules hok') (ascending_of_setPermanentRules hok) fun e => ?_
        rw [(h.mem_of_setPermanentRules hok' e).1, (h.mem_of_setPermanentRules hok e).1, hsame.claimedBy_iff]
      obtain ⟨-, -, rfl⟩ := setPermanentRules_eq_ok hok
      obtain ⟨-, -, rfl⟩ := setPermanentRules_eq_ok hok'
      rw [hentries]

end Store

open Store

/-- Batches of permanent rules, after every history and for every batch:
1. a batch is accepted exactly when it may be stored beside the stored entries;
2. a batch that is accepted adds the claimed entries to the stored ones and changes nothing else, and the claimed entries are answered,
each once and by namespace and type;
3. a batch that is refused changes nothing;
4. a batch of the same rules, in whatever order and however often they and their namespaces are listed, is refused as well, or is
accepted with the same answer and leaves the same store. -/
theorem permanent_rules_exact (env : Surroundings) (events : List Event) (now : UInt64) (rules : List PermanentRule) :
    let b := replay env events
    let answer := b.store.setPermanentRules rules
    let b' := b.run env now (.putPermanentRules rules)
    (answer.isOk = true ↔ b.store.AdmitsPermanent rules) ∧
      (∀ entries s', answer = .ok (entries, s') →
        b' = b.withStore s' ∧ s' = { b.store with permanentEntries := s'.permanentEntries } ∧
        (∀ e, e ∈ s'.permanentEntriesOf none ↔ e ∈ b.store.permanentEntriesOf none ∨ ClaimedBy rules e) ∧
        (∀ e, e ∈ entries ↔ ClaimedBy rules e) ∧ entries.Pairwise PermanentEntry.Before) ∧
      (answer.isOk = false → b' = b) ∧
      ∀ rules', SameBatch rules rules' → (b.store.setPermanentRules rules').toOption = answer.toOption := by
  intro b answer b'
  have h : b.store.Keeps _ := Keeps.empty.runAll env events
  refine ⟨h.setPermanentRules_isOk_iff, fun entries s' hok => ?_, fun hrefused => ?_, fun rules' hsame =>
    h.setPermanentRules_of_sameBatch hsame⟩
  · have hrun : b' = b.withStore s' := congrArg b.keep hok
    obtain ⟨-, -, hstore⟩ := setPermanentRules_eq_ok hok
    rw [foldl_putPermanentEntry] at hstore
    exact ⟨hrun, by rw [hstore], fun e => (h.mem_of_setPermanentRules hok e).2.trans or_comm,
      fun e => (h.mem_of_setPermanentRules hok e).1, ascending_of_setPermanentRules hok⟩
  · cases hok : answer with
    | ok out => simp [hok, Except.isOk, Except.toBool] at hrefused
    | error reason => exact congrArg b.keep hok

/-- A batch that claims a stored entry beside new ones. -/
def sampleBatch : List PermanentRule := [⟨"postgresql", "pg", ["shop", "crm"]⟩, ⟨"postgresql", "pg", ["team"]⟩]

/-- The same batch with rules and namespaces in another order, and some of them twice. -/
def sampleRearranged : List PermanentRule := [
  ⟨"postgresql", "pg", ["team", "team"]⟩,
  ⟨"postgresql", "pg", ["crm", "shop", "shop", "crm"]⟩,
  ⟨"postgresql", "pg", ["team", "team"]⟩]

/-- Both batches are accepted with the same entries, and so the entry that was stored before is claimed by its own target. -/
theorem permanent_rules_exact_of_sampleBatch :
    let b := replay (.numbered 1) sampleWrites
    let b' := b.run (.numbered 1) 9 (.putPermanentRules sampleBatch)
    let entries := [⟨"crm", "postgresql", "pg"⟩, ⟨"shop", "postgresql", "pg"⟩, ⟨"team", "postgresql", "pg"⟩]
    b.store.AdmitsPermanent sampleBatch ∧
      (b.store.setPermanentRules sampleBatch).toOption.map (·.1) = some entries ∧
      (∀ e, e ∈ b'.store.permanentEntriesOf none ↔ e ∈ b.store.permanentEntriesOf none ∨ ClaimedBy sampleBatch e) ∧
      (b.store.setPermanentRules sampleRearranged).toOption.map (·.1) = some entries := by
  intro b b' entries
  obtain ⟨haccepted, hstored, -, hrearranged⟩ := permanent_rules_exact (.numbered 1) sampleWrites 9 sampleBatch
  have hok : (b.store.setPermanentRules sampleBatch).isOk = true := by decide +kernel
  have hentries : (b.store.setPermanentRules sampleBatch).toOption.map (·.1) = some entries := by decide +kernel
  have hsame : SameBatch sampleBatch sampleRearranged := by
    have hnamespaces : SameBatch sampleBatch (sampleBatch.map fun r => { r with namespaces := r.namespaces.reverse ++ r.namespaces }) :=
      .of_namespaces (by simp)
    exact hnamespaces.trans (.of_mem_iff fun r => by grind [sampleBatch, sampleRearranged])
  refine ⟨haccepted.mp hok, hentries, fun e => ?_, ?_⟩
  · cases hout : b.store.setPermanentRules sampleBatch with
    | error reason => simp [hout, Except.isOk, Except.toBool] at hok
    | ok out =>
      obtain ⟨hrun, -, hmem, -⟩ := hstored out.1 out.2 hout
      have hstore : b'.store = out.2 := congrArg Broker.store hrun
      rw [hstore]
      exact hmem e
  · rw [hrearranged sampleRearranged hsame]
    exact hentries

end DatabaseBroker
