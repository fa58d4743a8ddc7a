import DatabaseBroker.Proofs.Binding.Addresses
import DatabaseBroker.Proofs.Effects
import DatabaseBroker.Proofs.Store.Registry

/-!
# Domains stay flat

A domain that is stored passed two checks: its members by themselves are named, distinct and one active at most (`SoundMembers`),
and beside the stored domains none of them is a controller and the controller is no member (`domainConflict?_eq_none_iff`). Each check
looks at the store as it is, so that no namespace is a controller and a member at once has to be kept by every operation
(`Broker.domainsFlat_run`); only operations on domains write the table that it speaks of. So a redirection takes one step: where it
leads there is no controller (`domains_flat`).
-/

namespace DatabaseBroker

/-! ## What is checked -/

/-- Members that make a domain of a controller, by themselves. -/
structure SoundMembers (controller : String) (members : List Member) : Prop where
  nonempty : members ≠ []
  named : ∀ m ∈ members, Text.isBlank m.ns = false
  other : ∀ m ∈ members, m.ns ≠ controller
  distinct : (members.map (·.ns)).Nodup
  active : members.countP (·.state = .active) ≤ 1

/-- The walk over the members finds nothing where they are named, other than the controller, distinct and not seen before. -/
theorem memberProblem?_eq_none_iff {controller : String} {seen : List String} {members : List Member} :
    memberProblem? controller seen members = none ↔
      (∀ m ∈ members, Text.isBlank m.ns = false) ∧ (∀ m ∈ members, m.ns ≠ controller) ∧
        (∀ m ∈ members, m.ns ∉ seen) ∧ (members.map (·.ns)).Nodup := by
  induction members generalizing seen with
  | nil => simp [memberProblem?]
  | cons m rest ih =>
    simp only [memberProblem?, List.forall_mem_cons, List.map_cons, List.nodup_cons]
    by_cases hblank : Text.isBlank m.ns = true
    · simp [hblank]
    by_cases hcontroller : m.ns = controller
    · subst hcontroller
      simp [hblank]
    by_cases hseen : m.ns ∈ seen
    · simp [hblank, hcontroller, hseen]
    have hfresh : (∀ m' ∈ rest, m'.ns ∉ m.ns :: seen) ↔ (∀ m' ∈ rest, m'.ns ∉ seen) ∧ m.ns ∉ rest.map (·.ns) := by
      simp only [List.mem_cons, not_or, forall_and, List.mem_map, not_exists, not_and]
      exact and_comm
    simp only [hblank, hcontroller, hseen, Bool.false_eq_true, if_false, List.contains_eq_mem, decide_false, ih, hfresh]
    simp only [ne_eq, hcontroller, not_false_eq_true, true_and, and_assoc]

/-- The check of members by themselves. -/
theorem membersProblem?_eq_none_iff {controller : String} {members : List Member} :
    membersProblem? controller members = none ↔ SoundMembers controller members := by
  unfold membersProblem?
  dsimp only
  split
  · rename_i hempty
    exact iff_of_false nofun fun h => h.nonempty (List.isEmpty_iff.mp hempty)
  rename_i hnonempty
  split
  · rename_i hmany
    exact iff_of_false nofun fun h => absurd h.active (Nat.not_le_of_gt hmany)
  rename_i hactive
  rw [memberProblem?_eq_none_iff]
  constructor
  · rintro ⟨hnamed, hother, -, hdistinct⟩
    exact ⟨fun h => hnonempty (List.isEmpty_iff.mpr h), hnamed, hother, hdistinct, Nat.le_of_not_gt hactive⟩
  · exact fun h => ⟨h.named, h.other, by simp, h.distinct⟩

namespace Store

/-- The check of a domain beside the others: no member is a controller, and the controller is no member of another domain. -/
theorem domainConflict?_eq_none_iff {s : Store} {controller : String} {members : List Member} :
    s.domainConflict? controller members = none ↔
      (∀ m ∈ members, s.domain? m.ns = none) ∧
        ∀ d ∈ s.domains.values, d.controller ≠ controller → ∀ m ∈ d.members, m.ns ≠ controller := by
  unfold domainConflict?
  split
  · rename_i m hm
    have hcontroller := List.find?_some hm
    refine iff_of_false nofun fun h => ?_
    rw [h.1 m (List.mem_of_find?_eq_some hm)] at hcontroller
    cases hcontroller
  · rename_i hnone
    have hmembers : ∀ m ∈ members, s.domain? m.ns = none := by simpa using hnone
    rw [Option.map_eq_none_iff, List.find?_eq_none]
    simp only [List.mem_filter, decide_eq_true_eq, List.any_eq_true, not_exists, not_and, and_imp]
    exact (and_iff_right hmembers).symm

/-- A domain is stored exactly where both checks pass. -/
theorem setDomain_isOk_iff {s : Store} {now : UInt64} {controller : String} {members : List Member} :
    (s.setDomain now controller members).isOk = true ↔
      SoundMembers controller members ∧ s.domainConflict? controller members = none := by
  rw [← membersProblem?_eq_none_iff, ← Option.or_eq_none_iff]
  unfold setDomain
  rw [Option.orElse_eq_orElse, Option.orElse_eq_or]
  split
  · rename_i hproblem
    exact iff_of_false nofun fun h => by rw [hproblem] at h; cases h
  · rename_i hnone
    exact iff_of_true rfl hnone

/-! ## What is kept -/

/-- Every domain stands under its controller, with members that make a domain, and none of them is a controller. -/
structure DomainsFlat (s : Store) : Prop where
  own : ∀ controller d, s.domain? controller = some d → d.controller = controller
  sound : ∀ controller d, s.domain? controller = some d → SoundMembers controller d.members
  flat : ∀ controller d, s.domain? controller = some d → ∀ m ∈ d.members, s.domain? m.ns = none

namespace DomainsFlat

variable {s s' : Store}

theorem empty : Store.empty.DomainsFlat := by
  constructor <;> simp [Store.empty, domain?]

/-- It is said of the table of domains only. -/
theorem of_domains (h : s.DomainsFlat) (hsame : s'.domains = s.domains) : s'.DomainsFlat := by
  have hdomain : ∀ ns, s'.domain? ns = s.domain? ns := fun ns => by rw [domain?, domain?, hsame]
  exact ⟨by simpa only [hdomain] using h.own, by simpa only [hdomain] using h.sound, by simpa only [hdomain] using h.flat⟩

/-- A domain that is stored keeps domains flat: its members were no controllers and are not its own, and its controller was a member
of no other domain. -/
theorem setDomain (h : s.DomainsFlat) {now : UInt64} {controller : String} {members : List Member} {d : Domain}
    (hok : s.setDomain now controller members = .ok (d, s')) : s'.DomainsFlat := by
  have hisOk : (s.setDomain now controller members).isOk = true := by
    rw [hok]
    rfl
  obtain ⟨hsound, hconflict⟩ := setDomain_isOk_iff.mp hisOk
  obtain ⟨hmembers, hothers⟩ := domainConflict?_eq_none_iff.mp hconflict
  obtain ⟨-, rfl⟩ := setDomain_eq_ok hok
  have hdomain : ∀ ns, (s.putDomain ⟨controller, members, now⟩).domain? ns =
      if controller = ns then some ⟨controller, members, now⟩ else s.domain? ns := fun ns => KeyMap.get?_insert ..
  have hstored : ∀ ns d, (s.putDomain ⟨controller, members, now⟩).domain? ns = some d →
      (controller = ns ∧ d = ⟨controller, members, now⟩) ∨ (controller ≠ ns ∧ s.domain? ns = some d) := by
    intro ns d hd
    rw [hdomain] at hd
    split at hd
    · rename_i heq
      exact Or.inl ⟨heq, (Option.some.inj hd).symm⟩
    · rename_i hne
      exact Or.inr ⟨hne, hd⟩
  refine ⟨fun ns d hd => ?_, fun ns d hd => ?_, fun ns d hd m hm => ?_⟩
  · rcases hstored ns d hd with ⟨rfl, rfl⟩ | ⟨-, hd⟩
    · rfl
    · exact h.own ns d hd
  · rcases hstored ns d hd with ⟨rfl, rfl⟩ | ⟨-, hd⟩
    · exact hsound
    · exact h.sound ns d hd
  · -- A member of the new domain was no controller and is not this one; a member of another domain is not this one, either.
    rcases hstored ns d hd with ⟨rfl, rfl⟩ | ⟨hne, hd⟩
    · rw [hdomain, if_neg (hsound.other m hm).symm]
      exact hmembers m hm
    · have hother : d.controller ≠ controller := fun heq => hne (heq.symm.trans (h.own ns d hd))
      rw [hdomain, if_neg (hothers d (KeyMap.mem_values_iff.mpr ⟨ns, hd⟩) hother m hm).symm]
      exact h.flat ns d hd m hm

/-- Deleting a domain keeps domains flat. -/
theorem deleteDomain (h : s.DomainsFlat) (controller : String) : (s.deleteDomain controller).DomainsFlat := by
  have hdomain : ∀ ns, (s.deleteDomain controller).domain? ns = if controller = ns then none else s.domain? ns :=
    fun ns => KeyMap.get?_erase ..
  have hstored : ∀ ns d, (s.deleteDomain controller).domain? ns = some d → s.domain? ns = some d := by
    intro ns d hd
    rw [hdomain] at hd
    split at hd
    · cases hd
    · exact hd
  refine ⟨fun ns d hd => h.own ns d (hstored ns d hd), fun ns d hd => h.sound ns d (hstored ns d hd), fun ns d hd m hm => ?_⟩
  rw [hdomain, h.flat ns d (hstored ns d hd) m hm, ite_self]

/-- Where a redirection leads there is no controller, and from there nothing is redirected. -/
theorem redirect (h : s.DomainsFlat) {c : Classifier} {dbType ns : String} {there : Redirection}
    (hok : s.redirect c dbType ns = .ok there) (hredirected : there.redirected = true) :
    s.domain? there.ns = none ∧ s.redirect there.classifier dbType there.ns = .ok { there with redirected := false } := by
  rcases redirect_eq_ok hok with rfl | ⟨d, m, hd, hm, rfl⟩
  · cases hredirected
  · have hnone := h.flat ns d hd m hm
    refine ⟨hnone, ?_⟩
    simp only [Store.redirect, hnone, Option.isNone_none, Bool.true_or, if_true]
    rfl

end DomainsFlat

end Store

open Store

namespace Broker

variable {env : Surroundings} {b : Broker}

/-- An operation stores a domain, deletes one, or leaves the table of domains. -/
theorem domains_run (env : Surroundings) (b : Broker) (now : UInt64) (op : Operation) :
    (∃ controller members, op = .putDomain controller members) ∨
      (∃ controller, (b.run env now op).store = b.store.deleteDomain controller) ∨
      (b.run env now op).store.domains = b.store.domains := by
  have heffect := b.effect env now op
  generalize b.run env now op = b' at heffect
  cases heffect with
  | grouped => exact Or.inl ⟨_, _, rfl⟩
  | ungrouped => exact Or.inr (Or.inl ⟨_, rfl⟩)
  | decided hok => exact Or.inr (Or.inr (SameButRegistry.decided (decided_of_decide hok).2).domains)
  | acknowledged hcase => exact Or.inr (Or.inr (SameSettings.acknowledged hcase).domains)
  | continued hok => exact Or.inr (Or.inr (SameButRegistry.nextPortion hok).domains)
  | madeGlobal hok => exact Or.inr (Or.inr (SameButRegistry.setGlobal hok).domains)
  | @deregistered id _ s hok =>
    obtain ⟨p, -, -, -, rfl⟩ := deregister_eq_ok hok
    have hregistry := (SameButRegistry.discardMigration (b.store.removeRulesTo id).2 id).trans (.deletePhysical _ id)
    exact Or.inr (Or.inr (hregistry.domains.trans (sameButRules_removeRulesTo b.store id).domains))
  | bound hok => exact Or.inr (Or.inr (SameSettings.bound (bound_of_getOrCreate hok)).domains)
  | dropped hok => exact Or.inr (Or.inr (SameSettings.markForDrop hok).domains)
  | ruled hsame => exact Or.inr (Or.inr hsame.domains)
  | _ => exact Or.inr (Or.inr rfl)

/-- Each operation keeps domains flat. -/
theorem domainsFlat_run (h : b.store.DomainsFlat) (now : UInt64) (op : Operation) : (b.run env now op).store.DomainsFlat := by
  rcases b.domains_run env now op with ⟨controller, members, rfl⟩ | ⟨controller, hdeleted⟩ | hsame
  · exact b.keep_invariant (P := fun b => b.store.DomainsFlat) h fun d s hok => h.setDomain hok
  · rw [hdeleted]
    exact h.deleteDomain controller
  · exact h.of_domains hsame

/-- After every history domains are flat. -/
theorem domainsFlat_replay (env : Surroundings) (events : List Event) : (replay env events).store.DomainsFlat :=
  replay_invariant (P := fun b => b.store.DomainsFlat) .empty fun e _ _ h => domainsFlat_run h e.time e.operation

end Broker

/-- Domains stay flat. After every history:
1. every domain is stored under its controller and has a member, its members are not blank and distinct, and one of them at most is
   active;
2. no member of a domain is a controller;
3. where a redirection of any classifier for any type and namespace leads there is no controller, and a redirection from there changes
   nothing. -/
theorem domains_flat (env : Surroundings) (events : List Event) :
    let s := (replay env events).store
    (∀ controller d, s.domain? controller = some d →
      d.controller = controller ∧ d.members ≠ [] ∧ (∀ m ∈ d.members, Text.isBlank m.ns = false) ∧
        (d.members.map (·.ns)).Nodup ∧ d.members.countP (·.state = .active) ≤ 1) ∧
    (∀ controller d, s.domain? controller = some d → ∀ m ∈ d.members, s.domain? m.ns = none) ∧
    ∀ c dbType ns there, s.redirect c dbType ns = .ok there → there.redirected = true →
      s.domain? there.ns = none ∧ s.redirect there.classifier dbType there.ns = .ok { there with redirected := false } := by
  intro s
  have h : s.DomainsFlat := Broker.domainsFlat_replay env events
  refine ⟨fun controller d hd => ?_, h.flat, fun c dbType ns there => h.redirect⟩
  have hsound := h.sound controller d hd
  exact ⟨h.own controller d hd, hsound.nonempty, hsound.named, hsound.distinct, hsound.active⟩

/-- A domain is written, replaced, and joined by another one; what would make a chain is refused. -/
def sampleDomains : List Event := [
  ⟨1, .putDomain "shop" [⟨"shop-blue", .active, none⟩, ⟨"shop-green", .idle, none⟩]⟩,
  ⟨2, .putDomain "shop-blue" [⟨"shop-red", .active, none⟩]⟩,
  ⟨3, .putDomain "front" [⟨"shop", .active, none⟩]⟩,
  ⟨4, .putDomain "shop" [⟨"shop-green", .active, none⟩]⟩,
  ⟨5, .putDomain "shop-blue" [⟨"shop-red", .active, none⟩]⟩]

/-- A request for `shop` is redirected once. -/
theorem redirect_of_sampleDomains :
    let s := (replay (.numbered 1) sampleDomains).store
    ∃ there, s.redirect (.service "shop" "cart") "postgresql" "shop" = .ok there ∧ there.redirected = true ∧
      there.ns = "shop-green" ∧ s.domain? there.ns = none ∧
      s.redirect there.classifier "postgresql" there.ns = .ok { there with redirected := false } := by
  intro s
  have hthere : s.redirect (.service "shop" "cart") "postgresql" "shop" =
      .ok ⟨.service "shop-green" "cart", "shop-green", true⟩ := rfl
  have honce := (domains_flat (.numbered 1) sampleDomains).2.2 _ _ _ _ hthere rfl
  exact ⟨_, hthere, rfl, rfl, honce⟩

end DatabaseBroker
