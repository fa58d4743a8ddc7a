import DatabaseBroker.Proofs.Binding.Legacy
import DatabaseBroker.Proofs.Json.Sameness

/-!
# Round trips through the legacy shape

A classifier with a scope is written in the shape from before scopes and read back. That shape has no room for a scope, only for a
marker beside the tenant, and reading takes every marker for its own. So what comes back is the classifier itself when its scope is what
marker and tenant say, it has no marker of its own, and it names its namespace and its microservice, without which nothing is read
(`TwoShaped`). Any other classifier does not come back, and a client without scopes and a client with them do not mean one database by it
(`legacy_round_trip`).
-/

namespace DatabaseBroker

/-! ## Same maps -/

/-- Members that are the same have the same keys. -/
theorem Json.keys_of_sameMembers {l l' : List (String × Json)} (h : Json.sameMembers l l' = true) : l.map (·.1) = l'.map (·.1) := by
  induction l generalizing l' with
  | nil =>
    cases l' with
    | nil => rfl
    | cons _ _ => cases h
  | cons e rest ih =>
    cases l' with
    | nil => cases h
    | cons e' rest' =>
      rw [Json.sameMembers, Bool.and_eq_true, Bool.and_eq_true, beq_iff_eq] at h
      rw [List.map_cons, List.map_cons, h.1.1, ih h.2]

/-- A key that a map lacks is lacked by every map that is the same. -/
theorem KeyMap.get?_eq_none_of_same {m m' : KeyMap Json} (h : m.same m' = true) {k : String} (hnone : m.get? k = none) :
    m'.get? k = none := by
  have hmem : ∀ {m : KeyMap Json}, m.get? k = none ↔ k ∉ m.entries.map (·.1) := by
    intro m
    simp only [Option.eq_none_iff_forall_ne_some, ne_eq, KeyMap.get?_eq_some_iff, List.mem_map, Prod.exists, exists_and_right,
      exists_eq_right, not_exists]
  rw [hmem] at hnone ⊢
  rwa [← Json.keys_of_sameMembers h]

namespace Classifier

/-- Classifiers are the same when their parts are equal and their extensions are the same. -/
theorem same_iff {a b : Classifier} :
    a.same b = true ↔ a.ns = b.ns ∧ a.microserviceName = b.microserviceName ∧ a.scope = b.scope ∧ a.tenantId = b.tenantId ∧
      a.extensions.same b.extensions = true := by
  simp only [same, Bool.and_eq_true, beq_iff_eq, and_assoc]

theorem same_refl (c : Classifier) : c.same c = true :=
  same_iff.mpr ⟨rfl, rfl, rfl, rfl, Json.sameMembers_refl _⟩

/-! ## Writing the shape from before scopes -/

/-- Extensions without markers are what they are with them when there are none. -/
theorem unmarked_eq_iff {c : Classifier} : c.unmarked = c.extensions ↔ ∀ key ∈ markerKeys, c.extensions.get? key = none := by
  constructor
  · intro h key hkey
    rw [← h, get?_unmarked, if_pos (by simpa [markerKeys] using hkey)]
  · intro h
    refine KeyMap.ext_get? fun k => ?_
    rw [get?_unmarked]
    split
    · rename_i hkey
      exact (h k (by simpa [markerKeys] using hkey)).symm
    · rfl

/-- A classifier with a scope as a client without scopes would write it. -/
def beforeScopes (c : Classifier) (scope : String) : Classifier :=
  { c with scope := none, extensions := c.extensions.insert "isServiceDb" (.bool (scope = serviceScope)) }

/-- The legacy equivalent of a classifier is this shape of it. -/
theorem legacyEquivalent?_of_scope {c : Classifier} {scope : String} (hscope : c.scope = some scope) :
    c.legacyEquivalent? = some (c.beforeScopes scope) := by
  rw [legacyEquivalent?, hscope]
  rfl

section BeforeScopes

variable (c : Classifier) (scope : String)

/-- The marker in force is the one that is written, also over a marker of either name. -/
theorem marker?_beforeScopes : (c.beforeScopes scope).marker? = some (decide (scope = serviceScope)) := by
  simp [marker?, beforeScopes, markerKeys, Json.asBool?]

/-- Reading takes away the marker that is written, and the markers that were there. -/
theorem unmarked_beforeScopes : (c.beforeScopes scope).unmarked = c.unmarked := by
  refine KeyMap.ext_get? fun k => ?_
  rw [get?_unmarked, get?_unmarked]
  split
  · rfl
  · rename_i hkey
    rw [beforeScopes, KeyMap.get?_insert_of_ne _ _ fun h => hkey (Or.inl h.symm)]

/-- It is read as a tenant's database where it names a tenant and the scope is another than the service's. -/
theorem isTenantLegacy_beforeScopes :
    (c.beforeScopes scope).isTenantLegacy = (c.tenantId.isSome && decide (scope ≠ serviceScope)) := by
  rw [isTenantLegacy, marker?_beforeScopes]
  by_cases hservice : scope = serviceScope <;> simp [hservice, beforeScopes]

/-- What is read back of a classifier that names its namespace and its microservice: the scope that its tenant leaves to the written
marker, and of its extensions those that are no markers. -/
theorem toCurrent?_beforeScopes {current : Classifier} :
    (c.beforeScopes scope).toCurrent? = some current ↔
      (∃ ns, c.ns = some ns ∧ Text.isBlank ns = false) ∧ c.microserviceName.isSome = true ∧
        current =
          let tenant := c.tenantId.isSome && decide (scope ≠ serviceScope)
          { c with
            scope := some (if tenant then tenantScope else serviceScope)
            tenantId := if tenant then c.tenantId else none
            extensions := c.unmarked } := by
  rw [toCurrent?_eq_some_iff, isTenantLegacy_beforeScopes, unmarked_beforeScopes]
  exact and_iff_right rfl

end BeforeScopes

/-! ## The round trip -/

/-- A classifier that both shapes can tell in full. -/
structure TwoShaped (c : Classifier) : Prop where
  ns : ∃ ns, c.ns = some ns ∧ Text.isBlank ns = false
  microserviceName : c.microserviceName.isSome = true
  unmarked : ∀ key ∈ markerKeys, c.extensions.get? key = none
  scope : c.scope = some serviceScope ∧ c.tenantId = none ∨ c.scope = some tenantScope ∧ c.tenantId.isSome = true

/-- Scope and tenant are read back as they were where the scope is the service's without a tenant, or the tenant's with one. -/
theorem readBack_iff {scope : String} {tenantId : Option String} :
    let tenant := tenantId.isSome && decide (scope ≠ serviceScope)
    (if tenant then tenantScope else serviceScope) = scope ∧ (if tenant then tenantId else none) = tenantId ↔
      scope = serviceScope ∧ tenantId = none ∨ scope = tenantScope ∧ tenantId.isSome = true := by
  have hne : tenantScope ≠ serviceScope := by decide
  intro tenant
  cases tenantId with
  | none => simpa [tenant] using eq_comm
  | some t =>
    -- the scope of the service loses the tenant, and every other scope is read back as the tenant's
    by_cases hservice : scope = serviceScope
    · simp [tenant, hservice, hne.symm]
    · simp [tenant, hservice, eq_comm]

/-- A classifier that both shapes can tell in full is read back as it was. -/
theorem TwoShaped.readBack {c : Classifier} (h : c.TwoShaped) {scope : String} (hscope : c.scope = some scope) :
    (c.beforeScopes scope).toCurrent? = some c := by
  have hshape : scope = serviceScope ∧ c.tenantId = none ∨ scope = tenantScope ∧ c.tenantId.isSome = true := by
    simpa only [hscope, Option.some.injEq] using h.scope
  obtain ⟨hread, htenant⟩ := readBack_iff.mpr hshape
  refine (toCurrent?_beforeScopes c scope).mpr ⟨h.ns, h.microserviceName, ?_⟩
  simp only [unmarked_eq_iff.mpr h.unmarked, hread, htenant, ← hscope]

/-- A classifier that is read back as the same can be told in full by both shapes. -/
theorem twoShaped_of_same {c current : Classifier} {scope : String} (hscope : c.scope = some scope)
    (hcurrent : (c.beforeScopes scope).toCurrent? = some current) (hsame : current.same c = true) : c.TwoShaped := by
  obtain ⟨hns, hmicroservice, rfl⟩ := (toCurrent?_beforeScopes c scope).mp hcurrent
  obtain ⟨-, -, hread, htenant, hextensions⟩ := same_iff.mp hsame
  refine ⟨hns, hmicroservice, fun key hkey => KeyMap.get?_eq_none_of_same hextensions ?_, ?_⟩
  · rw [get?_unmarked, if_pos (by simpa [markerKeys] using hkey)]
  · simp only [hscope, Option.some.injEq] at hread ⊢
    exact readBack_iff.mp ⟨hread, htenant⟩

/-- A classifier with a scope has a legacy equivalent, and that is a legacy classifier. Its current shape is
1. the classifier itself,
2. a classifier that is the same,
exactly when both shapes can tell the classifier in full. -/
theorem legacy_round_trip {c : Classifier} (hscope : c.scope.isSome = true) :
    ∃ legacy, c.legacyEquivalent? = some legacy ∧ legacy.isLegacy = true ∧
      (legacy.toCurrent? = some c ↔ c.TwoShaped) ∧
      ((∃ current, legacy.toCurrent? = some current ∧ current.same c = true) ↔ c.TwoShaped) := by
  obtain ⟨scope, hscope⟩ := Option.isSome_iff_exists.mp hscope
  refine ⟨c.beforeScopes scope, legacyEquivalent?_of_scope hscope, rfl, ⟨fun hback => ?_, fun htwo => htwo.readBack hscope⟩,
    ⟨?_, fun htwo => ⟨c, htwo.readBack hscope, c.same_refl⟩⟩⟩
  · exact twoShaped_of_same hscope hback c.same_refl
  · rintro ⟨current, hcurrent, hsame⟩
    exact twoShaped_of_same hscope hcurrent hsame

/-- The classifier of a tenant's database survives both shapes. One with the scope of a service that names a tenant does not, valid as
it is. -/
theorem legacy_round_trip_of_tenant :
    let kept := tenant "shop" "cart" "t-1"
    let changed := { service "shop" "cart" with tenantId := some "t-1" }
    (∃ legacy, kept.legacyEquivalent? = some legacy ∧ legacy.toCurrent? = some kept) ∧
      changed.Valid ∧ ∃ legacy, changed.legacyEquivalent? = some legacy ∧ legacy.toCurrent? ≠ some changed := by
  intro kept changed
  obtain ⟨legacy, hlegacy, -, hkept, -⟩ := legacy_round_trip (c := kept) rfl
  obtain ⟨legacy', hlegacy', -, hchanged, -⟩ := legacy_round_trip (c := changed) rfl
  refine ⟨⟨legacy, hlegacy, hkept.mpr ⟨⟨"shop", rfl, by decide⟩, rfl, by decide, Or.inr ⟨rfl, rfl⟩⟩⟩,
    validate_eq_ok_iff.mp (by decide +kernel), legacy', hlegacy', fun hback => ?_⟩
  rcases (hchanged.mp hback).scope with ⟨-, hnone⟩ | ⟨hscope, -⟩
  · cases hnone
  · exact absurd (Option.some.inj hscope) (by decide)

end Classifier

end DatabaseBroker
