import DatabaseBroker.Proofs.Binding.Agreement
import DatabaseBroker.Proofs.Binding.Legacy

/-!
# Which classifiers a request may have

The classifier of a request is read from an object, and refused unless the object has one of two forms: the current one, or the
one from before scopes. A request goes through five checks in turn, and what they come to together is said here in terms of the
object alone (`classifier_refused_iff`).

The two forms are not all that is accepted. A value under `scope` that is neither a text nor a container counts as no scope, so an
object that holds one is read as if it were from before scopes (`Classifier.ScopeOverlooked`).
-/

namespace DatabaseBroker

namespace Classifier

variable {m : KeyMap Json} {c : Classifier}

/-! ## Forms of objects -/

/-- A known key holds a text that is not blank. -/
def Names (m : KeyMap Json) (key : Key) : Prop := ∃ s, m.get? key.text = some (.string s) ∧ Text.isBlank s = false

/-- Every value is a scalar, apart from those under some keys. -/
def ScalarsBut (exempt : List String) (m : KeyMap Json) : Prop :=
  ∀ k j, k ∉ exempt → m.get? k = some j → j.isContainer = false

/-- The truth value of the marker in force: the first that is there, if it holds one. -/
def markerOf? (m : KeyMap Json) : Option Bool := (markerKeys.findSome? fun key => m.get? key).bind Json.asBool?

/-- The form with a scope. -/
structure CurrentForm (m : KeyMap Json) : Prop where
  ns : Names m .ns
  microserviceName : Names m .microserviceName
  scope : m.get? Key.scope.text = some (.string serviceScope) ∨
    m.get? Key.scope.text = some (.string tenantScope) ∧ Names m .tenantId
  scalars : ScalarsBut [] m

/-- The form from before scopes, whatever there is under the key of the scope. -/
structure LegacyForm (m : KeyMap Json) : Prop where
  ns : Names m .ns
  microserviceName : Names m .microserviceName
  tenantId : ∀ s, m.get? Key.tenantId.text = some (.string s) → markerOf? m ≠ some true → Text.isBlank s = false
  scalars : ScalarsBut markerKeys m

/-- The two forms that a classifier may have. -/
def WellFormed (m : KeyMap Json) : Prop := CurrentForm m ∨ m.get? Key.scope.text = none ∧ LegacyForm m

/-- A scope that is there and is no text, in an object that has the form from before scopes otherwise. -/
structure ScopeOverlooked (m : KeyMap Json) : Prop where
  scope : ∃ j, m.get? Key.scope.text = some j ∧ j.asText? = none
  rest : LegacyForm m

/-- The text under a key is there exactly when the key holds it. -/
theorem textAt?_eq_some_iff {k s : String} : textAt? m k = some s ↔ m.get? k = some (.string s) := by
  simp only [textAt?, Option.bind_eq_some_iff, Json.asText?_eq_some_iff, exists_eq_right]

/-- There is no text under a key that holds nothing, or something else. -/
theorem textAt?_eq_none_iff {k : String} :
    textAt? m k = none ↔ m.get? k = none ∨ ∃ j, m.get? k = some j ∧ j.asText? = none := by
  rw [textAt?]
  cases m.get? k <;> simp

/-- An object whose scope is none of the two is of neither form. -/
theorem not_wellFormed_of_scope {j : Json} (hj : m.get? Key.scope.text = some j) (hservice : j ≠ .string serviceScope)
    (htenant : j ≠ .string tenantScope) : ¬ WellFormed m := by
  rintro (hcurrent | ⟨hmissing, -⟩)
  · rcases hcurrent.scope with hs | ⟨hs, -⟩
    · exact hservice (Option.some.inj (hj.symm.trans hs))
    · exact htenant (Option.some.inj (hj.symm.trans hs))
  · rw [hj] at hmissing
    cases hmissing

/-- An object whose scope is overlooked is of neither form. -/
theorem ScopeOverlooked.not_wellFormed (h : ScopeOverlooked m) : ¬ WellFormed m := by
  obtain ⟨j, hj, htext⟩ := h.scope
  have hne : ∀ s, j ≠ .string s := by
    rintro s rfl
    cases htext
  exact not_wellFormed_of_scope hj (hne _) (hne _)

/-! ## What the parts of an object say of it -/

/-- A part of an object's classifier is a text that is not blank exactly when the object names it. -/
theorem part_names_iff {key : Key} : (∃ s, (ofMap m).part key = some s ∧ Text.isBlank s = false) ↔ Names m key := by
  simp only [part_ofMap, textAt?_eq_some_iff, Names]

/-- A value that is no text is an extension exactly when the object holds it. -/
theorem get?_extensions_ofMap_iff {k : String} {j : Json} (hj : j.asText? = none) :
    (ofMap m).extensions.get? k = some j ↔ m.get? k = some j := by
  refine ⟨get?_of_extensions_ofMap, fun h => ?_⟩
  by_cases hk : ∃ key : Key, key.text = k
  · obtain ⟨key, rfl⟩ := hk
    have htext : textAt? m key.text = none := textAt?_eq_none_iff.mpr (Or.inr ⟨j, h, hj⟩)
    rw [get?_extensions_ofMap_key, htext]
    exact h
  · rw [get?_extensions_ofMap_of_ne m fun key hkey => hk ⟨key, hkey⟩]
    exact h

/-- The extensions are scalars where the values of the object are, since what is taken out of it are texts. -/
theorem scalarsBut_extensions_iff {exempt : List String} : ScalarsBut exempt (ofMap m).extensions ↔ ScalarsBut exempt m := by
  constructor
  · intro h k j hk hj
    cases hcontainer : j.isContainer with
    | false => rfl
    | true =>
      have htext : j.asText? = none := by cases j <;> first | rfl | cases hcontainer
      rw [← hcontainer]
      exact h k j hk ((get?_extensions_ofMap_iff htext).mpr hj)
  · exact fun h k j hk hj => h k j hk (get?_of_extensions_ofMap hj)

/-- The markers of an object are those of its classifier. -/
theorem marker?_ofMap : (ofMap m).marker? = markerOf? m := by
  have hother : ∀ key ∈ markerKeys, ∀ known : Key, known.text ≠ key := by
    intro key hkey known
    cases known <;> revert key <;> decide
  have hget : ∀ key ∈ markerKeys, (ofMap m).extensions.get? key = m.get? key := fun key hkey =>
    get?_extensions_ofMap_of_ne m (hother key hkey)
  simp only [marker?, markerOf?, markerKeys, List.findSome?_cons, List.findSome?_nil, hget _ List.mem_cons_self,
    hget _ (List.mem_cons_of_mem _ List.mem_cons_self)]

/-! ## The checks -/

/-- The strict check accepts the current form. -/
theorem valid_ofMap_iff : (ofMap m).Valid ↔ CurrentForm m := by
  have hscope : (ofMap m).scope = textAt? m Key.scope.text := part_ofMap m .scope
  constructor
  · intro h
    refine ⟨part_names_iff.mp h.ns, part_names_iff.mp h.microserviceName, ?_,
      scalarsBut_extensions_iff.mp fun k j _ => h.scalars k j⟩
    rw [← textAt?_eq_some_iff, ← textAt?_eq_some_iff, ← hscope]
    exact h.scope.imp_right (And.imp_right part_names_iff.mp)
  · intro h
    refine ⟨part_names_iff.mpr h.ns, part_names_iff.mpr h.microserviceName, ?_,
      fun k j => scalarsBut_extensions_iff.mpr h.scalars k j List.not_mem_nil⟩
    rw [hscope, textAt?_eq_some_iff, textAt?_eq_some_iff]
    exact h.scope.imp_right (And.imp_right part_names_iff.mpr)

/-- A classifier without a scope has a valid current shape when it names its namespace and its microservice, and its tenant where
it stands for a tenant's database, and its extensions but the markers are scalars. -/
theorem valid_toCurrent_iff (hscope : c.scope = none) :
    (∃ current, c.toCurrent? = some current ∧ current.Valid) ↔
      (∃ s, c.ns = some s ∧ Text.isBlank s = false) ∧ (∃ s, c.microserviceName = some s ∧ Text.isBlank s = false) ∧
        (∀ s, c.tenantId = some s → c.marker? ≠ some true → Text.isBlank s = false) ∧
        ScalarsBut markerKeys c.extensions := by
  have hne : tenantScope ≠ serviceScope := by decide
  have htenant : ∀ s, c.tenantId = some s → (c.isTenantLegacy = true ↔ c.marker? ≠ some true) := by
    intro s hs
    simp [isTenantLegacy, hs]
  have hexempt : ∀ k, k ∉ markerKeys ↔ ¬ (k = "isServiceDb" ∨ k = "isService") := by simp [markerKeys]
  constructor
  · rintro ⟨current, hcurrent, hvalid⟩
    obtain ⟨-, rfl⟩ := toCurrent?_eq_some hcurrent
    refine ⟨hvalid.ns, hvalid.microserviceName, fun s hs hmarker => ?_, fun k j hk hj => ?_⟩
    · have hlegacy := (htenant s hs).mpr hmarker
      rcases hvalid.scope with hservice | ⟨-, s', hs', hblank⟩
      · simp [hlegacy, hne] at hservice
      · simp only [hlegacy, if_true, hs, Option.some.injEq] at hs'
        rwa [hs']
    · refine hvalid.scalars k j ?_
      change c.unmarked.get? k = some j
      rw [get?_unmarked, if_neg ((hexempt k).mp hk)]
      exact hj
  · rintro ⟨hns, hmicroservice, htenantId, hscalars⟩
    have hnamed : c.microserviceName.isSome = true := Option.isSome_iff_exists.mpr (hmicroservice.imp fun _ h => h.1)
    refine ⟨_, toCurrent?_eq_some_iff.mpr ⟨hscope, hns, hnamed, rfl⟩, hns, hmicroservice, ?_, fun k j hj => ?_⟩
    · cases hlegacy : c.isTenantLegacy with
      | false => exact Or.inl rfl
      | true =>
        obtain ⟨s, hs⟩ := Option.isSome_iff_exists.mp (Bool.and_eq_true_iff.mp hlegacy).1
        exact Or.inr ⟨rfl, s, hs, htenantId s hs ((htenant s hs).mp hlegacy)⟩
    · change c.unmarked.get? k = some j at hj
      rw [get?_unmarked] at hj
      split at hj
      · cases hj
      · rename_i hk
        exact hscalars k j ((hexempt k).mpr hk) hj

/-- The checks that look for a legacy classifier accept the form from before scopes. -/
theorem modernize_valid_iff_of_noScope (hscope : (ofMap m).scope = none) :
    (∃ current, (ofMap m).modernize = .ok current ∧ current.Valid) ↔ LegacyForm m := by
  have hmodern : ∀ current, (ofMap m).modernize = .ok current ↔ (ofMap m).toCurrent? = some current := by
    intro current
    refine ⟨fun h => ?_, modernize_of_toCurrent?⟩
    simp only [modernize, isLegacy, hscope, Option.isNone_none, Bool.not_true, Bool.false_eq_true, if_false] at h
    split at h
    · rename_i hcurrent
      cases h
      exact hcurrent
    · cases h
  simp only [hmodern, valid_toCurrent_iff hscope, marker?_ofMap, scalarsBut_extensions_iff]
  rw [show (ofMap m).tenantId = textAt? m Key.tenantId.text from part_ofMap m .tenantId]
  simp only [textAt?_eq_some_iff]
  constructor
  · rintro ⟨hns, hmicroservice, htenant, hscalars⟩
    exact ⟨part_names_iff.mp hns, part_names_iff.mp hmicroservice, htenant, hscalars⟩
  · intro h
    exact ⟨part_names_iff.mpr h.ns, part_names_iff.mpr h.microserviceName, h.tenantId, h.scalars⟩

/-- The checks together accept an object exactly when it has one of the two forms, or its scope is overlooked. -/
theorem modernize_valid_iff :
    (∃ current, (ofMap m).modernize = .ok current ∧ current.Valid) ↔ WellFormed m ∨ ScopeOverlooked m := by
  have hscope : (ofMap m).scope = textAt? m Key.scope.text := part_ofMap m .scope
  cases htext : textAt? m Key.scope.text with
  | some scope =>
    have hmodern : (ofMap m).modernize = .ok (ofMap m) := modernize_of_scope (by rw [hscope, htext]; rfl)
    have hstated := textAt?_eq_some_iff.mp htext
    simp only [hmodern, Except.ok.injEq, exists_eq_left', valid_ofMap_iff]
    refine ⟨fun h => Or.inl (Or.inl h), ?_⟩
    rintro ((h | ⟨hnone, -⟩) | h)
    · exact h
    · rw [hstated] at hnone
      cases hnone
    · obtain ⟨j, hj, hno⟩ := h.scope
      obtain rfl : .string scope = j := Option.some.inj (hstated.symm.trans hj)
      cases hno
  | none =>
    rw [modernize_valid_iff_of_noScope (hscope.trans htext)]
    constructor
    · intro h
      rcases textAt?_eq_none_iff.mp htext with hnone | hother
      · exact Or.inl (Or.inr ⟨hnone, h⟩)
      · exact Or.inr ⟨hother, h⟩
    · rintro ((h | ⟨-, h⟩) | h)
      · rcases h.scope with hs | ⟨hs, -⟩
        · rw [textAt?_eq_some_iff.mpr hs] at htext
          cases htext
        · rw [textAt?_eq_some_iff.mpr hs] at htext
          cases htext
      · exact h
      · exact h.rest

end Classifier

/-! ## Refusals -/

variable {s : Store} {r : DatabaseRequest}

/-- A request in no namespace but its own is refused for its classifier exactly when that has no valid current shape. -/
theorem DatabaseRequest.identity_eq_error_iff (hns : r.ns = none) :
    (∃ reason, r.identity = .error reason) ↔ ¬ ∃ current, r.classifier.modernize = .ok current ∧ current.Valid := by
  constructor
  · rintro ⟨reason, hrefused⟩ ⟨current, hmodern, hvalid⟩
    obtain ⟨own, hown, -⟩ := hvalid.ns
    rw [identity_of_modernize hmodern hvalid hown (Or.inl hns)] at hrefused
    cases hrefused
  · intro hnone
    cases hidentity : r.identity with
    | error reason => exact ⟨reason, rfl⟩
    | ok found =>
      have hvalid := (identity_eq_ok hidentity).1
      simp only [identity, bind, Except.bind] at hidentity
      split at hidentity
      · cases hidentity
      rename_i current hmodern
      split at hidentity
      · cases hidentity
      split at hidentity
      · cases hidentity
      cases hidentity
      exact absurd ⟨current, hmodern, hvalid⟩ hnone

namespace Store

/-- What a request is answered with before a database is looked for says that its classifier is invalid exactly when it is. -/
theorem address_eq_invalid_iff {reason : ClassifierRefusal} :
    s.address r = .error (.answer (.invalidClassifier reason)) ↔ r.identity = .error reason := by
  unfold address
  split
  · rename_i reason' hidentity
    simp [hidentity]
  · rename_i c own hidentity
    rw [hidentity]
    split <;> simp

/-- A lookup and a request are answered that the classifier is invalid exactly when it is refused. -/
theorem Agreed.invalid_iff {now : UInt64} {newId : String} {looked : Except RoutingError BindingOutcome}
    {answer : Except RoutingError (BindingOutcome × Store)} (h : s.Agreed now newId r looked answer) (reason : ClassifierRefusal) :
    (looked = .ok (.invalidClassifier reason) ↔ r.identity = .error reason) ∧
      ((∃ s', answer = .ok (.invalidClassifier reason, s')) ↔ r.identity = .error reason) := by
  have hbound : ∀ db redirected, r.bound db redirected ≠ .invalidClassifier reason := by
    intro db redirected hbound
    rcases bound_cases r db redirected with h | h <;> rw [h] at hbound <;> cases hbound
  rw [← address_eq_invalid_iff (s := s)]
  cases h with
  | refused haddress => simp [haddress]
  | failed haddress => simp [haddress]
  | found haddress => simp [haddress, hbound]
  | upgraded haddress => simp [haddress, hbound]
  | created haddress => simp [haddress]
  | unplaced haddress => simp [haddress]
  | unpinned haddress => simp [haddress]

end Store

open Classifier

/-- Which objects are refused as classifiers: for every store, and every object given as the classifier of a request in no
namespace but its own,
1. a lookup and a request for the database are both answered that the classifier is invalid, or neither is, and with the same
   reason;
2. they are exactly when the object has neither form and its scope is not overlooked;
3. an overlooked scope is a scalar that is no text, and the object has neither form then;
4. so an object is refused exactly when it has neither form, if the key of its scope holds a text, a container or nothing;
5. and it is always refused when the key holds a container, or a text that is none of the two scopes. -/
theorem classifier_refused_iff (s : Store) (m : KeyMap Json) (dbType : String) (pin : Option String) (now : UInt64) (newId : String) :
    let r : DatabaseRequest := ⟨.ofMap m, dbType, none, pin⟩
    (∀ reason, s.lookup r = .ok (.invalidClassifier reason) ↔
      ∃ s', s.getOrCreate now newId r = .ok (.invalidClassifier reason, s')) ∧
    ((∃ reason, s.lookup r = .ok (.invalidClassifier reason)) ↔ ¬ WellFormed m ∧ ¬ ScopeOverlooked m) ∧
    (ScopeOverlooked m → ¬ WellFormed m ∧
      ∃ j, m.get? Key.scope.text = some j ∧ j.asText? = none ∧ j.isContainer = false) ∧
    ((∀ j, m.get? Key.scope.text = some j → j.asText?.isSome = true ∨ j.isContainer = true) →
      ((∃ reason, s.lookup r = .ok (.invalidClassifier reason)) ↔ ¬ WellFormed m)) ∧
    (∀ j, m.get? Key.scope.text = some j → j.asText?.isSome = true ∨ j.isContainer = true →
      j ≠ .string serviceScope → j ≠ .string tenantScope → ∃ reason, s.lookup r = .ok (.invalidClassifier reason)) := by
  intro r
  have hagreed := s.agreed now newId r
  have hrefused : (∃ reason, s.lookup r = .ok (.invalidClassifier reason)) ↔ ¬ WellFormed m ∧ ¬ ScopeOverlooked m := by
    simp only [(hagreed.invalid_iff _).1, DatabaseRequest.identity_eq_error_iff (r := r) rfl, r, modernize_valid_iff, not_or]
  have hscalar : ScopeOverlooked m → ∃ j, m.get? Key.scope.text = some j ∧ j.asText? = none ∧ j.isContainer = false := by
    intro h
    obtain ⟨j, hj, htext⟩ := h.scope
    exact ⟨j, hj, htext, h.rest.scalars _ j (by decide) hj⟩
  have hstated : (∀ j, m.get? Key.scope.text = some j → j.asText?.isSome = true ∨ j.isContainer = true) →
      ((∃ reason, s.lookup r = .ok (.invalidClassifier reason)) ↔ ¬ WellFormed m) := by
    intro hscope
    rw [hrefused]
    refine ⟨And.left, fun h => ⟨h, fun hoverlooked => ?_⟩⟩
    obtain ⟨j, hj, htext, hcontainer⟩ := hscalar hoverlooked
    rcases hscope j hj with hsome | hcontains
    · rw [htext] at hsome
      cases hsome
    · rw [hcontainer] at hcontains
      cases hcontains
  refine ⟨fun reason => ?_, hrefused, fun h => ⟨h.not_wellFormed, hscalar h⟩, hstated, fun j hj hkind hservice htenant => ?_⟩
  · rw [(hagreed.invalid_iff reason).1, (hagreed.invalid_iff reason).2]
  · rw [hstated fun j' hj' => Option.some.inj (hj.symm.trans hj') ▸ hkind]
    exact not_wellFormed_of_scope hj hservice htenant

/-! ## A scope that is null -/

/-- An object with null under the key of its scope. -/
def sampleNullScope : KeyMap Json :=
  .ofList [("namespace", .string "shop"), ("microserviceName", .string "cart"), ("scope", .null)]

/-- It has the form from before scopes otherwise. -/
theorem scopeOverlooked_of_sampleNullScope : ScopeOverlooked sampleNullScope where
  scope := ⟨.null, rfl, rfl⟩
  rest := by
    have hscalars : sampleNullScope.entries.all (fun e => !e.2.isContainer) = true := by decide
    refine ⟨⟨"shop", rfl, by decide⟩, ⟨"cart", rfl, by decide⟩, nofun, fun k j _ hj => ?_⟩
    simpa using List.all_eq_true.mp hscalars (k, j) (KeyMap.get?_eq_some_iff.mp hj)

/-- An object that has neither form may be accepted. -/
theorem null_scope_accepted :
    ¬ WellFormed sampleNullScope ∧
      Store.empty.lookup ⟨.ofMap sampleNullScope, "postgresql", none, none⟩ = .ok .notFound :=
  ⟨scopeOverlooked_of_sampleNullScope.not_wellFormed, rfl⟩

end DatabaseBroker
