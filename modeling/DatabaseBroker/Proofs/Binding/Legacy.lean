import DatabaseBroker.Proofs.Binding.Addresses

/-!
# Databases of clients without scopes

A database that is stored under a legacy classifier is looked for under the classifier as it is respelled: in the current shape
and back again. Respelling writes the marker `isServiceDb` and no other, and drops the tenant of a microservice's own database.
So a legacy classifier leads to the database that is stored under it when it is spelled that way itself (`Classifier.Marked`),
and when it is not, the request misses the database (`legacy_binding`). A classifier without a marker is one of these
(`legacy_binding_missed`).
-/

namespace DatabaseBroker

namespace Classifier

/-! ## Respelling -/

/-- A legacy classifier that says by `isServiceDb`, and by no other marker, whether it names no tenant. -/
structure Marked (c : Classifier) : Prop where
  marker : c.extensions.get? "isServiceDb" = some (.bool c.tenantId.isNone)
  alone : c.extensions.get? "isService" = none

/-- A legacy classifier in the spelling that it is looked for under. -/
def respelled (c : Classifier) : Classifier :=
  { c with
    tenantId := if c.isTenantLegacy then c.tenantId else none
    extensions := c.unmarked.insert "isServiceDb" (.bool !c.isTenantLegacy) }

/-- The legacy check asks for a namespace, and for a microservice or a tenant. -/
theorem validateLegacy_eq_ok_iff {c : Classifier} :
    c.validateLegacy = .ok () ↔
      (∃ ns, c.ns = some ns ∧ Text.isBlank ns = false) ∧ (c.microserviceName.isSome = true ∨ c.tenantId.isSome = true) := by
  cases hns : require .ns c.ns with
  | error v =>
    have hmissing : ¬ ∃ ns, c.ns = some ns ∧ Text.isBlank ns = false := by
      rintro ⟨ns, hok⟩
      rw [require_eq_ok_iff.mpr hok] at hns
      cases hns
    simp only [validateLegacy, hns, bind, Except.bind, reduceCtorEq, hmissing, false_and]
  | ok ns =>
    have hgiven : ∃ ns, c.ns = some ns ∧ Text.isBlank ns = false := ⟨ns, require_eq_ok_iff.mp hns⟩
    cases hmicroservice : c.microserviceName <;> cases htenant : c.tenantId <;>
      simp [validateLegacy, hns, bind, Except.bind, hgiven, hmicroservice, htenant]

/-- A classifier has a current shape when it has no scope and names its namespace and its microservice; the shape is made of the
marker, the tenant and what else there is. -/
theorem toCurrent?_eq_some_iff {c current : Classifier} :
    c.toCurrent? = some current ↔
      c.scope = none ∧ (∃ ns, c.ns = some ns ∧ Text.isBlank ns = false) ∧ c.microserviceName.isSome = true ∧
        current =
          { c with
            scope := some (if c.isTenantLegacy then tenantScope else serviceScope)
            tenantId := if c.isTenantLegacy then c.tenantId else none
            extensions := c.unmarked } := by
  have haccepted : (violation? c.validateLegacy).isSome = false ↔ c.validateLegacy = .ok () := by
    cases c.validateLegacy <;> simp [violation?]
  constructor
  · intro h
    unfold toCurrent? at h
    split at h
    · cases h
    · rename_i hcheck
      cases h
      simp only [Bool.or_eq_true, not_or, Bool.not_eq_true, Bool.not_eq_false', haccepted, validateLegacy_eq_ok_iff, isLegacy,
        Option.isNone_iff_eq_none] at hcheck
      exact ⟨hcheck.1.1, hcheck.1.2.1, Option.ne_none_iff_isSome.mp hcheck.2, rfl⟩
  · rintro ⟨hscope, hns, hmicroservice, rfl⟩
    have hok := haccepted.mpr (validateLegacy_eq_ok_iff.mpr ⟨hns, Or.inl hmicroservice⟩)
    have hnamed : c.microserviceName.isNone = false := Option.isNone_eq_false_iff.mpr hmicroservice
    simp only [toCurrent?, isLegacy, hscope, hok, hnamed, Option.isNone_none, Bool.not_true, Bool.or_self, Bool.false_eq_true,
      if_false]

/-- What the current shape of a legacy classifier is made of. -/
theorem toCurrent?_eq_some {c current : Classifier} (h : c.toCurrent? = some current) :
    c.scope = none ∧ current =
      { c with
        scope := some (if c.isTenantLegacy then tenantScope else serviceScope)
        tenantId := if c.isTenantLegacy then c.tenantId else none
        extensions := c.unmarked } := by
  obtain ⟨hscope, -, -, hcurrent⟩ := toCurrent?_eq_some_iff.mp h
  exact ⟨hscope, hcurrent⟩

/-- A legacy classifier with a current shape is brought into it. -/
theorem modernize_of_toCurrent? {c current : Classifier} (h : c.toCurrent? = some current) : c.modernize = .ok current := by
  have hlegacy : c.isLegacy = true := by rw [isLegacy, (toCurrent?_eq_some h).1, Option.isNone_none]
  simp only [modernize, hlegacy, Bool.not_true, Bool.false_eq_true, if_false, h]

/-- The legacy equivalent of the current shape is the respelled classifier. -/
theorem legacyEquivalent?_of_toCurrent? {c current : Classifier} (h : c.toCurrent? = some current) :
    current.legacyEquivalent? = some c.respelled := by
  obtain ⟨hscope, rfl⟩ := toCurrent?_eq_some h
  have hne : tenantScope ≠ serviceScope := by decide
  cases htenant : c.isTenantLegacy <;> simp [legacyEquivalent?, respelled, htenant, hscope, hne]

/-- Without markers, the extensions are what they are under other keys. -/
theorem get?_unmarked (c : Classifier) (k : String) :
    c.unmarked.get? k = if k = "isServiceDb" ∨ k = "isService" then none else c.extensions.get? k := by
  simp only [unmarked, markerKeys, List.foldl_cons, List.foldl_nil, KeyMap.get?_erase]
  grind

/-- A marked classifier stands for a tenant's database exactly when it names a tenant. -/
theorem Marked.isTenantLegacy_eq {c : Classifier} (h : c.Marked) : c.isTenantLegacy = c.tenantId.isSome := by
  have hmarker : c.marker? = some c.tenantId.isNone := by
    simp [marker?, markerKeys, h.marker, Json.asBool?]
  cases htenant : c.tenantId <;> simp [isTenantLegacy, hmarker, htenant]

/-- A marked classifier is spelled as it is looked for. -/
theorem Marked.respelled_eq {c : Classifier} (h : c.Marked) : c.respelled = c := by
  have htenant := h.isTenantLegacy_eq
  have hextensions : c.unmarked.insert "isServiceDb" (.bool !c.tenantId.isSome) = c.extensions := by
    refine KeyMap.ext_get? fun k => ?_
    rw [KeyMap.get?_insert, get?_unmarked]
    by_cases hk : k = "isServiceDb"
    · subst hk
      simp [h.marker]
    · by_cases hk' : k = "isService"
      · subst hk'
        simp [h.alone]
      · simp [hk, hk', Ne.symm hk]
  have hkeep : (if c.tenantId.isSome then c.tenantId else none) = c.tenantId := by
    cases c.tenantId <;> rfl
  simp only [respelled, htenant, hextensions, hkeep]

/-- Of the classifiers that are given as objects, only marked ones have the key that they are looked for under. -/
theorem marked_of_key {m : KeyMap Json} (h : (ofMap m).respelled.canonicalKey = (ofMap m).canonicalKey) : (ofMap m).Marked := by
  set c := ofMap m with hc
  have hother : ∀ key : Key, key.text ≠ "isServiceDb" := fun key => by cases key <;> decide
  have hearlier : ∀ key : Key, key.text ≠ "isService" := fun key => by cases key <;> decide
  have hrespelled : ∀ k, c.respelled.extensions.get? k =
      if k = "isServiceDb" then some (.bool !c.isTenantLegacy) else if k = "isService" then none else c.extensions.get? k := by
    intro k
    simp only [respelled, KeyMap.get?_insert, get?_unmarked]
    grind
  -- A tenant that is dropped would be in one key and not in the other.
  have htenant : c.isTenantLegacy = c.tenantId.isSome := by
    cases htenant : c.tenantId with
    | none => simp [isTenantLegacy, htenant]
    | some t =>
      by_contra hdropped
      have hdropped : c.isTenantLegacy = false := by simpa using hdropped
      have htext : c.toMap.get? Key.tenantId.text = some (.string t) := by
        rw [get?_toMap_key, part, htenant]
        rfl
      have hkept := get?_toMap_of_canonicalKey_eq h htext
      have hnone : c.respelled.tenantId = none := by simp [respelled, hdropped]
      rw [get?_toMap_key, part, hnone, Option.map_none, Option.none_or, hrespelled, if_neg (by decide),
        if_neg (by decide)] at hkept
      exact not_text_of_ofMap m .tenantId t hkept
  constructor
  · have hmarker : c.respelled.toMap.get? "isServiceDb" = some (.bool !c.isTenantLegacy) := by
      rw [get?_toMap_of_ne _ hother, hrespelled, if_pos rfl]
    obtain ⟨j, hj, halike⟩ := alike_get?_of_canonicalKey_eq h.symm hmarker
    rw [get?_toMap_of_ne _ hother] at hj
    rw [hj, halike.eq_bool, htenant, Option.not_isSome]
  · cases hearly : c.extensions.get? "isService" with
    | none => rfl
    | some j =>
      rw [← get?_toMap_of_ne _ hearlier] at hearly
      obtain ⟨j', hj', -⟩ := alike_get?_of_canonicalKey_eq h hearly
      rw [get?_toMap_of_ne _ hearlier, hrespelled, if_neg (by decide), if_pos rfl] at hj'
      cases hj'

end Classifier

namespace Store

/-! ## Answers -/

section Answers

variable {s : Store} {r : DatabaseRequest} {a : Address} (haddress : s.address r = .ok a)
include haddress

/-- A lookup is answered with the database that is found under the legacy equivalent. -/
theorem lookup_of_legacy {db : LogicalDatabase} (hexisting : s.existing? r.dbType a.classifier = some (.legacy db)) :
    s.lookup r = .ok (r.bound db a.redirected) := by
  simp only [lookup, haddress, hexisting]

/-- A request is answered with that database upgraded. -/
theorem getOrCreate_of_legacy {db : LogicalDatabase} (hexisting : s.existing? r.dbType a.classifier = some (.legacy db))
    (now : UInt64) (id : String) :
    s.getOrCreate now id r =
      .ok (r.bound (db.upgrade a.classifier) a.redirected, s.putLogical (db.upgrade a.classifier)) := by
  simp only [getOrCreate, haddress, hexisting]

/-- A lookup misses what is found under neither shape. -/
theorem lookup_of_missing (hnone : s.existing? r.dbType a.classifier = none) : s.lookup r = .ok .notFound := by
  simp only [lookup, haddress, hnone]

/-- A request is answered with no database but a new one then. -/
theorem created_of_missing (hnone : s.existing? r.dbType a.classifier = none) {now : UInt64} {id : String}
    {db : LogicalDatabase} {created redirected : Bool} {applied : Option AppliedRule} {s' : Store}
    (hok : s.getOrCreate now id r = .ok (.resolved db created redirected applied, s')) : created = true ∧ db.id = id := by
  simp only [getOrCreate, haddress, hnone] at hok
  rcases s.placeFor_cases (r := r) (a := a) with ⟨target, rule, _, hplace, -⟩ | hplace | ⟨_, -, hplace⟩
  · rw [hplace] at hok
    cases hok
    exact ⟨rfl, rfl⟩
  · rw [hplace] at hok
    cases hok
  · rw [hplace] at hok
    cases hok

end Answers

/-! ## Requests with a stored legacy classifier -/

/-- A database that is to be stored under a legacy classifier, outside of controllers; its current shape is valid and leads to no
database then. -/
structure LegacyBinding (s : Store) (db : LogicalDatabase) (current : Classifier) : Prop where
  live : db.markedForDrop = false
  converts : db.classifier.toCurrent? = some current
  valid : current.Valid
  noController : ∀ ns, current.ns = some ns → s.domain? ns = none
  free : (s.putLogical db).classifierIndex.get? (classifierKey db.dbType current) = none

namespace LegacyBinding

variable {s : Store} {db : LogicalDatabase} {current : Classifier} (h : s.LegacyBinding db current)
include h

/-- A request with the legacy classifier leads to its current shape. -/
theorem address : ∃ own, (s.putLogical db).address ⟨db.classifier, db.dbType, none, none⟩ = .ok ⟨current, own, false⟩ := by
  obtain ⟨own, hown, -⟩ := h.valid.ns
  have hidentity : DatabaseRequest.identity ⟨db.classifier, db.dbType, none, none⟩ = .ok (current, own) :=
    DatabaseRequest.identity_of_modernize (Classifier.modernize_of_toCurrent? h.converts) h.valid hown (Or.inl rfl)
  have hcontroller : (s.putLogical db).domain? own = none := by
    rw [putLogical_eq]
    exact h.noController own hown
  exact ⟨own, address_of_noController hidentity hcontroller⟩

/-- No database is found under the current shape. -/
theorem findLogical?_current : (s.putLogical db).findLogical? db.dbType current = none := by
  simp only [findLogical?, h.free, Option.bind_none]

/-- A database that is marked is found under its legacy shape. -/
theorem existing?_of_marked (hmarked : db.classifier.Marked) :
    (s.putLogical db).existing? db.dbType current = some (.legacy db.reread) := by
  refine existing?_eq_legacy_iff.mpr ⟨h.findLogical?_current, db.classifier, ?_, findLogical?_eq_some_iff.mpr ⟨db.id, ?_, ?_⟩⟩
  · rw [Classifier.legacyEquivalent?_of_toCurrent? h.converts, hmarked.respelled_eq]
  · rw [putLogical_eq, LogicalDatabase.get?_reindex_of_live h.live, if_pos]
    exact List.mem_cons_self
  · rw [logical?_putLogical, if_pos rfl]

/-- One that is not marked is not found under either shape, unless another database is. -/
theorem existing?_of_unmarked {m : KeyMap Json} (hobject : db.classifier = .ofMap m) (hold : db.oldClassifier = none)
    (hfree : s.classifierIndex.get? (classifierKey db.dbType db.classifier.respelled) = none)
    (hunmarked : ¬ db.classifier.Marked) : (s.putLogical db).existing? db.dbType current = none := by
  have hkey : classifierKey db.dbType db.classifier.respelled ∉ db.keys := by
    simp only [LogicalDatabase.keys, LogicalDatabase.classifiers, hold, Option.toList_none, List.map_cons, List.map_nil,
      List.mem_singleton]
    intro hsame
    rw [hobject] at hsame hunmarked
    exact hunmarked (Classifier.marked_of_key (Classifier.classifierKey_inj hsame).2)
  have hmissing : (s.putLogical db).findLogical? db.dbType db.classifier.respelled = none := by
    simp only [findLogical?, putLogical_eq, LogicalDatabase.get?_reindex_of_live h.live, hkey, if_false, hfree, Option.bind_none]
  simp only [existing?, h.findLogical?_current, Classifier.legacyEquivalent?_of_toCurrent? h.converts, Option.bind_some, hmissing]
  rfl

end LegacyBinding

/-- A database that is stored under a legacy classifier, outside of controllers, with a valid current shape that leads to no
database:
1. if it is marked, a lookup with its classifier is answered with it, and so is a request, which gives it the current shape and
   makes no database;
2. if it is not, and nothing is indexed for the classifier in the spelling that it is looked for under, the lookup misses it, and
   every database that the request is answered with is a new one. -/
theorem legacy_binding {s : Store} {db : LogicalDatabase} {current : Classifier} (h : s.LegacyBinding db current) :
    let s' := s.putLogical db
    let r : DatabaseRequest := ⟨db.classifier, db.dbType, none, none⟩
    (db.classifier.Marked →
      s'.lookup r = .ok (.resolved db.reread false false none) ∧
      ∀ now newId, ∃ s'', s'.getOrCreate now newId r = .ok (.resolved (db.reread.upgrade current) false false none, s'') ∧
        ∀ id, (s''.logical? id).isSome = (s'.logical? id).isSome) ∧
    (¬ db.classifier.Marked → ∀ m, db.classifier = .ofMap m → db.oldClassifier = none →
      s.classifierIndex.get? (classifierKey db.dbType db.classifier.respelled) = none →
      s'.lookup r = .ok .notFound ∧
      ∀ now newId db' created redirected applied s'',
        s'.getOrCreate now newId r = .ok (.resolved db' created redirected applied, s'') →
        created = true ∧ db'.id = newId) := by
  intro s' r
  obtain ⟨own, haddress⟩ := h.address
  refine ⟨fun hmarked => ?_, fun hunmarked m hobject hold hfree => ?_⟩
  · have hexisting := h.existing?_of_marked hmarked
    refine ⟨lookup_of_legacy haddress hexisting, fun now newId =>
      ⟨s'.putLogical (db.reread.upgrade current), getOrCreate_of_legacy haddress hexisting now newId, fun id => ?_⟩⟩
    rw [logical?_putLogical]
    split
    · rename_i hid
      have hid : db.id = id := hid
      simp [s', logical?_putLogical, hid]
    · rfl
  · have hnone := h.existing?_of_unmarked hobject hold hfree hunmarked
    exact ⟨lookup_of_missing haddress hnone, fun _ _ _ _ _ _ _ hok => created_of_missing haddress hnone hok⟩

/-! ## A classifier without a marker -/

/-- The classifier that a client without scopes has for a tenant's database, with the marker or without one. -/
def legacyMembers (marked : Bool) : KeyMap Json :=
  let members := KeyMap.ofList
    [("namespace", .string "shop"), ("microserviceName", .string "cart"), ("tenantId", .string "t-1")]
  if marked then members.insert "isServiceDb" (.bool false) else members

/-- A database under that classifier. -/
def sampleLegacy (marked : Bool) : LogicalDatabase :=
  ⟨"ldb-legacy", .ofMap (legacyMembers marked), none, "postgresql", "shop", "pg", [], [], [], none, false, 0⟩

/-- In an empty store, the sample may be stored with the marker and without one. -/
theorem sampleLegacy_binding (marked : Bool) :
    Store.empty.LegacyBinding (sampleLegacy marked) (Classifier.tenant "shop" "cart" "t-1") where
  live := rfl
  converts := by cases marked <;> rfl
  valid := Classifier.validate_eq_ok_iff.mp (by decide +kernel)
  noController := fun _ _ => rfl
  free := by cases marked <;> decide +kernel

/-- With the marker, the sample is what a lookup with its classifier is answered with. -/
theorem legacy_binding_of_sampleLegacy :
    (Store.empty.putLogical (sampleLegacy true)).lookup ⟨(sampleLegacy true).classifier, "postgresql", none, none⟩ =
      .ok (.resolved (sampleLegacy true).reread false false none) :=
  ((legacy_binding (sampleLegacy_binding true)).1 ⟨rfl, rfl⟩).1

/-- Without it, a database stored under a legacy classifier is missed by a lookup with that very classifier. -/
theorem legacy_binding_missed :
    Store.empty.LegacyBinding (sampleLegacy false) (Classifier.tenant "shop" "cart" "t-1") ∧
      (Store.empty.putLogical (sampleLegacy false)).lookup ⟨(sampleLegacy false).classifier, "postgresql", none, none⟩ =
        .ok .notFound := by
  have h := sampleLegacy_binding false
  obtain ⟨own, haddress⟩ := h.address
  have hunmarked : ¬ (sampleLegacy false).classifier.Marked := by
    intro hmarked
    have hnone : (sampleLegacy false).classifier.extensions.get? "isServiceDb" = none := rfl
    rw [hmarked.marker] at hnone
    cases hnone
  have hobject : (sampleLegacy false).classifier = .ofMap (legacyMembers false) := rfl
  exact ⟨h, lookup_of_missing haddress (h.existing?_of_unmarked hobject rfl rfl hunmarked)⟩

end Store

end DatabaseBroker
