import DatabaseBroker.Proofs.Binding.Agreement
import DatabaseBroker.Proofs.Binding.Upgrade

/-!
# Versions behind a redirection

A database that carries a version belongs to switchover, and a request that is redirected is not to be answered with it. The
redirection looks for such a database under the current shape of the classifier only, while a database that is there already is looked
for under the legacy equivalent, too. `Store.Overlooked` names what it misses: a database with a version that is found under the legacy
equivalent alone. These, and no others, are answered (`versions_redirected`). A store whose versions are all under current classifiers
has none of them (`Overlooked.not_of_versionsCurrent`).
-/

namespace DatabaseBroker

namespace Store

variable {s s' : Store} {r : DatabaseRequest} {a : Address} {db : LogicalDatabase}

/-! ## What a redirection looks at -/

/-- An address comes from a redirection of the classifier of the request. -/
theorem redirect_of_address (h : s.address r = .ok a) :
    ∃ c own, r.identity = .ok (c, own) ∧ s.redirect c r.dbType own = .ok ⟨a.classifier, a.ns, a.redirected⟩ := by
  unfold address at h
  split at h
  · cases h
  rename_i c own hidentity
  split at h
  · rename_i there hredirect
    cases h
    exact ⟨c, own, hidentity, hredirect⟩
  · cases h
  · cases h

/-- What is found where a redirection leads, under the classifier that it leads to, carries no version. -/
theorem bgVersion_of_redirect {c : Classifier} {dbType ns : String} {there : Redirection} (h : s.redirect c dbType ns = .ok there)
    (hredirected : there.redirected = true) (hfound : s.findLogical? dbType there.classifier = some db) : db.bgVersion = none := by
  simp only [redirect, bind, Except.bind] at h
  split at h
  · cases h
    cases hredirected
  split at h
  · cases h
  split at h
  · cases h
  · rename_i hunversioned
    cases h
    simpa [hfound] using hunversioned

/-- A version that a redirection finds is refused by a lookup and by the request, which changes nothing. -/
theorem versionedDatabase_of_current {c : Classifier} {own version : String} {d : Domain} {m : Member}
    (hidentity : r.identity = .ok (c, own)) (hdomain : s.domain? own = some d)
    (hlocal : s.findLogical? r.dbType (c.withNamespace own) = none) (hactive : d.activeMember? = some m)
    (hfound : s.findLogical? r.dbType (c.withNamespace m.ns) = some db) (hversion : db.bgVersion = some version) :
    s.lookup r = .ok (.versionedDatabase db.id version) ∧
      ∀ now newId, s.getOrCreate now newId r = .ok (.versionedDatabase db.id version, s) := by
  have hredirect : s.redirect c r.dbType own = .error (.versionedDatabase db.id version) := by
    simp [redirect, activeNamespace, hdomain, hlocal, hactive, hfound, hversion, bind, Except.bind]
  have haddress : s.address r = .error (.answer (.versionedDatabase db.id version)) := by
    simp only [address, hidentity, hredirect]
  refine ⟨?_, fun now newId => ?_⟩
  · simp only [lookup, haddress]
  · simp only [getOrCreate, haddress]

/-! ## What it overlooks -/

/-- A database with a version where a redirected request leads, found under the legacy equivalent of the classifier and not under the
classifier itself. -/
structure Overlooked (s : Store) (r : DatabaseRequest) (a : Address) (db : LogicalDatabase) : Prop where
  address : s.address r = .ok a
  redirected : a.redirected = true
  legacy : s.existing? r.dbType a.classifier = some (.legacy db)
  admitted : r.Admits db
  versioned : db.bgVersion ≠ none

/-- The database of the current classifier carries no version where a request is redirected. -/
theorem bgVersion_of_current (haddress : s.address r = .ok a) (hredirected : a.redirected = true)
    (hcurrent : s.existing? r.dbType a.classifier = some (.current db)) : db.bgVersion = none := by
  obtain ⟨c, own, -, hredirect⟩ := redirect_of_address haddress
  exact bgVersion_of_redirect hredirect hredirected (existing?_eq_current_iff.mp hcurrent)

/-- A redirected lookup is answered with a version exactly when it is overlooked. -/
theorem lookup_versioned_iff {created : Bool} {applied : Option AppliedRule} :
    (s.lookup r = .ok (.resolved db created true applied) ∧ db.bgVersion ≠ none) ↔
      created = false ∧ applied = none ∧ ∃ a, s.Overlooked r a db := by
  constructor
  · rintro ⟨hlookup, hversion⟩
    have hagreed := s.agreed 0 "" r
    generalize s.lookup r = looked, s.getOrCreate 0 "" r = answer at hagreed hlookup
    cases hagreed with
    | refused haddress =>
      cases hlookup
      exact absurd haddress address_ne_resolved
    | found haddress hcurrent =>
      obtain ⟨-, rfl, -, hredirected, -⟩ := DatabaseRequest.admits_of_bound (Except.ok.inj hlookup)
      exact absurd (bgVersion_of_current haddress hredirected hcurrent) hversion
    | upgraded haddress hlegacy =>
      obtain ⟨hadmits, rfl, hcreated, hredirected, happlied⟩ := DatabaseRequest.admits_of_bound (Except.ok.inj hlookup)
      exact ⟨hcreated, happlied, _, haddress, hredirected, hlegacy, hadmits, hversion⟩
    | _ => cases hlookup
  · rintro ⟨rfl, rfl, a, h⟩
    have hanswer := (answers_of_legacy h.address h.admitted h.legacy).1
    rw [h.redirected] at hanswer
    exact ⟨hanswer, h.versioned⟩

/-- A redirected request is answered with a version exactly when one is overlooked, which it upgrades. -/
theorem getOrCreate_versioned_iff {now : UInt64} {newId : String} {created : Bool} {applied : Option AppliedRule} :
    (s.getOrCreate now newId r = .ok (.resolved db created true applied, s') ∧ db.bgVersion ≠ none) ↔
      created = false ∧ applied = none ∧
        ∃ a found, s.Overlooked r a found ∧ db = found.upgrade a.classifier ∧ s' = s.putLogical db := by
  constructor
  · rintro ⟨hanswer, hversion⟩
    have hagreed := s.agreed now newId r
    generalize s.lookup r = looked, s.getOrCreate now newId r = answer at hagreed hanswer
    cases hagreed with
    | refused haddress =>
      cases hanswer
      exact absurd haddress address_ne_resolved
    | found haddress hcurrent =>
      obtain ⟨houtcome, -⟩ := Prod.mk.inj (Except.ok.inj hanswer)
      obtain ⟨-, rfl, -, hredirected, -⟩ := DatabaseRequest.admits_of_bound houtcome
      exact absurd (bgVersion_of_current haddress hredirected hcurrent) hversion
    | upgraded haddress hlegacy =>
      obtain ⟨houtcome, rfl⟩ := Prod.mk.inj (Except.ok.inj hanswer)
      obtain ⟨hadmits, rfl, hcreated, hredirected, happlied⟩ := DatabaseRequest.admits_of_bound houtcome
      exact ⟨hcreated, happlied, _, _, ⟨haddress, hredirected, hlegacy, hadmits, hversion⟩, rfl, rfl⟩
    | created =>
      obtain ⟨houtcome, -⟩ := Prod.mk.inj (Except.ok.inj hanswer)
      obtain ⟨rfl, -⟩ := BindingOutcome.resolved.inj houtcome
      exact absurd rfl hversion
    | _ => cases hanswer
  · rintro ⟨rfl, rfl, a, found, h, rfl, rfl⟩
    have hanswer := (answers_of_legacy h.address h.admitted h.legacy).2 now newId
    rw [h.redirected] at hanswer
    exact ⟨hanswer, h.versioned⟩

/-! ## Versions under current classifiers -/

/-- Every database with a version is known under current classifiers only. -/
def VersionsCurrent (s : Store) : Prop :=
  ∀ id db, s.logical? id = some db → db.bgVersion ≠ none → ∀ c ∈ db.classifiers, c.isLegacy = false

/-- A redirection overlooks nothing in a store with an exact index whose versions are under current classifiers. -/
theorem Overlooked.not_of_versionsCurrent (h : s.Overlooked r a db) (hexact : s.IndexExact) (hlifted : r.classifier.ScopeLifted) :
    ¬ s.VersionsCurrent := by
  intro hcurrent
  obtain ⟨-, legacy, hlegacy, hfound⟩ := existing?_eq_legacy_iff.mp h.legacy
  obtain ⟨hdb, -, hkey⟩ := hexact.findLogical?_eq_some hfound
  obtain ⟨c, hc, hsame⟩ := List.mem_map.mp hkey
  have hscope : c.scope.isSome = true := by
    have hnotLegacy := hcurrent _ db hdb h.versioned c hc
    rwa [Classifier.isLegacy, Option.isNone_eq_false_iff] at hnotLegacy
  exact Classifier.classifierKey_legacy_ne ((address_scope h.address).2 hlifted) hlegacy hscope hsame.symm

end Store

open Store

/-- What a redirected request is answered with, in every store, and which versions are among it.
1. A version under the current shape, in the active member of a controller that has no such database itself, is refused: a lookup and
   the request say so, and nothing changes.
2. A redirected lookup is answered with a version exactly when the redirection overlooks it: it is found under the legacy equivalent of
   the classifier, and nothing is found under the classifier.
3. So is the request, and the database is upgraded and stored with its version.
4. Where the index is exact and every version is under current classifiers, no redirected lookup or request is answered with one. -/
theorem versions_redirected (s : Store) (r : DatabaseRequest) :
    (∀ c own d m db version, r.identity = .ok (c, own) → s.domain? own = some d →
      s.findLogical? r.dbType (c.withNamespace own) = none → d.activeMember? = some m →
      s.findLogical? r.dbType (c.withNamespace m.ns) = some db → db.bgVersion = some version →
      s.lookup r = .ok (.versionedDatabase db.id version) ∧
        ∀ now newId, s.getOrCreate now newId r = .ok (.versionedDatabase db.id version, s)) ∧
    (∀ db created applied, (s.lookup r = .ok (.resolved db created true applied) ∧ db.bgVersion ≠ none) ↔
      created = false ∧ applied = none ∧ ∃ a, s.Overlooked r a db) ∧
    (∀ now newId db created applied s',
      (s.getOrCreate now newId r = .ok (.resolved db created true applied, s') ∧ db.bgVersion ≠ none) ↔
        created = false ∧ applied = none ∧
          ∃ a found, s.Overlooked r a found ∧ db = found.upgrade a.classifier ∧ s' = s.putLogical db) ∧
    (s.IndexExact → s.VersionsCurrent → r.classifier.ScopeLifted →
      (∀ db created applied, s.lookup r = .ok (.resolved db created true applied) → db.bgVersion = none) ∧
      ∀ now newId db created applied s',
        s.getOrCreate now newId r = .ok (.resolved db created true applied, s') → db.bgVersion = none) := by
  refine ⟨fun c own d m db version => versionedDatabase_of_current, fun db created applied => lookup_versioned_iff,
    fun now newId db created applied s' => getOrCreate_versioned_iff, fun hexact hcurrent hlifted =>
    ⟨fun db created applied hlookup => ?_, fun now newId db created applied s' hok => ?_⟩⟩
  · by_contra hversion
    obtain ⟨-, -, a, h⟩ := lookup_versioned_iff.mp ⟨hlookup, hversion⟩
    exact h.not_of_versionsCurrent hexact hlifted hcurrent
  · by_contra hversion
    obtain ⟨-, -, a, found, h, -⟩ := getOrCreate_versioned_iff.mp ⟨hok, hversion⟩
    exact h.not_of_versionsCurrent hexact hlifted hcurrent

/-- A database with a version in the active member `shop-blue` of the sample, under a current or a legacy classifier. -/
def sampleVersioned (current : Bool) : LogicalDatabase :=
  let names := [("namespace", Json.string "shop-blue"), ("microserviceName", .string "cart")]
  let shape := if current then ("scope", Json.string "service") else ("isServiceDb", .bool true)
  ⟨"ldb-blue", .ofMap (.ofList (names ++ [shape])), none, "postgresql", "shop-blue", "pg", [], [], [], some "v2", false, 0⟩

/-- A store with that database and the controller `shop` of its namespace. -/
def sampleSwitchover (current : Bool) : Store :=
  (Store.empty.putDomain ⟨"shop", [⟨"shop-blue", .active, some "v2"⟩], 1⟩).putLogical (sampleVersioned current)

/-- A request for the controller. -/
def switchoverCall : DatabaseCall := ⟨(Classifier.service "shop" "cart").toMap, "postgresql", none, none⟩

theorem sampleSwitchover_exact (current : Bool) : (sampleSwitchover current).IndexExact := by
  have hexact : (Store.empty.putDomain ⟨"shop", [⟨"shop-blue", .active, some "v2"⟩], 1⟩).IndexExact :=
    ⟨IndexExact.empty.logical_id, IndexExact.empty.shaped, IndexExact.empty.index, IndexExact.empty.once⟩
  refine (hexact.putLogical_new_iff ?_ rfl rfl ?_).mpr ?_
  · cases current <;> rfl
  · cases current <;> rfl
  · cases current <;> decide +kernel

/-- Under a current classifier the version of the sample is refused. -/
theorem versions_redirected_of_sampleSwitchover :
    (sampleSwitchover true).lookup switchoverCall.request = .ok (.versionedDatabase "ldb-blue" "v2") ∧
      (sampleSwitchover true).getOrCreate 2 "ldb-#1" switchoverCall.request =
        .ok (.versionedDatabase "ldb-blue" "v2", sampleSwitchover true) := by
  have hrefused := (versions_redirected (sampleSwitchover true) switchoverCall.request).1 (Classifier.service "shop" "cart") "shop"
    ⟨"shop", [⟨"shop-blue", .active, some "v2"⟩], 1⟩ ⟨"shop-blue", .active, some "v2"⟩ (sampleVersioned true).reread "v2"
    rfl rfl rfl rfl rfl rfl
  exact ⟨hrefused.1, hrefused.2 2 "ldb-#1"⟩

/-- Under a legacy classifier a lookup and the request, both redirected, are answered with it. -/
theorem version_served :
    (sampleSwitchover false).IndexExact ∧
      (∃ db, (sampleSwitchover false).lookup switchoverCall.request = .ok (.resolved db false true none) ∧
        db.bgVersion = some "v2") ∧
      ∃ db s', (sampleSwitchover false).getOrCreate 2 "ldb-#1" switchoverCall.request = .ok (.resolved db false true none, s') ∧
        db.bgVersion = some "v2" := by
  have haddress : (sampleSwitchover false).address switchoverCall.request =
      .ok ⟨Classifier.service "shop-blue" "cart", "shop-blue", true⟩ := rfl
  have hlegacy : (sampleSwitchover false).existing? "postgresql" (Classifier.service "shop-blue" "cart") =
      some (.legacy (sampleVersioned false).reread) := rfl
  have hanswers := answers_of_legacy (r := switchoverCall.request) haddress rfl hlegacy
  exact ⟨sampleSwitchover_exact false, ⟨_, hanswers.1, rfl⟩, _, _, hanswers.2 2 "ldb-#1", rfl⟩

end DatabaseBroker
