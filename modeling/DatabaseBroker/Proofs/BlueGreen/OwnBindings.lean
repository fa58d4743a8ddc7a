import DatabaseBroker.Proofs.BlueGreen.Versions
import DatabaseBroker.Proofs.Binding.References

/-!
# Databases of a controller itself

A controller may hold databases of its own, from before it was one. A request for a controller is answered with the controller's own
database where one is found under the current shape of the classifier, and is redirected to the active member otherwise: also where the
database is found under the legacy equivalent, which only is looked for where the request leads (`own_database`). No history of requests
leaves a database under a legacy classifier, but records from before scopes are such (`own_legacy_missed`).
-/

namespace DatabaseBroker

namespace Store

variable {s s' : Store} {r : DatabaseRequest} {c : Classifier} {own : String} {d : Domain} {db : LogicalDatabase}

/-! ## Where a request for a controller leads -/

/-- A request for a controller that leads anywhere else leads to the active member. -/
theorem address_of_controller (hidentity : r.identity = .ok (c, own)) (hdomain : s.domain? own = some d)
    (hmissing : s.findLogical? r.dbType c = none) {a : Address} (haddress : s.address r = .ok a) :
    ∃ m, d.activeMember? = some m ∧ a = ⟨c.withNamespace m.ns, m.ns, true⟩ := by
  have hhere : c.withNamespace own = c := Classifier.withNamespace_of_ns (DatabaseRequest.identity_eq_ok hidentity).2.1
  obtain ⟨c', own', hidentity', hredirect⟩ := redirect_of_address haddress
  obtain ⟨rfl, rfl⟩ := Prod.mk.inj (Except.ok.inj (hidentity.symm.trans hidentity'))
  -- the redirection searches under the classifier itself only, finds nothing, and asks for the active member
  simp only [redirect, hhere, hmissing, hdomain, Option.isNone_some, Option.isSome_none, Bool.or_self, Bool.false_eq_true, if_false,
    activeNamespace, bind, Except.bind] at hredirect
  cases hactive : d.activeMember? with
  | none =>
    simp only [hactive] at hredirect
    cases hredirect
  | some m =>
    simp only [hactive] at hredirect
    split at hredirect
    · cases hredirect
    · obtain ⟨hclassifier, hns, hredirected⟩ := Redirection.mk.inj (Except.ok.inj hredirect)
      refine ⟨m, rfl, ?_⟩
      cases a
      simp only [Address.mk.injEq]
      exact ⟨hclassifier.symm, hns.symm, hredirected.symm⟩

/-- A request that is answered with a database was led somewhere, and made the database there if it made it. -/
theorem address_of_resolved {now : UInt64} {newId : String} {created redirected : Bool} {applied : Option AppliedRule}
    (hok : s.getOrCreate now newId r = .ok (.resolved db created redirected applied, s')) :
    ∃ a, s.address r = .ok a ∧ a.redirected = redirected ∧ (created = true → db.classifier = a.classifier ∧ db.ns = a.ns) := by
  have hagreed := s.agreed now newId r
  generalize s.lookup r = looked, s.getOrCreate now newId r = answer at hagreed hok
  cases hagreed with
  | refused haddress =>
    cases hok
    exact absurd haddress address_ne_resolved
  | found haddress =>
    obtain ⟨-, -, rfl, rfl, -⟩ := DatabaseRequest.admits_of_bound (Prod.mk.inj (Except.ok.inj hok)).1
    exact ⟨_, haddress, rfl, by simp⟩
  | upgraded haddress =>
    obtain ⟨-, -, rfl, rfl, -⟩ := DatabaseRequest.admits_of_bound (Prod.mk.inj (Except.ok.inj hok)).1
    exact ⟨_, haddress, rfl, by simp⟩
  | created haddress =>
    cases hok
    exact ⟨_, haddress, rfl, fun _ => ⟨rfl, rfl⟩⟩
  | _ => cases hok

/-! ## Answers -/

/-- The controller's own database is what a lookup and the request are answered with, and the request changes nothing. -/
theorem answers_of_own (hidentity : r.identity = .ok (c, own)) (hfound : s.findLogical? r.dbType c = some db) :
    s.lookup r = .ok (r.bound db false) ∧ ∀ now newId, s.getOrCreate now newId r = .ok (r.bound db false, s) := by
  have haddress := address_of_own hidentity hfound
  have hexisting := existing?_eq_current_iff.mpr hfound
  refine ⟨?_, fun now newId => ?_⟩
  · simp only [lookup, haddress, hexisting]
  · simp only [getOrCreate, haddress, hexisting]

section Controller

variable (hidentity : r.identity = .ok (c, own)) (hdomain : s.domain? own = some d)
include hidentity hdomain

/-- A lookup for a controller is answered without a redirection exactly with the controller's own database. -/
theorem lookup_own_iff {created : Bool} {applied : Option AppliedRule} :
    s.lookup r = .ok (.resolved db created false applied) ↔
      created = false ∧ applied = none ∧ s.findLogical? r.dbType c = some db ∧ r.Admits db := by
  constructor
  · intro hlookup
    cases hfound : s.findLogical? r.dbType c with
    | none =>
      obtain ⟨a, haddress, hredirected, -⟩ := lookup_eq_resolved hlookup
      obtain ⟨m, -, rfl⟩ := address_of_controller hidentity hdomain hfound haddress
      cases hredirected
    | some found =>
      rw [(answers_of_own hidentity hfound).1] at hlookup
      obtain ⟨hadmits, rfl, rfl, -, rfl⟩ := DatabaseRequest.admits_of_bound (Except.ok.inj hlookup)
      exact ⟨rfl, rfl, rfl, hadmits⟩
  · rintro ⟨rfl, rfl, hfound, hadmits⟩
    rw [(answers_of_own hidentity hfound).1, hadmits.bound_eq]

/-- So is the request, which changes nothing. -/
theorem getOrCreate_own_iff {now : UInt64} {newId : String} {created : Bool} {applied : Option AppliedRule} :
    s.getOrCreate now newId r = .ok (.resolved db created false applied, s') ↔
      created = false ∧ applied = none ∧ s.findLogical? r.dbType c = some db ∧ r.Admits db ∧ s' = s := by
  constructor
  · intro hok
    cases hfound : s.findLogical? r.dbType c with
    | none =>
      obtain ⟨a, haddress, hredirected, -⟩ := address_of_resolved hok
      obtain ⟨m, -, rfl⟩ := address_of_controller hidentity hdomain hfound haddress
      cases hredirected
    | some found =>
      rw [(answers_of_own hidentity hfound).2] at hok
      obtain ⟨houtcome, rfl⟩ := Prod.mk.inj (Except.ok.inj hok)
      obtain ⟨hadmits, rfl, rfl, -, rfl⟩ := DatabaseRequest.admits_of_bound houtcome
      exact ⟨rfl, rfl, rfl, hadmits, rfl⟩
  · rintro ⟨rfl, rfl, hfound, hadmits, rfl⟩
    rw [(answers_of_own hidentity hfound).2, hadmits.bound_eq]

/-- What is made for a controller is made in its active member. -/
theorem created_in_active {now : UInt64} {newId : String} {redirected : Bool} {applied : Option AppliedRule}
    (hok : s.getOrCreate now newId r = .ok (.resolved db true redirected applied, s')) :
    redirected = true ∧ ∃ m, d.activeMember? = some m ∧ db.ns = m.ns ∧ db.classifier = c.withNamespace m.ns := by
  cases hfound : s.findLogical? r.dbType c with
  | some found =>
    rw [(answers_of_own hidentity hfound).2] at hok
    obtain ⟨-, -, hcreated, -⟩ := DatabaseRequest.admits_of_bound (Prod.mk.inj (Except.ok.inj hok)).1
    cases hcreated
  | none =>
    obtain ⟨a, haddress, hredirected, hmade⟩ := address_of_resolved hok
    obtain ⟨m, hactive, rfl⟩ := address_of_controller hidentity hdomain hfound haddress
    exact ⟨hredirected.symm, m, hactive, (hmade rfl).2, (hmade rfl).1⟩

end Controller

end Store

open Store

/-- What a valid request for a controller is answered with, in every store.
1. Where a database is found in the controller under the current classifier, a lookup and the request are answered with it, without a
   redirection, and the request changes nothing; if the request pins another physical database, both say where it is bound.
2. No other database is answered without a redirection, by a lookup
3. or by the request.
4. A database that is made is made in the active member, and answered as redirected.
5. After every history nothing is found in the controller under the legacy equivalent, so that 1 is about every database that is there
   for the classifier. -/
theorem own_database (s : Store) (r : DatabaseRequest) {c : Classifier} {own : String} {d : Domain}
    (hidentity : r.identity = .ok (c, own)) (hdomain : s.domain? own = some d) :
    (∀ db, s.findLogical? r.dbType c = some db →
      s.lookup r = .ok (r.bound db false) ∧ ∀ now newId, s.getOrCreate now newId r = .ok (r.bound db false, s)) ∧
    (∀ db created applied, s.lookup r = .ok (.resolved db created false applied) ↔
      created = false ∧ applied = none ∧ s.findLogical? r.dbType c = some db ∧ r.Admits db) ∧
    (∀ now newId db created applied s', s.getOrCreate now newId r = .ok (.resolved db created false applied, s') ↔
      created = false ∧ applied = none ∧ s.findLogical? r.dbType c = some db ∧ r.Admits db ∧ s' = s) ∧
    (∀ now newId db redirected applied s', s.getOrCreate now newId r = .ok (.resolved db true redirected applied, s') →
      redirected = true ∧ ∃ m, d.activeMember? = some m ∧ db.ns = m.ns ∧ db.classifier = c.withNamespace m.ns) ∧
    (∀ env events, s = (replay env events).store → r.classifier.ScopeLifted →
      ∀ db, s.existing? r.dbType c = some db → ∃ current, s.findLogical? r.dbType c = some current ∧ db = .current current) := by
  refine ⟨fun db hfound => answers_of_own hidentity hfound, fun db created applied => lookup_own_iff hidentity hdomain,
    fun now newId db created applied s' => getOrCreate_own_iff hidentity hdomain,
    fun now newId db redirected applied s' hok => created_in_active hidentity hdomain hok, ?_⟩
  rintro env events rfl hlifted existing hexisting
  cases existing with
  | current db => exact ⟨db, existing?_eq_current_iff.mp hexisting, rfl⟩
  | legacy db =>
    obtain ⟨-, legacy, hlegacy, hfound⟩ := existing?_eq_legacy_iff.mp hexisting
    rw [(references_replay env events).findLogical?_legacy ((DatabaseRequest.identity_eq_ok hidentity).2.2 hlifted) hlegacy] at hfound
    cases hfound

/-- The sample of a migration, with the namespace of its databases made a controller. -/
def sampleOwned : List Event := sampleMigration ++ [⟨7, .putDomain "shop" [⟨"shop-blue", .active, none⟩]⟩]

/-- The database that was made for `cart` before is still the one that requests are answered with. -/
theorem own_database_of_sampleOwned :
    let s := (replay (.numbered 1) sampleOwned).store
    ∃ db, s.existing? "postgresql" (Classifier.service "shop" "cart") = some (.current db) ∧
      s.lookup switchoverCall.request = .ok (.resolved db false false none) ∧
      s.getOrCreate 8 "ldb-#3" switchoverCall.request = .ok (.resolved db false false none, s) := by
  intro s
  have hidentity : switchoverCall.request.identity = .ok (Classifier.service "shop" "cart", "shop") := rfl
  obtain ⟨d, hd⟩ := Option.isSome_iff_exists.mp (show (s.domain? "shop").isSome = true by decide +kernel)
  have hthere : (s.existing? "postgresql" (Classifier.service "shop" "cart")).isSome = true := by decide +kernel
  obtain ⟨existing, hexisting⟩ := Option.isSome_iff_exists.mp hthere
  obtain ⟨-, hlookup, hanswer, -, hreplay⟩ := own_database s switchoverCall.request hidentity hd
  obtain ⟨db, hfound, rfl⟩ := hreplay (.numbered 1) sampleOwned rfl (Classifier.scopeLifted_ofMap _) existing hexisting
  exact ⟨db, hexisting, (hlookup db false none).mpr ⟨rfl, rfl, hfound, rfl⟩,
    (hanswer 8 "ldb-#3" db false none s).mpr ⟨rfl, rfl, hfound, rfl, rfl⟩⟩

/-! ## Own databases under legacy classifiers -/

/-- A database of the controller `shop` from before scopes. -/
def sampleOwn : LogicalDatabase :=
  ⟨"ldb-legacy", .ofMap (.ofList [("namespace", .string "shop"), ("microserviceName", .string "cart"), ("isServiceDb", .bool true)]),
    none, "postgresql", "shop", "pg", ["admin"], [], [], none, false, 0⟩

/-- The controller with its active member and a cluster for new databases. -/
def sampleController : Store :=
  (Store.empty.putPhysical ⟨"pg", "postgresql", "http://pg", none, ⟨"v2", ["admin"], .empty⟩, .run, .empty, true, none, 0, 0⟩)
    |>.putDomain ⟨"shop", [⟨"shop-blue", .active, none⟩], 1⟩

theorem sampleOwn_exact : (sampleController.putLogical sampleOwn).IndexExact := by
  have hexact : sampleController.IndexExact :=
    ⟨IndexExact.empty.logical_id, IndexExact.empty.shaped, IndexExact.empty.index, IndexExact.empty.once⟩
  exact (hexact.putLogical_new_iff rfl rfl rfl (by decide +kernel)).mpr (by decide +kernel)

/-- The controller holds a database for the request under the legacy equivalent of its classifier. A lookup misses it, and the request
makes another one in the active member. -/
theorem own_legacy_missed :
    let s := sampleController.putLogical sampleOwn
    s.IndexExact ∧ (∃ d, s.domain? "shop" = some d) ∧
      switchoverCall.request.identity = .ok (Classifier.service "shop" "cart", "shop") ∧
      s.existing? "postgresql" (Classifier.service "shop" "cart") = some (.legacy sampleOwn.reread) ∧
      s.lookup switchoverCall.request = .ok .notFound ∧
      ∃ db applied s', s.getOrCreate 2 "ldb-#1" switchoverCall.request = .ok (.resolved db true true applied, s') ∧
        db.ns = "shop-blue" := by
  intro s
  have hidentity : switchoverCall.request.identity = .ok (Classifier.service "shop" "cart", "shop") := rfl
  have hdomain : s.domain? "shop" = some ⟨"shop", [⟨"shop-blue", .active, none⟩], 1⟩ := rfl
  have hplaced : ((s.getOrCreate 2 "ldb-#1" switchoverCall.request).toOption.bind fun out => out.1.database?).isSome = true := by
    decide +kernel
  refine ⟨sampleOwn_exact, ⟨_, hdomain⟩, hidentity, rfl, rfl, ?_⟩
  rcases (s.agreed 2 "ldb-#1" switchoverCall.request).of_notFound rfl with
    ⟨db, redirected, applied, s', hanswer, -⟩ | hanswer | ⟨id, hpin, -⟩
  · obtain ⟨rfl, m, hactive, hns, -⟩ := created_in_active hidentity hdomain hanswer
    obtain rfl : (⟨"shop-blue", .active, none⟩ : Member) = m := Option.some.inj hactive
    exact ⟨db, applied, s', hanswer, hns⟩
  · rw [hanswer] at hplaced
    cases hplaced
  · cases hpin

end DatabaseBroker
