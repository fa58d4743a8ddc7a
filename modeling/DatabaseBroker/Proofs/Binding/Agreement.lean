import DatabaseBroker.Proofs.Binding.Upgrade

/-!
# Lookups and requests agree

A lookup and a request search in the same way, and differ only in what they do about a database that is found under its legacy
shape or not at all (`Store.Agreed`). A request that was answered with a database finds that database when it is sent again
(`Store.FoundAgain`). It is not enough that the index leads to the database then: a controller namespace that had none may have one
by now, and the request is not redirected any more. So all that is used of the second store is that whatever is found in it is the
database or was found before (`Store.Follows`), and the request leads to where it led or to the database (`Follows.address_again`).

The database is the same one, but need not be the same record: the second answer is what the store kept of the first
(`repeated_answer_differs`).
-/

namespace DatabaseBroker

open Store

/-- The database of an answer. -/
def BindingOutcome.database? : BindingOutcome → Option LogicalDatabase
  | .resolved db _ _ _ => some db
  | _ => none

namespace Store

/-! ## One store -/

/-- What a lookup is answered with, and what the request: the cases are those of the search. -/
inductive Agreed (s : Store) (now : UInt64) (newId : String) (r : DatabaseRequest) :
    Except RoutingError BindingOutcome → Except RoutingError (BindingOutcome × Store) → Prop where
  | refused {outcome : BindingOutcome} (haddress : s.address r = .error (.answer outcome)) :
      Agreed s now newId r (.ok outcome) (.ok (outcome, s))
  | failed {e : RoutingError} (haddress : s.address r = .error (.failure e)) : Agreed s now newId r (.error e) (.error e)
  | found {a : Address} {db : LogicalDatabase} (haddress : s.address r = .ok a)
      (hfound : s.existing? r.dbType a.classifier = some (.current db)) :
      Agreed s now newId r (.ok (r.bound db a.redirected)) (.ok (r.bound db a.redirected, s))
  | upgraded {a : Address} {db : LogicalDatabase} (haddress : s.address r = .ok a)
      (hfound : s.existing? r.dbType a.classifier = some (.legacy db)) :
      Agreed s now newId r (.ok (r.bound db a.redirected))
        (.ok (r.bound (db.upgrade a.classifier) a.redirected, s.putLogical (db.upgrade a.classifier)))
  | created {a : Address} {target : PhysicalDatabase} {applied : Option AppliedRule} (haddress : s.address r = .ok a)
      (hmissing : s.existing? r.dbType a.classifier = none) (hplace : s.placeFor r a = .ok (target, applied)) :
      Agreed s now newId r (.ok .notFound)
        (.ok (.resolved (.make newId now r.dbType a target) true a.redirected applied, (s.create now newId r.dbType a target).2))
  | unplaced {a : Address} (haddress : s.address r = .ok a) (hmissing : s.existing? r.dbType a.classifier = none) :
      Agreed s now newId r (.ok .notFound) (.ok (.noAdapter r.dbType, s))
  | unpinned {a : Address} {id : String} (haddress : s.address r = .ok a)
      (hmissing : s.existing? r.dbType a.classifier = none) (hpin : r.physicalDatabaseId = some id) :
      Agreed s now newId r (.ok .notFound) (.error (.invalid (.pinnedNotRegistered id r.dbType)))

/-- A lookup and a request agree on every store. -/
theorem agreed (s : Store) (now : UInt64) (newId : String) (r : DatabaseRequest) :
    s.Agreed now newId r (s.lookup r) (s.getOrCreate now newId r) := by
  cases haddress : s.address r with
  | error ending =>
    cases ending with
    | answer outcome =>
      simp only [lookup, getOrCreate, haddress]
      exact .refused haddress
    | failure e =>
      simp only [lookup, getOrCreate, haddress]
      exact .failed haddress
  | ok a =>
    cases hexisting : s.existing? r.dbType a.classifier with
    | some existing =>
      cases existing with
      | current db =>
        simp only [lookup, getOrCreate, haddress, hexisting]
        exact .found haddress hexisting
      | legacy db =>
        rw [lookup_of_legacy haddress hexisting, getOrCreate_of_legacy haddress hexisting]
        exact .upgraded haddress hexisting
    | none =>
      rw [lookup_of_missing haddress hexisting]
      simp only [getOrCreate, haddress, hexisting]
      rcases s.placeFor_cases (r := r) (a := a) with ⟨target, applied, _, hplace, -⟩ | hplace | ⟨id, hpin, hplace⟩
      · simp only [hplace]
        exact .created haddress hexisting hplace
      · simp only [hplace]
        exact .unplaced haddress hexisting
      · simp only [hplace]
        exact .unpinned haddress hexisting hpin

namespace Agreed

variable {s : Store} {now : UInt64} {newId : String} {r : DatabaseRequest} {looked : Except RoutingError BindingOutcome}
  {answer : Except RoutingError (BindingOutcome × Store)} (h : s.Agreed now newId r looked answer)
include h

/-- A request is answered with the database that a lookup is answered with, upgraded or as it is. -/
theorem of_resolved {db : LogicalDatabase} {created redirected : Bool} {applied : Option AppliedRule}
    (hlooked : looked = .ok (.resolved db created redirected applied)) :
    ∃ db' s', answer = .ok (.resolved db' false redirected none, s') ∧ db'.id = db.id := by
  cases h with
  | refused haddress =>
    cases hlooked
    exact absurd haddress address_ne_resolved
  | found =>
    obtain ⟨hadmits, rfl, -, rfl, -⟩ := DatabaseRequest.admits_of_bound (Except.ok.inj hlooked)
    exact ⟨_, s, by rw [hadmits.bound_eq], rfl⟩
  | @upgraded a db' =>
    obtain ⟨hadmits, rfl, -, rfl, -⟩ := DatabaseRequest.admits_of_bound (Except.ok.inj hlooked)
    have hupgraded : r.Admits (db'.upgrade a.classifier) := hadmits
    exact ⟨db'.upgrade a.classifier, _, by rw [hupgraded.bound_eq], rfl⟩
  | _ => cases hlooked

/-- A request is refused as a lookup is. -/
theorem of_refused {outcome : BindingOutcome} (hlooked : looked = .ok outcome) (hnone : outcome.database? = none)
    (hmade : outcome ≠ .notFound) : ∃ s', answer = .ok (outcome, s') := by
  cases h with
  | refused => exact ⟨s, by rw [Except.ok.inj hlooked]⟩
  | failed => cases hlooked
  | found => exact ⟨s, by rw [Except.ok.inj hlooked]⟩
  | @upgraded a db =>
    have hpin : r.physicalDatabaseId.any (· ≠ db.physicalDatabaseId) = true := by
      by_contra hpin
      rw [← Except.ok.inj hlooked, DatabaseRequest.Admits.bound_eq (Bool.eq_false_iff.mpr hpin)] at hnone
      cases hnone
    have houtcome : r.bound (db.upgrade a.classifier) a.redirected = r.bound db a.redirected :=
      (if_pos hpin).trans (if_pos hpin).symm
    exact ⟨_, by rw [houtcome, Except.ok.inj hlooked]⟩
  | created => exact absurd (Except.ok.inj hlooked).symm hmade
  | unplaced => exact absurd (Except.ok.inj hlooked).symm hmade
  | unpinned => exact absurd (Except.ok.inj hlooked).symm hmade

/-- A request fails as a lookup does. -/
theorem of_failed {e : RoutingError} (hlooked : looked = .error e) : answer = .error e := by
  cases h with
  | failed =>
    cases hlooked
    rfl
  | _ => cases hlooked

/-- A request for a database that a lookup misses makes it, or says that there is no place for it. -/
theorem of_notFound (hlooked : looked = .ok .notFound) :
    (∃ db redirected applied s', answer = .ok (.resolved db true redirected applied, s') ∧ db.id = newId) ∨
      answer = .ok (.noAdapter r.dbType, s) ∨
      ∃ id, r.physicalDatabaseId = some id ∧ answer = .error (.invalid (.pinnedNotRegistered id r.dbType)) := by
  have hne : ∀ {db : LogicalDatabase} {redirected : Bool}, r.bound db redirected ≠ .notFound := by
    intro db redirected hbound
    rcases bound_cases r db redirected with h | h <;> rw [h] at hbound <;> cases hbound
  cases h with
  | refused haddress =>
    cases hlooked
    rcases refusal_of_address haddress with ⟨_, hrefusal⟩ | ⟨_, _, hrefusal⟩ <;> cases hrefusal
  | failed => cases hlooked
  | found => exact absurd (Except.ok.inj hlooked) hne
  | upgraded => exact absurd (Except.ok.inj hlooked) hne
  | created => exact Or.inl ⟨_, _, _, _, rfl, rfl⟩
  | unplaced => exact Or.inr (Or.inl rfl)
  | unpinned haddress hmissing hpin => exact Or.inr (Or.inr ⟨_, hpin, rfl⟩)

end Agreed

/-! ## The store after a request -/

/-- Every entry of the index leads to a database that is stored and not archived. -/
def IndexLive (s : Store) : Prop :=
  ∀ key id, s.classifierIndex.get? key = some id → ∃ db, s.logical? id = some db ∧ db.markedForDrop = false

/-- Every entry of the index is a key of the type of the database that it leads to. -/
def IndexTyped (s : Store) : Prop :=
  ∀ key id db, s.classifierIndex.get? key = some id → s.logical? id = some db → ∃ c, classifierKey db.dbType c = key

/-- A store with the domains of another one, where for each classifier a database is found or what is found in the other. -/
structure Follows (s s' : Store) (dbType : String) (db : LogicalDatabase) : Prop where
  domains : s'.domains = s.domains
  find : ∀ c, s'.findLogical? dbType c = some db ∨ s'.findLogical? dbType c = s.findLogical? dbType c

variable {s s' : Store}

/-- What is found once a database is stored that is not archived: the database, for its own classifiers, and for others it or
what was found before. -/
theorem findLogical?_putLogical {db : LogicalDatabase} (hlive : db.markedForDrop = false) (dbType : String) (c : Classifier) :
    (s.putLogical db).findLogical? dbType c = some db.reread ∨
      classifierKey dbType c ∉ db.keys ∧ (s.putLogical db).findLogical? dbType c = s.findLogical? dbType c := by
  have hindex : (s.putLogical db).classifierIndex.get? (classifierKey dbType c) =
      if classifierKey dbType c ∈ db.keys then some db.id else s.classifierIndex.get? (classifierKey dbType c) := by
    rw [putLogical_eq]
    exact LogicalDatabase.get?_reindex_of_live hlive _ _
  by_cases hkey : classifierKey dbType c ∈ db.keys
  · left
    rw [findLogical?, hindex, if_pos hkey, Option.bind_some, logical?_putLogical, if_pos rfl]
  · rw [findLogical?, hindex, if_neg hkey, findLogical?]
    cases hentry : s.classifierIndex.get? (classifierKey dbType c) with
    | none => exact Or.inr ⟨hkey, rfl⟩
    | some id =>
      rw [Option.bind_some, Option.bind_some, logical?_putLogical]
      by_cases hid : db.id = id
      · exact Or.inl (if_pos hid)
      · exact Or.inr ⟨hkey, if_neg hid⟩

/-- The same databases are found where bindings are the same. -/
theorem SameBindings.findLogical?_eq (h : SameBindings s s') (dbType : String) (c : Classifier) :
    s'.findLogical? dbType c = s.findLogical? dbType c := by
  have hlogical : s'.logical? = s.logical? := funext fun id => by rw [logical?, h.logicals, logical?]
  rw [findLogical?, h.classifierIndex, hlogical, findLogical?]

/-- Storing a database that is not archived is followed by a store where it is found. -/
theorem Follows.of_putLogical {db : LogicalDatabase} (hlive : db.markedForDrop = false)
    (hsame : SameBindings (s.putLogical db) s') (dbType : String) : s.Follows s' dbType db.reread where
  domains := by rw [hsame.domains, putLogical_eq]
  find c := by
    rw [hsame.findLogical?_eq]
    exact (findLogical?_putLogical hlive dbType c).imp_right And.right

namespace Follows

variable {dbType : String} {db : LogicalDatabase}

/-- A classifier that led somewhere without a database leads there again, or to a classifier for which the new database is found;
a database without a version does not stand in the way. -/
theorem redirect_again (h : s.Follows s' dbType db) (hversion : db.bgVersion = none) {c : Classifier} {ns : String}
    {there : Redirection} (hredirect : s.redirect c dbType ns = .ok there)
    (hmissing : s.findLogical? dbType there.classifier = none) :
    ∃ there', s'.redirect c dbType ns = .ok there' ∧
      (there' = there ∨ s'.findLogical? dbType there'.classifier = some db) := by
  have hdomain : s'.domain? = s.domain? := funext fun controller => by rw [domain?, h.domains, domain?]
  have hactive : s'.activeNamespace ns = s.activeNamespace ns := by rw [activeNamespace, hdomain, activeNamespace]
  rcases h.find (c.withNamespace ns) with hhere | hhere
  · exact ⟨⟨c.withNamespace ns, ns, false⟩, by simp [redirect, hhere], Or.inr hhere⟩
  · refine ⟨there, ?_, Or.inl rfl⟩
    simp only [redirect, bind, Except.bind] at hredirect ⊢
    rw [hdomain, hhere, hactive]
    split at hredirect
    · rename_i hstays
      rw [if_pos hstays, hredirect]
    · rename_i hleaves
      rw [if_neg hleaves]
      split at hredirect
      · cases hredirect
      · rename_i active hok
        split at hredirect
        · cases hredirect
        · cases hredirect
          rcases h.find (c.withNamespace active) with hthere | hthere
          · simp [hthere, hversion]
          · rw [hthere, hmissing]
            rfl

/-- A request that led to a classifier without a database leads there again, or to a classifier for which the new database is
found. -/
theorem address_again {r : DatabaseRequest} {a : Address} (h : s.Follows s' r.dbType db) (hversion : db.bgVersion = none)
    (haddress : s.address r = .ok a) (hmissing : s.findLogical? r.dbType a.classifier = none) :
    ∃ a', s'.address r = .ok a' ∧ (a' = a ∨ s'.findLogical? r.dbType a'.classifier = some db) := by
  unfold address at haddress
  split at haddress
  · cases haddress
  rename_i c own hidentity
  split at haddress
  · rename_i there hredirect
    cases haddress
    obtain ⟨there', hredirect', hcases⟩ := h.redirect_again hversion hredirect hmissing
    refine ⟨⟨there'.classifier, there'.ns, there'.redirected⟩, by simp only [address, hidentity, hredirect'], ?_⟩
    rcases hcases with rfl | hfound
    · exact Or.inl rfl
    · exact Or.inr hfound
  · cases haddress
  · cases haddress

end Follows

/-! ## The request again -/

/-- A database that is found under its legacy shape is what a lookup is answered with, and the request with its upgrade. -/
theorem answers_of_legacy {r : DatabaseRequest} {a : Address} {db : LogicalDatabase} (haddress : s.address r = .ok a)
    (hadmits : r.Admits db) (hexisting : s.existing? r.dbType a.classifier = some (.legacy db)) :
    s.lookup r = .ok (.resolved db false a.redirected none) ∧
      ∀ now newId, s.getOrCreate now newId r =
        .ok (.resolved (db.upgrade a.classifier) false a.redirected none, s.putLogical (db.upgrade a.classifier)) := by
  have hupgraded : r.Admits (db.upgrade a.classifier) := hadmits
  refine ⟨?_, fun now newId => ?_⟩
  · rw [lookup_of_legacy haddress hexisting, hadmits.bound_eq]
  · rw [getOrCreate_of_legacy haddress hexisting, hupgraded.bound_eq]

/-- What a request finds in the store `s'` that it left, when it was answered with the database `db` before: the same database, not
made again. A database of the type that the request asks for is found as the store kept it, or as it was answered when nothing was
written, and the request changes nothing any more. -/
structure FoundAgain (s s' : Store) (r : DatabaseRequest) (db found : LogicalDatabase) (redirected : Bool) : Prop where
  id : found.id = db.id
  lookup : s'.lookup r = .ok (.resolved found false redirected none)
  request : ∀ now newId, ∃ again s'', s'.getOrCreate now newId r = .ok (.resolved again false redirected none, s'') ∧
    again.id = db.id
  kept : db.dbType = r.dbType → found = db.reread ∨ found = db ∧ s' = s
  steady : db.dbType = r.dbType → ∀ now newId, s'.getOrCreate now newId r = .ok (.resolved found false redirected none, s')

/-- A request finds a database again that the index holds for what it leads to. -/
theorem FoundAgain.of_found {r : DatabaseRequest} {a : Address} {db found : LogicalDatabase} (haddress : s'.address r = .ok a)
    (hfound : s'.findLogical? r.dbType a.classifier = some found) (hadmits : r.Admits found) (hid : found.id = db.id)
    (hkept : found = db.reread ∨ found = db ∧ s' = s) : s.FoundAgain s' r db found a.redirected := by
  obtain ⟨hlookup, hrequest⟩ := answers_of_found haddress hadmits hfound
  exact ⟨hid, hlookup, fun now newId => ⟨found, s', hrequest now newId, hid⟩, fun _ => hkept, fun _ => hrequest⟩

/-- A request finds the database again that it stored for what it leads to. -/
theorem Follows.foundAgain {r : DatabaseRequest} {a : Address} {db : LogicalDatabase} (h : s.Follows s' r.dbType db.reread)
    (hversion : db.bgVersion = none) (hadmits : r.Admits db) (haddress : s.address r = .ok a)
    (hmissing : s.findLogical? r.dbType a.classifier = none)
    (hstored : s'.findLogical? r.dbType a.classifier = some db.reread) :
    ∃ found redirected, s.FoundAgain s' r db found redirected := by
  obtain ⟨a', haddress', hcases⟩ := h.address_again hversion haddress hmissing
  have hfound : s'.findLogical? r.dbType a'.classifier = some db.reread := by
    rcases hcases with rfl | hfound
    · exact hstored
    · exact hfound
  exact ⟨db.reread, a'.redirected, .of_found haddress' hfound hadmits rfl (Or.inl rfl)⟩

/-- A request finds the database again that it upgraded. One of another type, which only a stray entry leads to, is found under its
legacy shape again, and upgraded again. -/
theorem foundAgain_of_upgrade {r : DatabaseRequest} {a : Address} {legacy : Classifier} {db : LogicalDatabase}
    (haddress : s.address r = .ok a) (hmissing : s.findLogical? r.dbType a.classifier = none)
    (hlegacy : a.classifier.legacyEquivalent? = some legacy) (hfound : s.findLogical? r.dbType legacy = some db)
    (hlive : db.markedForDrop = false) (hversion : db.bgVersion = none) (hadmits : r.Admits db) :
    ∃ found redirected,
      s.FoundAgain (s.putLogical (db.upgrade a.classifier)) r (db.upgrade a.classifier) found redirected := by
  have hupgraded : (db.upgrade a.classifier).markedForDrop = false := hlive
  have hfollows : s.Follows (s.putLogical (db.upgrade a.classifier)) r.dbType (db.upgrade a.classifier).reread :=
    .of_putLogical hupgraded (.refl _) r.dbType
  rcases findLogical?_putLogical hupgraded r.dbType a.classifier with hstored | ⟨hkey, hother⟩
  · exact hfollows.foundAgain hversion hadmits haddress hmissing hstored
  · have htype : db.dbType ≠ r.dbType := by
      rintro htype
      refine hkey (LogicalDatabase.mem_keys_iff.mpr (Or.inl ?_))
      rw [← htype]
      rfl
    obtain ⟨a', haddress', rfl | hagain⟩ := hfollows.address_again hversion haddress hmissing
    · have hagain : ∃ found, (s.putLogical (db.upgrade a'.classifier)).findLogical? r.dbType legacy = some found ∧
          found.id = db.id ∧ found.physicalDatabaseId = db.physicalDatabaseId := by
        rcases hfollows.find legacy with hagain | hagain
        · exact ⟨_, hagain, rfl, rfl⟩
        · exact ⟨db, hagain.trans hfound, rfl, rfl⟩
      obtain ⟨found, hagain, hid, hphysical⟩ := hagain
      have hadmits' : r.Admits found := by rwa [DatabaseRequest.Admits, hphysical]
      obtain ⟨hlookup, hrequest⟩ := answers_of_legacy haddress' hadmits'
        (existing?_eq_legacy_iff.mpr ⟨hother.trans hmissing, legacy, hlegacy, hagain⟩)
      exact ⟨found, a'.redirected, hid, hlookup, fun now newId => ⟨_, _, hrequest now newId, hid⟩,
        fun hsame => absurd hsame htype, fun hsame => absurd hsame htype⟩
    · exact ⟨_, a'.redirected, .of_found haddress' hagain hadmits rfl (Or.inl rfl)⟩

/-- A request finds the database again that it made. -/
theorem foundAgain_of_create (hphysical : ∀ id p, s.physical? id = some p → p.id = id) {now : UInt64} {newId : String}
    {r : DatabaseRequest} {a : Address} {target : PhysicalDatabase} {applied : Option AppliedRule}
    (haddress : s.address r = .ok a) (hmissing : s.findLogical? r.dbType a.classifier = none)
    (hplace : s.placeFor r a = .ok (target, applied)) :
    ∃ found redirected,
      s.FoundAgain (s.create now newId r.dbType a target).2 r (.make newId now r.dbType a target) found redirected := by
  let db := LogicalDatabase.make newId now r.dbType a target
  have hadmits : r.Admits db := by
    unfold placeFor at hplace
    split at hplace
    · rename_i id hpin
      split at hplace
      · rename_i p hp
        cases hplace
        have hid : target.id = id := hphysical id target (Option.filter_eq_some_iff.mp hp).1
        simp [DatabaseRequest.Admits, hpin, db, LogicalDatabase.make, hid]
      · cases hplace
    · rename_i hpin
      simp [DatabaseRequest.Admits, hpin]
  have hsame : SameBindings (s.putLogical db) (s.create now newId r.dbType a target).2 :=
    .of_sameButRegistry (.joinMigration (s.putLogical db) now db)
  have hstored : (s.create now newId r.dbType a target).2.findLogical? r.dbType a.classifier = some db.reread := by
    rw [hsame.findLogical?_eq]
    have hlive : db.markedForDrop = false := rfl
    rcases findLogical?_putLogical hlive r.dbType a.classifier with hstored | ⟨hkey, -⟩
    · exact hstored
    · exact absurd (LogicalDatabase.mem_keys_iff.mpr (Or.inl rfl)) hkey
  exact (Follows.of_putLogical rfl hsame r.dbType).foundAgain rfl hadmits haddress hmissing hstored

/-- A request that was answered with a database without a version finds it again, where the index leads to databases that are not
archived. -/
theorem foundAgain (hphysical : ∀ id p, s.physical? id = some p → p.id = id) (hlive : s.IndexLive) {now : UInt64}
    {newId : String} {r : DatabaseRequest} {db : LogicalDatabase} (hresolved : s.Resolved now newId r db s')
    (hversion : db.bgVersion = none) : ∃ found redirected, s.FoundAgain s' r db found redirected := by
  cases hresolved with
  | found haddress hfound hadmits => exact ⟨_, _, .of_found haddress hfound hadmits rfl (Or.inr ⟨rfl, rfl⟩)⟩
  | @upgraded a legacy db haddress hmissing hlegacy hfound hadmits =>
    obtain ⟨id, hentry, hdb⟩ := findLogical?_eq_some_iff.mp hfound
    obtain ⟨db', hdb', hdrop⟩ := hlive _ id hentry
    obtain rfl : db = db' := Option.some.inj (hdb.symm.trans hdb')
    exact foundAgain_of_upgrade haddress hmissing hlegacy hfound hdrop hversion hadmits
  | created haddress hmissing hplace =>
    exact foundAgain_of_create hphysical haddress (findLogical?_of_missing hmissing) hplace

/-- What is found for a type is of the type where the entries of the index are. -/
theorem IndexTyped.dbType_of_found (h : s.IndexTyped) {dbType : String} {c : Classifier} {db : LogicalDatabase}
    (hfound : s.findLogical? dbType c = some db) : db.dbType = dbType := by
  obtain ⟨id, hentry, hdb⟩ := findLogical?_eq_some_iff.mp hfound
  obtain ⟨c', hkey⟩ := h _ id db hentry hdb
  exact (Classifier.classifierKey_inj hkey).1

/-- So is what a request is answered with. -/
theorem IndexTyped.dbType_of_resolved (h : s.IndexTyped) {now : UInt64} {newId : String} {r : DatabaseRequest}
    {db : LogicalDatabase} (hresolved : s.Resolved now newId r db s') : db.dbType = r.dbType := by
  cases hresolved with
  | found haddress hfound => exact h.dbType_of_found hfound
  | @upgraded a legacy db haddress hmissing hlegacy hfound =>
    have htype : db.dbType = r.dbType := h.dbType_of_found hfound
    exact htype
  | created => rfl

/-- Bindings that are sound have an index that leads to databases that are not archived. -/
theorem BindingsSound.indexLive (h : s.BindingsSound .univ) : s.IndexLive := by
  intro key id hentry
  obtain ⟨db, hdb, hlive, -⟩ := h.live_of_entry hentry trivial
  exact ⟨db, hdb, hlive⟩

/-- Its entries are keys of their types. -/
theorem BindingsSound.indexTyped (h : s.BindingsSound .univ) : s.IndexTyped := by
  intro key id db hentry hdb
  exact ⟨db.classifier, ((h.index key id db hdb (Or.inl trivial)).mp hentry).2⟩

/-- The two databases that a request is answered with when it is sent twice, and the store in between, if the first one is made and
the second one is not. -/
def answeredTwice? (s : Store) (r : DatabaseRequest) (first second : String) : Option (LogicalDatabase × Store × LogicalDatabase) :=
  match s.getOrCreate 0 first r with
  | .ok (.resolved db true _ _, s') =>
    match s'.getOrCreate 0 second r with
    | .ok (.resolved again false _ _, _) => some (db, s', again)
    | _ => none
  | _ => none

theorem answeredTwice?_eq_some {r : DatabaseRequest} {first second : String} {db again : LogicalDatabase}
    (h : s.answeredTwice? r first second = some (db, s', again)) :
    (∃ redirected applied, s.getOrCreate 0 first r = .ok (.resolved db true redirected applied, s')) ∧
      ∃ redirected applied s'', s'.getOrCreate 0 second r = .ok (.resolved again false redirected applied, s'') := by
  unfold answeredTwice? at h
  split at h
  · rename_i hfirst
    split at h
    · rename_i hsecond
      cases h
      exact ⟨⟨_, _, hfirst⟩, _, _, _, hsecond⟩
    · cases h
  · cases h

end Store

/-! ## Every store -/

/-- A lookup and a request on every store, in five parts.
1. When the lookup is answered with a database, the request is answered with a database of its id, not made and redirected alike.
2. When the lookup is refused, the request is refused with the same answer.
3. When the lookup fails, the request fails alike.
4. When the lookup misses the database, the request makes one under the new id, or says that there is no adapter, or that the
   physical database that it pins is not registered with the type.
5. When physical databases stand under their ids, the index leads to databases that are not archived, and the request is answered
   with a database without a version, the request finds it again: the request and the lookup are then answered with a database of
   its id, not made. One of the type that is asked for is the same record as the store keeps it, and nothing is changed; and it is
   of that type where the entries of the index are of the types of their databases. -/
theorem lookup_agrees_with_getOrCreate (s : Store) (r : DatabaseRequest) :
    (∀ db created redirected applied, s.lookup r = .ok (.resolved db created redirected applied) → ∀ now newId,
      ∃ db' s', s.getOrCreate now newId r = .ok (.resolved db' false redirected none, s') ∧ db'.id = db.id) ∧
    (∀ outcome, s.lookup r = .ok outcome → outcome.database? = none → outcome ≠ .notFound → ∀ now newId,
      ∃ s', s.getOrCreate now newId r = .ok (outcome, s')) ∧
    (∀ e, s.lookup r = .error e → ∀ now newId, s.getOrCreate now newId r = .error e) ∧
    (s.lookup r = .ok .notFound → ∀ now newId,
      (∃ db redirected applied s', s.getOrCreate now newId r = .ok (.resolved db true redirected applied, s') ∧ db.id = newId) ∨
      s.getOrCreate now newId r = .ok (.noAdapter r.dbType, s) ∨
      ∃ id, r.physicalDatabaseId = some id ∧
        s.getOrCreate now newId r = .error (.invalid (.pinnedNotRegistered id r.dbType))) ∧
    ((∀ id p, s.physical? id = some p → p.id = id) → s.IndexLive → ∀ now newId db created redirected applied s',
      s.getOrCreate now newId r = .ok (.resolved db created redirected applied, s') → db.bgVersion = none →
      (∃ found redirected', s.FoundAgain s' r db found redirected') ∧ (s.IndexTyped → db.dbType = r.dbType)) := by
  refine ⟨fun db created redirected applied hlookup now newId => ?_, fun outcome hlookup hnone hmade now newId => ?_,
    fun e hlookup now newId => ?_, fun hlookup now newId => ?_, fun hphysical hlive => ?_⟩
  · exact (s.agreed now newId r).of_resolved hlookup
  · exact (s.agreed now newId r).of_refused hlookup hnone hmade
  · exact (s.agreed now newId r).of_failed hlookup
  · exact (s.agreed now newId r).of_notFound hlookup
  · intro now newId db created redirected applied s' hok hversion
    have hresolved := resolved_of_getOrCreate hok
    exact ⟨foundAgain hphysical hlive hresolved hversion, fun htyped => htyped.dbType_of_resolved hresolved⟩

/-- A request that is sent twice to the sample of a migration makes its database, and finds it again without a change. -/
theorem lookup_agrees_of_sampleMigration :
    let s := (replay (.numbered 1) sampleMigration).store
    let r : DatabaseRequest := ⟨Classifier.service "shop" "pay", "postgresql", none, none⟩
    ∃ db redirected applied s' found redirected',
      s.getOrCreate 0 "ldb-3" r = .ok (.resolved db true redirected applied, s') ∧ found.id = db.id ∧
      s'.getOrCreate 0 "ldb-4" r = .ok (.resolved found false redirected' none, s') := by
  intro s r
  have hkeeps : Broker.start.keepsKeys (.numbered 1) sampleMigration = true := by decide +kernel
  have hsound : s.BindingsSound .univ := bindingsSound_replay (settles_of_keepsKeys hkeeps)
  have htabled : s.Tabled := (Broker.consistent_replay (.numbered 1) sampleMigration).migrations.tabled
  have hanswers : (s.answeredTwice? r "ldb-3" "ldb-4").any (fun answers => answers.1.bgVersion.isNone) = true := by
    decide +kernel
  obtain ⟨⟨db, s', again⟩, htwice, hversion⟩ := (Option.any_eq_true _ _).mp hanswers
  obtain ⟨⟨redirected, applied, hfirst⟩, -⟩ := answeredTwice?_eq_some htwice
  obtain ⟨⟨found, redirected', hagain⟩, htype⟩ := (lookup_agrees_with_getOrCreate s r).2.2.2.2 htabled.physical_id
    hsound.indexLive 0 "ldb-3" db true redirected applied s' hfirst (Option.isNone_iff_eq_none.mp hversion)
  exact ⟨db, redirected, applied, s', found, redirected', hfirst, hagain.id, hagain.steady (htype hsound.indexTyped) 0 "ldb-4"⟩

/-- A request that is sent twice is not answered with the same record where a classifier drifts: a store with records under their
ids, and an index that leads to no archived database, makes the database under one classifier and finds it under another. -/
theorem repeated_answer_differs :
    let s := (replay (.numbered 1) (sampleDrift.take 2)).store
    s.Tabled ∧ s.IndexLive ∧ s.logical? "ldb-1" = none ∧
      ∃ db redirected applied s',
        s.getOrCreate 0 "ldb-1" driftingCall.request = .ok (.resolved db true redirected applied, s') ∧ db.bgVersion = none ∧
        s'.logical? "ldb-2" = none ∧ ∃ again redirected' applied' s'',
          s'.getOrCreate 0 "ldb-2" driftingCall.request = .ok (.resolved again false redirected' applied', s'') ∧ again ≠ db := by
  intro s
  have hkeeps : Broker.start.keepsKeys (.numbered 1) (sampleDrift.take 2) = true := by decide +kernel
  have hsound : s.BindingsSound .univ := bindingsSound_replay (settles_of_keepsKeys hkeeps)
  have htabled : s.Tabled := (Broker.consistent_replay (.numbered 1) (sampleDrift.take 2)).migrations.tabled
  have hanswers : (s.answeredTwice? driftingCall.request "ldb-1" "ldb-2").any (fun (db, s', again) =>
      db.bgVersion.isNone && (s'.logical? "ldb-2").isNone && again.classifier.canonicalKey ≠ db.classifier.canonicalKey) =
        true := by
    decide +kernel
  obtain ⟨⟨db, s', again⟩, htwice, hdiffer⟩ := (Option.any_eq_true _ _).mp hanswers
  simp only [Bool.and_eq_true, Option.isNone_iff_eq_none, decide_eq_true_eq] at hdiffer
  obtain ⟨⟨hversion, hnew⟩, hkey⟩ := hdiffer
  obtain ⟨⟨redirected, applied, hfirst⟩, redirected', applied', s'', hsecond⟩ := answeredTwice?_eq_some htwice
  refine ⟨htabled, hsound.indexLive, by decide +kernel, db, redirected, applied, s', hfirst, hversion, hnew, again, redirected',
    applied', s'', hsecond, ?_⟩
  rintro rfl
  exact hkey rfl

end DatabaseBroker
