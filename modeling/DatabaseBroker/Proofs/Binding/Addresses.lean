import DatabaseBroker.Proofs.Classifier.Key
import DatabaseBroker.Proofs.Store.Outcomes

/-!
# Where requests lead

A request that is not refused leads to a valid classifier in the namespace that it names, its own or that of an active member
(`address_eq_ok`). One that carries the classifier of a stored database leads to that database, whether or not its namespace is
a controller by then (`address_of_found`). What a lookup answers stands in the index (`lookup_eq_resolved`), and what stands there
is answered when the request admits it (`answers_of_found`). `Store.Resolved` says how a request comes to be answered with a database.
-/

namespace DatabaseBroker

namespace Classifier

/-- A classifier in the namespace that it has already is itself. -/
theorem withNamespace_of_ns {c : Classifier} {ns : String} (h : c.ns = some ns) : c.withNamespace ns = c := by
  cases c
  simp only [withNamespace] at h ⊢
  rw [h]

/-- A classifier with a scope is in the current shape. -/
theorem modernize_of_scope {c : Classifier} (h : c.scope.isSome = true) : c.modernize = .ok c := by
  rw [modernize, if_pos]
  simpa [isLegacy, Option.isNone_eq_false_iff] using h

/-- Bringing a classifier into the current shape makes no extension of its scope. -/
theorem ScopeLifted.modernize {c c' : Classifier} (h : c.ScopeLifted) (hc : c.modernize = .ok c') : c'.ScopeLifted := by
  unfold Classifier.modernize at hc
  split at hc
  · cases hc
    exact h
  · split at hc
    · rename_i current hcurrent
      cases hc
      unfold toCurrent? at hcurrent
      split at hcurrent
      · cases hcurrent
      · cases hcurrent
        intro s hs
        have hother : ∀ key ∈ markerKeys, key ≠ Key.scope.text := by decide
        simp only [unmarked, markerKeys, List.foldl_cons, List.foldl_nil, KeyMap.get?_erase] at hs
        rw [if_neg (hother _ (by decide)), if_neg (hother _ (by decide))] at hs
        exact h s hs
    · cases hc

end Classifier

namespace DatabaseRequest

/-- A request that is not refused has a valid classifier of its namespace. -/
theorem identity_eq_ok {r : DatabaseRequest} {c : Classifier} {own : String} (h : r.identity = .ok (c, own)) :
    c.Valid ∧ c.ns = some own ∧ (r.classifier.ScopeLifted → c.ScopeLifted) := by
  simp only [identity, bind, Except.bind] at h
  split at h
  · cases h
  rename_i c' hmodern
  split at h
  · cases h
  rename_i hvalidate
  split at h
  · cases h
  cases h
  have hvalid := Classifier.validate_eq_ok_iff.mp hvalidate
  obtain ⟨ns, hns, -⟩ := hvalid.ns
  exact ⟨hvalid, by rw [hns, Option.getD_some], fun hlifted => hlifted.modernize hmodern⟩

/-- A request whose classifier has a valid current shape, and no other namespace, is not refused. -/
theorem identity_of_modernize {r : DatabaseRequest} {c : Classifier} {own : String} (hmodern : r.classifier.modernize = .ok c)
    (hvalid : c.Valid) (hown : c.ns = some own) (hns : r.ns = none ∨ r.ns = some own) : r.identity = .ok (c, own) := by
  have hfilter : r.ns.filter (· ≠ own) = none := by
    rcases hns with hns | hns
    · rw [hns]
      rfl
    · rw [hns]
      simp [Option.filter]
  simp only [identity, bind, Except.bind, hmodern, Classifier.validate_eq_ok_iff.mpr hvalid, hown, Option.getD_some, hfilter]

/-- A request with a valid classifier and no other namespace is not refused. -/
theorem identity_of_valid {r : DatabaseRequest} {own : String} (hvalid : r.classifier.Valid) (hown : r.classifier.ns = some own)
    (hns : r.ns = none ∨ r.ns = some own) : r.identity = .ok (r.classifier, own) :=
  identity_of_modernize (Classifier.modernize_of_scope hvalid.scope_isSome) hvalid hown hns

/-- A request pins no other physical database than that of a database. -/
def Admits (r : DatabaseRequest) (db : LogicalDatabase) : Prop := r.physicalDatabaseId.any (· ≠ db.physicalDatabaseId) = false

/-- A request is answered with a database that it admits. -/
theorem Admits.bound_eq {r : DatabaseRequest} {db : LogicalDatabase} (h : r.Admits db) (redirected : Bool) :
    r.bound db redirected = .resolved db false redirected none := by
  rw [bound, if_neg (by rw [h]; exact Bool.false_ne_true)]

/-- A request that is answered with a database admits it, and the database was there. -/
theorem admits_of_bound {r : DatabaseRequest} {db db' : LogicalDatabase} {redirected created redirected' : Bool}
    {applied : Option AppliedRule} (h : r.bound db redirected = .resolved db' created redirected' applied) :
    r.Admits db ∧ db = db' ∧ created = false ∧ redirected = redirected' ∧ applied = none := by
  unfold bound at h
  split at h
  · cases h
  · rename_i hpin
    cases h
    exact ⟨Bool.eq_false_iff.mpr hpin, rfl, rfl, rfl, rfl⟩

end DatabaseRequest

namespace Store

/-- No member of a domain is blank. -/
def MembersNamed (s : Store) : Prop :=
  ∀ controller d, s.domain? controller = some d → ∀ m ∈ d.members, Text.isBlank m.ns = false

/-- A classifier leads to its own namespace, or to a member of the domain of a controller. -/
theorem redirect_eq_ok {s : Store} {c : Classifier} {dbType ns : String} {there : Redirection}
    (h : s.redirect c dbType ns = .ok there) :
    there = ⟨c.withNamespace ns, ns, false⟩ ∨
      ∃ d m, s.domain? ns = some d ∧ m ∈ d.members ∧ there = ⟨c.withNamespace m.ns, m.ns, true⟩ := by
  simp only [redirect, bind, Except.bind] at h
  split at h
  · cases h
    exact Or.inl rfl
  split at h
  · cases h
  rename_i active hactive
  split at h
  · cases h
  cases h
  unfold activeNamespace at hactive
  split at hactive
  · cases hactive
  rename_i d hd
  split at hactive
  · cases hactive
  rename_i m hm
  cases hactive
  exact Or.inr ⟨d, m, hd, List.mem_of_find?_eq_some hm, rfl⟩

/-- What an address comes from. -/
theorem address_cases {s : Store} {r : DatabaseRequest} {a : Address} (h : s.address r = .ok a) :
    ∃ c own, r.identity = .ok (c, own) ∧
      (a = ⟨c.withNamespace own, own, false⟩ ∨
        ∃ d m, s.domain? own = some d ∧ m ∈ d.members ∧ a = ⟨c.withNamespace m.ns, m.ns, true⟩) := by
  unfold address at h
  split at h
  · cases h
  rename_i c own hidentity
  refine ⟨c, own, hidentity, ?_⟩
  split at h
  · rename_i there hredirect
    cases h
    rcases redirect_eq_ok hredirect with rfl | ⟨d, m, hd, hm, rfl⟩
    · exact Or.inl rfl
    · exact Or.inr ⟨d, m, hd, hm, rfl⟩
  · cases h
  · cases h

/-- An address has a valid classifier of its namespace. -/
theorem address_eq_ok {s : Store} {r : DatabaseRequest} {a : Address} (hmembers : s.MembersNamed) (h : s.address r = .ok a) :
    a.classifier.Valid ∧ a.classifier.ns = some a.ns ∧ (r.classifier.ScopeLifted → a.classifier.ScopeLifted) := by
  obtain ⟨c, own, hidentity, hcases⟩ := address_cases h
  obtain ⟨hvalid, hns, hlifted⟩ := DatabaseRequest.identity_eq_ok hidentity
  rcases hcases with rfl | ⟨d, m, hd, hm, rfl⟩
  · rw [Classifier.withNamespace_of_ns hns]
    exact ⟨hvalid, hns, hlifted⟩
  · exact ⟨hvalid.withNamespace (hmembers own d hd m hm), rfl, hlifted⟩

/-- An address has a classifier with a scope, whatever the members of domains are called. -/
theorem address_scope {s : Store} {r : DatabaseRequest} {a : Address} (h : s.address r = .ok a) :
    a.classifier.scope.isSome = true ∧ (r.classifier.ScopeLifted → a.classifier.ScopeLifted) := by
  obtain ⟨c, own, hidentity, hcases⟩ := address_cases h
  obtain ⟨hvalid, -, hlifted⟩ := DatabaseRequest.identity_eq_ok hidentity
  rcases hcases with rfl | ⟨d, m, -, -, rfl⟩
  · exact ⟨hvalid.scope_isSome, hlifted⟩
  · exact ⟨hvalid.scope_isSome, hlifted⟩

/-- A request that is not redirected leads to its own classifier. -/
theorem address_classifier_of_own {s : Store} {r : DatabaseRequest} {a : Address} (h : s.address r = .ok a)
    (hscope : r.classifier.scope.isSome = true) (hredirected : a.redirected = false) : a.classifier = r.classifier := by
  obtain ⟨c, own, hidentity, hcases⟩ := address_cases h
  have hc : c = r.classifier := by
    simp only [DatabaseRequest.identity, bind, Except.bind, Classifier.modernize_of_scope hscope] at hidentity
    split at hidentity
    · cases hidentity
    split at hidentity
    · cases hidentity
    · cases hidentity
      rfl
  rcases hcases with rfl | ⟨d, m, hd, hm, rfl⟩
  · exact (Classifier.withNamespace_of_ns (DatabaseRequest.identity_eq_ok hidentity).2.1).trans hc
  · cases hredirected

/-- A request for a namespace that is no controller is not redirected. -/
theorem address_of_noController {s : Store} {r : DatabaseRequest} {c : Classifier} {own : String}
    (hidentity : r.identity = .ok (c, own)) (hcontroller : s.domain? own = none) : s.address r = .ok ⟨c, own, false⟩ := by
  have hhere : c.withNamespace own = c := Classifier.withNamespace_of_ns (DatabaseRequest.identity_eq_ok hidentity).2.1
  simp only [address, hidentity, redirect, hcontroller, Option.isNone_none, Bool.true_or, if_true, hhere]

/-- A request whose classifier leads to a database in its own namespace is not redirected, controller or not. -/
theorem address_of_own {s : Store} {r : DatabaseRequest} {c : Classifier} {own : String} {db : LogicalDatabase}
    (hidentity : r.identity = .ok (c, own)) (hfound : s.findLogical? r.dbType c = some db) : s.address r = .ok ⟨c, own, false⟩ := by
  have hhere : c.withNamespace own = c := Classifier.withNamespace_of_ns (DatabaseRequest.identity_eq_ok hidentity).2.1
  have hredirect : s.redirect c r.dbType own = .ok ⟨c, own, false⟩ := by
    simp [redirect, hhere, hfound]
  simp only [address, hidentity, hredirect]

/-- A request with the classifier of a database that the index holds for it is not redirected. -/
theorem address_of_found {s : Store} {r : DatabaseRequest} {own : String} {db : LogicalDatabase}
    (hvalid : r.classifier.Valid) (hown : r.classifier.ns = some own) (hns : r.ns = none ∨ r.ns = some own)
    (hfound : s.findLogical? r.dbType r.classifier = some db) : s.address r = .ok ⟨r.classifier, own, false⟩ :=
  address_of_own (DatabaseRequest.identity_of_valid hvalid hown hns) hfound

/-- No database is answered before one is looked for. -/
theorem address_ne_resolved {s : Store} {r : DatabaseRequest} {db : LogicalDatabase} {created redirected : Bool}
    {applied : Option AppliedRule} : s.address r ≠ .error (.answer (.resolved db created redirected applied)) := by
  intro haddress
  rcases refusal_of_address haddress with ⟨_, h⟩ | ⟨_, _, h⟩ <;> cases h

/-- How a request is answered with a database: it was found, or found under its legacy shape and upgraded, or made. -/
inductive Resolved (s : Store) (now : UInt64) (id : String) (r : DatabaseRequest) : LogicalDatabase → Store → Prop where
  | found {a : Address} {db : LogicalDatabase} (haddress : s.address r = .ok a)
      (hfound : s.findLogical? r.dbType a.classifier = some db) (hadmits : r.Admits db) : Resolved s now id r db s
  | upgraded {a : Address} {legacy : Classifier} {db : LogicalDatabase} (haddress : s.address r = .ok a)
      (hmissing : s.findLogical? r.dbType a.classifier = none) (hlegacy : a.classifier.legacyEquivalent? = some legacy)
      (hfound : s.findLogical? r.dbType legacy = some db) (hadmits : r.Admits db) :
      Resolved s now id r (db.upgrade a.classifier) (s.putLogical (db.upgrade a.classifier))
  | created {a : Address} {target : PhysicalDatabase} {applied : Option AppliedRule} (haddress : s.address r = .ok a)
      (hmissing : s.existing? r.dbType a.classifier = none) (hplace : s.placeFor r a = .ok (target, applied)) :
      Resolved s now id r (.make id now r.dbType a target) (s.create now id r.dbType a target).2

theorem resolved_of_getOrCreate {s s' : Store} {now : UInt64} {id : String} {r : DatabaseRequest} {db : LogicalDatabase}
    {created redirected : Bool} {applied : Option AppliedRule}
    (h : s.getOrCreate now id r = .ok (.resolved db created redirected applied, s')) : s.Resolved now id r db s' := by
  generalize houtcome : BindingOutcome.resolved db created redirected applied = outcome at h
  cases bound_of_getOrCreate h with
  | refused haddress => exact absurd (houtcome ▸ haddress) address_ne_resolved
  | found haddress hfound =>
    obtain ⟨hadmits, rfl, -⟩ := DatabaseRequest.admits_of_bound houtcome.symm
    exact .found haddress hfound hadmits
  | upgraded haddress hmissing hlegacy hfound =>
    obtain ⟨hadmits, rfl, -⟩ := DatabaseRequest.admits_of_bound houtcome.symm
    exact .upgraded haddress hmissing hlegacy hfound hadmits
  | unplaced haddress hmissing hplace =>
    rw [noAdapter_of_placeFor hplace] at houtcome
    cases houtcome
  | created haddress hmissing hplace =>
    cases houtcome
    exact .created haddress hmissing hplace

/-- What a lookup answers is held by the index for the classifier that the request leads to, or for its legacy equivalent. -/
theorem lookup_eq_resolved {s : Store} {r : DatabaseRequest} {db : LogicalDatabase} {created redirected : Bool}
    {applied : Option AppliedRule} (h : s.lookup r = .ok (.resolved db created redirected applied)) :
    ∃ a, s.address r = .ok a ∧ a.redirected = redirected ∧
      (s.findLogical? r.dbType a.classifier = some db ∨
        ∃ legacy, a.classifier.legacyEquivalent? = some legacy ∧ s.findLogical? r.dbType legacy = some db) := by
  unfold lookup at h
  split at h
  · rename_i outcome haddress
    cases h
    exact absurd haddress address_ne_resolved
  · cases h
  · rename_i a haddress
    split at h
    · rename_i db' hexisting
      obtain ⟨-, rfl, -, hredirected, -⟩ := DatabaseRequest.admits_of_bound (Except.ok.inj h)
      exact ⟨a, haddress, hredirected, Or.inl (existing?_eq_current_iff.mp hexisting)⟩
    · rename_i db' hexisting
      obtain ⟨-, rfl, -, hredirected, -⟩ := DatabaseRequest.admits_of_bound (Except.ok.inj h)
      exact ⟨a, haddress, hredirected, Or.inr (existing?_eq_legacy_iff.mp hexisting).2⟩
    · cases h

/-- A database that is found is what a lookup and the request are answered with, and the request changes nothing. -/
theorem answers_of_found {s : Store} {r : DatabaseRequest} {a : Address} {db : LogicalDatabase} (haddress : s.address r = .ok a)
    (hadmits : r.Admits db) (hfound : s.findLogical? r.dbType a.classifier = some db) :
    s.lookup r = .ok (.resolved db false a.redirected none) ∧
      ∀ now newId, s.getOrCreate now newId r = .ok (.resolved db false a.redirected none, s) := by
  have hexisting := existing?_eq_current_iff.mpr hfound
  have hbound := hadmits.bound_eq a.redirected
  refine ⟨?_, fun now newId => ?_⟩
  · simp only [lookup, haddress, hexisting, hbound]
  · simp only [getOrCreate, haddress, hexisting, hbound]

end Store

end DatabaseBroker
