import DatabaseBroker.Proofs.Binding.Agreement
import DatabaseBroker.Proofs.Binding.Legacy
import DatabaseBroker.Proofs.Binding.References

/-!
# What a refused request leaves

A request for a database that is not answered with one leaves everything as it was, with one exception
(`refused_request_leaves`): a database that is found under its legacy shape only is upgraded before it is known whether the
request pins another physical database, and stays upgraded when it does (`Store.PinnedElsewhere`). The exception is a matter of
records that came from elsewhere: no history of operations from an empty store comes to it.
-/

namespace DatabaseBroker

open Store

/-- The database that an answer gives, if it gives one. -/
def answered? (answer : Except RoutingError BindingOutcome) : Option LogicalDatabase :=
  answer.toOption.bind BindingOutcome.database?

namespace Store

variable {s : Store} {r : DatabaseRequest} {a : Address} {db : LogicalDatabase}

/-- A request pins another physical database than that of a database that is found for it, under its legacy shape only. -/
structure PinnedElsewhere (s : Store) (r : DatabaseRequest) (a : Address) (db : LogicalDatabase) : Prop where
  address : s.address r = .ok a
  found : s.existing? r.dbType a.classifier = some (.legacy db)
  pinned : ¬ r.Admits db

/-- The second store is the first one with a database under another classifier: its record is written, and the entries of the
classifiers that it is known under from then on. -/
structure Reclassified (s s' : Store) (db : LogicalDatabase) (c : Classifier) : Prop where
  tables : s' = { s with logicals := s'.logicals, classifierIndex := s'.classifierIndex }
  record : s'.logical? db.id = some (db.upgrade c).reread
  others : ∀ id, db.id ≠ id → s'.logical? id = s.logical? id
  index : ∀ key, key ∉ (db.upgrade c).keys → s'.classifierIndex.get? key = s.classifierIndex.get? key

/-- Storing the upgrade of a database puts it under its new classifier. -/
theorem reclassified_putLogical (s : Store) (db : LogicalDatabase) (c : Classifier) :
    s.Reclassified (s.putLogical (db.upgrade c)) db c where
  tables := by rw [putLogical_eq]
  record := by
    rw [logical?_putLogical]
    exact if_pos rfl
  others id hne := by
    rw [logical?_putLogical]
    exact if_neg hne
  index key hkey := by
    rw [putLogical_eq]
    cases hdrop : (db.upgrade c).markedForDrop with
    | false => exact (LogicalDatabase.get?_reindex_of_live hdrop _ _).trans (if_neg hkey)
    | true => exact (LogicalDatabase.get?_reindex_of_archived hdrop _ _).trans (if_neg fun h => hkey h.1)

namespace PinnedElsewhere

variable (h : s.PinnedElsewhere r a db)
include h

/-- Such a request is answered with the place of the database, and the database takes the current classifier. -/
theorem getOrCreate (now : UInt64) (newId : String) :
    s.getOrCreate now newId r =
      .ok (.boundElsewhere db.id db.physicalDatabaseId, s.putLogical (db.upgrade a.classifier)) := by
  have hpinned : r.physicalDatabaseId.any (· ≠ (db.upgrade a.classifier).physicalDatabaseId) = true :=
    Bool.not_eq_false _ |>.mp h.pinned
  rw [getOrCreate_of_legacy h.address h.found, DatabaseRequest.bound, if_pos hpinned]
  rfl

/-- That is a change: a database of the type that is asked for was not found under the current classifier before, and is now. -/
theorem putLogical_ne (hlive : db.markedForDrop = false) (htype : db.dbType = r.dbType) :
    s.putLogical (db.upgrade a.classifier) ≠ s := by
  intro hsame
  have hmissing := (existing?_eq_legacy_iff.mp h.found).1
  have hkey : classifierKey r.dbType a.classifier ∈ (db.upgrade a.classifier).keys :=
    LogicalDatabase.mem_keys_iff.mpr (Or.inl (by rw [← htype]; rfl))
  have hupgraded : (db.upgrade a.classifier).markedForDrop = false := hlive
  rcases findLogical?_putLogical (s := s) hupgraded r.dbType a.classifier with hfound | ⟨hother, -⟩
  · rw [hsame, hmissing] at hfound
    cases hfound
  · exact hother hkey

end PinnedElsewhere

/-- No history of operations leaves a database that could be found under a legacy shape. -/
theorem References.not_pinnedElsewhere (h : s.References) (hlifted : r.classifier.ScopeLifted) :
    ¬ s.PinnedElsewhere r a db := by
  intro hpinned
  obtain ⟨-, legacy, hlegacy, hfound⟩ := existing?_eq_legacy_iff.mp hpinned.found
  rw [h.findLogical?_legacy ((address_scope hpinned.address).2 hlifted) hlegacy] at hfound
  cases hfound

/-- A request that is answered without a database leaves the store as it was, unless it pins another place than that of a database
that is found under its legacy shape. -/
theorem store_of_refused (s : Store) (now : UInt64) (newId : String) (r : DatabaseRequest) {outcome : BindingOutcome} {s' : Store}
    (hok : s.getOrCreate now newId r = .ok (outcome, s')) (hnone : outcome.database? = none)
    (hpinned : ∀ a db, ¬ s.PinnedElsewhere r a db) : s' = s ∧ ControlPlane.BindingOutcome.isCreated outcome = false := by
  have hnotMade : ControlPlane.BindingOutcome.isCreated outcome = false := by
    cases outcome with
    | resolved => cases hnone
    | _ => rfl
  refine ⟨?_, hnotMade⟩
  cases bound_of_getOrCreate hok with
  | refused => rfl
  | found => rfl
  | unplaced => rfl
  | created => cases hnone
  | @upgraded a legacy db haddress hmissing hlegacy hfound =>
    refine absurd ⟨haddress, existing?_eq_legacy_iff.mpr ⟨hmissing, legacy, hlegacy, hfound⟩, fun hadmits => ?_⟩ (hpinned a db)
    have hupgraded : r.Admits (db.upgrade a.classifier) := hadmits
    rw [hupgraded.bound_eq] at hnone
    cases hnone

end Store

/-- What a request leaves when it is not answered with a database: for every control plane and every request,
1. the control plane as it was, unless the request pins another place than that of a database that is found under its legacy
   shape only;
2. in that case it is answered with that place, and that database is under the current classifier from then on, with the one it
   had as its old classifier; nothing else is written;
3. the exception is one: a database of the type that is asked for, not archived, is found where it was not before;
4. a request that is read from an object comes to no exception after any history of operations. -/
theorem refused_request_leaves (c : ControlPlane) (now : UInt64) (r : DatabaseRequest) :
    let answer := c.getOrCreate now r
    (answered? answer.1 = none → (∀ a db, ¬ c.store.PinnedElsewhere r a db) → answer.2 = c) ∧
    (∀ a db, c.store.PinnedElsewhere r a db →
      answer.1 = .ok (.boundElsewhere db.id db.physicalDatabaseId) ∧ answer.2 = c.withStore answer.2.store ∧
      c.store.Reclassified answer.2.store db a.classifier) ∧
    (∀ a db, c.store.PinnedElsewhere r a db → db.markedForDrop = false → db.dbType = r.dbType →
      answer.2.store ≠ c.store) ∧
    (∀ env events, c.store = (replay env events).store → r.classifier.ScopeLifted →
      answered? answer.1 = none → answer.2 = c) := by
  intro answer
  have hrefused : answered? answer.1 = none → (∀ a db, ¬ c.store.PinnedElsewhere r a db) → answer.2 = c := by
    intro hnone hpinned
    simp only [answer, ControlPlane.getOrCreate] at hnone ⊢
    split
    · rfl
    · rename_i outcome s' hok
      rw [hok] at hnone
      obtain ⟨rfl, hmade⟩ := c.store.store_of_refused now c.nextLogical r hok hnone hpinned
      simp only [hmade, Bool.false_eq_true, if_false]
  have hpinned : ∀ a db, c.store.PinnedElsewhere r a db →
      answer = (.ok (.boundElsewhere db.id db.physicalDatabaseId),
        c.withStore (c.store.putLogical (db.upgrade a.classifier))) := by
    intro a db h
    simp only [answer, ControlPlane.getOrCreate, h.getOrCreate]
    rfl
  refine ⟨hrefused, fun a db h => ?_, fun a db h hlive htype => ?_, fun env events hstore hlifted hnone => ?_⟩
  · rw [hpinned a db h]
    exact ⟨rfl, rfl, c.store.reclassified_putLogical db a.classifier⟩
  · rw [hpinned a db h]
    exact h.putLogical_ne hlive htype
  · refine hrefused hnone fun a db => ?_
    rw [hstore]
    exact (references_replay env events).not_pinnedElsewhere hlifted

/-! ## A database of a client without scopes -/

/-- Storing a database that is not archived leaves an index of which every entry leads to such a database. -/
theorem Store.IndexLive.putLogical {s : Store} (h : s.IndexLive) {db : LogicalDatabase} (hlive : db.markedForDrop = false) :
    (s.putLogical db).IndexLive := by
  intro key id hkey
  rw [putLogical_eq, LogicalDatabase.get?_reindex_of_live hlive] at hkey
  rw [logical?_putLogical]
  by_cases hid : db.id = id
  · exact ⟨db.reread, if_pos hid, hlive⟩
  · rw [if_neg hid]
    split at hkey
    · exact absurd (Option.some.inj hkey) hid
    · exact h key id hkey

/-- The store that holds the sample alone. -/
def sampleLegacyStore : Store := Store.empty.putLogical (sampleLegacy true)

/-- A request for the database of the sample that pins another physical database. -/
def sampleMisplaced : DatabaseRequest := ⟨Classifier.tenant "shop" "cart" "t-1", "postgresql", none, some "mg"⟩

/-- The database is found under its legacy shape. -/
theorem pinnedElsewhere_of_sampleLegacy :
    sampleLegacyStore.PinnedElsewhere sampleMisplaced ⟨Classifier.tenant "shop" "cart" "t-1", "shop", false⟩
      (sampleLegacy true).reread where
  address := address_of_noController
    (DatabaseRequest.identity_of_valid (sampleLegacy_binding true).valid rfl (Or.inl rfl)) rfl
  found := (sampleLegacy_binding true).existing?_of_marked ⟨rfl, rfl⟩
  pinned := by
    unfold DatabaseRequest.Admits
    decide

/-- A request may be answered without a database and change the store all the same, with every record in its place and every
entry of the index leading to a database that is not archived. -/
theorem refused_request_upgrades :
    sampleLegacyStore.Tabled ∧ sampleLegacyStore.IndexLive ∧
      ∃ s', sampleLegacyStore.getOrCreate 0 "ldb-#1" sampleMisplaced = .ok (.boundElsewhere "ldb-legacy" "pg", s') ∧
        s' ≠ sampleLegacyStore := by
  have hempty : Store.empty.IndexLive := nofun
  have hpinned := pinnedElsewhere_of_sampleLegacy
  exact ⟨Tabled.empty.putLogical _, hempty.putLogical rfl, _, hpinned.getOrCreate 0 "ldb-#1", hpinned.putLogical_ne rfl rfl⟩

end DatabaseBroker
