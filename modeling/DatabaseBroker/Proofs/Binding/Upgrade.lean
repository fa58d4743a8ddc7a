import DatabaseBroker.Proofs.Binding.Legacy
import DatabaseBroker.Proofs.Binding.Permanence

/-!
# Upgrades of legacy databases

`Store.IndexExact` says that the index leads from the keys of each database that is not archived, of its classifier and of its
old one, to that database and from nothing else, and that old classifiers have the legacy shape. Such a store may hold legacy
databases. Drops keep the index exact, acknowledgements keep it as long as classifiers keep their keys, and a request keeps it
exactly when `Store.KeepsIndex` holds of it (`index_stays_exact`): an upgrade takes a database that has no old classifier yet. A
database that was upgraded can be found under its legacy shape by a classifier with another marker, and then it is upgraded again
(`index_not_exact`).
-/

namespace DatabaseBroker

open Store

namespace LogicalDatabase

/-! ## Keys of a database -/

/-- The keys of a database are those of its classifier and of its old one. -/
theorem mem_keys_iff {db : LogicalDatabase} {key : String} :
    key ∈ db.keys ↔ classifierKey db.dbType db.classifier = key ∨
      ∃ c, db.oldClassifier = some c ∧ classifierKey db.dbType c = key := by
  simp only [keys, classifiers, List.map_cons, List.mem_cons, List.mem_map, Option.mem_toList]
  exact or_congr_left eq_comm

/-- The classifiers of what is kept of a database are what is kept of its classifiers. -/
theorem classifiers_reread (db : LogicalDatabase) : db.reread.classifiers = db.classifiers.map Classifier.reread := by
  cases hold : db.oldClassifier <;> simp [classifiers, reread, hold]

/-- What is kept of a database has its keys when what is kept of its classifiers has theirs. -/
theorem keys_reread {db : LogicalDatabase} (h : ∀ c ∈ db.classifiers, c.KeepsKey) : db.reread.keys = db.keys := by
  rw [keys, classifiers_reread, List.map_map, keys]
  exact List.map_congr_left fun c hc => congrArg (fun key => db.dbType ++ "/" ++ key) (h c hc)

/-- A database that was read from its text, with an old classifier in the legacy shape if it has one. -/
structure Shaped (db : LogicalDatabase) : Prop where
  old : ∀ c, db.oldClassifier = some c → c.isLegacy = true
  lifted : ∀ c ∈ db.classifiers, c.ScopeLifted

/-- What is kept of a database is read from its text. -/
theorem lifted_reread {db : LogicalDatabase} : ∀ c ∈ db.reread.classifiers, c.ScopeLifted := by
  intro c hc
  rw [classifiers_reread] at hc
  obtain ⟨c', -, rfl⟩ := List.mem_map.mp hc
  exact Classifier.scopeLifted_ofMap _

theorem Shaped.reread {db : LogicalDatabase} (h : db.Shaped) : db.reread.Shaped := by
  refine ⟨fun c hc => ?_, lifted_reread⟩
  obtain ⟨c', hc', rfl⟩ := Option.map_eq_some_iff.mp hc
  have hlifted := h.lifted c' (by simp [classifiers, hc'])
  have hnone : c'.scope = none := Option.isNone_iff_eq_none.mp (h.old c' hc')
  exact Option.isNone_iff_eq_none.mpr (Classifier.scope_reread hlifted hnone)

end LogicalDatabase

namespace Store

/-! ## Exactness -/

/-- The index leads from the keys of each database that is not archived to that database, and from nothing else; no database has a
key twice, and old classifiers have the legacy shape. -/
structure IndexExact (s : Store) : Prop where
  logical_id : ∀ id db, s.logical? id = some db → db.id = id
  shaped : ∀ id db, s.logical? id = some db → db.Shaped
  index : ∀ key id, s.classifierIndex.get? key = some id ↔
    ∃ db, s.logical? id = some db ∧ db.markedForDrop = false ∧ key ∈ db.keys
  once : ∀ id db, s.logical? id = some db → db.markedForDrop = false → db.keys.Nodup

namespace IndexExact

variable {s s' : Store}

theorem empty : Store.empty.IndexExact := by
  constructor <;> simp [Store.empty, logical?]

theorem of_sameBindings (h : s.IndexExact) (hsame : SameBindings s s') : s'.IndexExact := by
  constructor
  · simpa only [logical?, hsame.logicals] using h.logical_id
  · simpa only [logical?, hsame.logicals] using h.shaped
  · simpa only [logical?, hsame.logicals, hsame.classifierIndex] using h.index
  · simpa only [logical?, hsame.logicals] using h.once

/-- Two stores with the same databases and the same index are exact together. -/
theorem iff_of_sameBindings (hsame : SameBindings s s') : s'.IndexExact ↔ s.IndexExact :=
  ⟨fun h => h.of_sameBindings ⟨hsame.logicals.symm, hsame.classifierIndex.symm, hsame.domains.symm⟩,
    fun h => h.of_sameBindings hsame⟩

/-! ## What is found -/

/-- The keys that lead to a stored database are its own while it is not archived. -/
theorem index_stored_iff (h : s.IndexExact) {id : String} {db : LogicalDatabase} (hdb : s.logical? id = some db) {k : String} :
    s.classifierIndex.get? k = some id ↔ db.markedForDrop = false ∧ k ∈ db.keys := by
  rw [h.index]
  constructor
  · rintro ⟨db', hdb', hrest⟩
    obtain rfl : db = db' := Option.some.inj (hdb.symm.trans hdb')
    exact hrest
  · intro hrest
    exact ⟨db, hdb, hrest⟩

/-- The keys that lead to a stored database that is not archived are its own. -/
theorem index_live_iff (h : s.IndexExact) {id : String} {db : LogicalDatabase} (hdb : s.logical? id = some db)
    (hlive : db.markedForDrop = false) {key : String} : s.classifierIndex.get? key = some id ↔ key ∈ db.keys := by
  rw [h.index_stored_iff hdb]
  exact ⟨fun hkey => hkey.2, fun hkey => ⟨hlive, hkey⟩⟩

/-- What the index holds for a classifier is a stored database that is not archived and has the key of the classifier. -/
theorem findLogical?_eq_some (h : s.IndexExact) {dbType : String} {c : Classifier} {db : LogicalDatabase}
    (hfound : s.findLogical? dbType c = some db) :
    s.logical? db.id = some db ∧ db.markedForDrop = false ∧ classifierKey dbType c ∈ db.keys := by
  obtain ⟨id, hindex, hdb⟩ := findLogical?_eq_some_iff.mp hfound
  obtain rfl := h.logical_id id db hdb
  exact ⟨hdb, (h.index_stored_iff hdb).mp hindex⟩

/-- Nothing is found for a classifier only if nothing is indexed for it. -/
theorem index_of_findLogical?_eq_none (h : s.IndexExact) {dbType : String} {c : Classifier}
    (hnone : s.findLogical? dbType c = none) : s.classifierIndex.get? (classifierKey dbType c) = none := by
  cases hindex : s.classifierIndex.get? (classifierKey dbType c) with
  | none => rfl
  | some id =>
    obtain ⟨db, hdb, -⟩ := (h.index _ _).mp hindex
    rw [findLogical?_eq_some_iff.mpr ⟨id, hindex, hdb⟩] at hnone
    cases hnone

/-! ## Writes -/

/-- Storing a database keeps the index exact when afterwards the keys of what is kept of it, and no others, lead to it while it is not
archived, and the same keys lead to every other database as before. -/
theorem putLogical_of_index (h : s.IndexExact) {db : LogicalDatabase} (hshaped : db.reread.Shaped)
    (hown : ∀ key, (db.reindex s.classifierIndex).get? key = some db.id ↔ db.markedForDrop = false ∧ key ∈ db.reread.keys)
    (hothers : ∀ key id, db.id ≠ id →
      ((db.reindex s.classifierIndex).get? key = some id ↔ s.classifierIndex.get? key = some id))
    (honce : db.markedForDrop = false → db.reread.keys.Nodup) : (s.putLogical db).IndexExact := by
  refine ⟨fun id db₁ hdb₁ => ?_, fun id db₁ hdb₁ => ?_, fun key id => ?_, fun id db₁ hdb₁ hlive => ?_⟩
  · rcases logical?_putLogical_cases hdb₁ with ⟨hid, rfl⟩ | ⟨-, hdb₁⟩
    · exact hid
    · exact h.logical_id id db₁ hdb₁
  · rcases logical?_putLogical_cases hdb₁ with ⟨-, rfl⟩ | ⟨-, hdb₁⟩
    · exact hshaped
    · exact h.shaped id db₁ hdb₁
  · rw [logical?_putLogical, putLogical_eq]
    by_cases hid : db.id = id
    · subst hid
      simp only [if_true, Option.some.injEq, exists_eq_left']
      exact hown key
    · rw [if_neg hid, ← h.index]
      exact hothers key id hid
  · rcases logical?_putLogical_cases hdb₁ with ⟨-, rfl⟩ | ⟨-, hdb₁⟩
    · exact honce hlive
    · exact h.once id db₁ hdb₁ hlive

/-- A database that is not archived keeps the index exact exactly when what is kept of it has the keys that lead to it, no key
twice, and an old classifier in the legacy shape; its keys are to lead nowhere else before. -/
theorem putLogical_live_iff (h : s.IndexExact) {db : LogicalDatabase} (hlive : db.markedForDrop = false)
    (hclaims : ∀ key ∈ db.keys, ∀ id, s.classifierIndex.get? key = some id → id = db.id) :
    (s.putLogical db).IndexExact ↔
      (∀ key, key ∈ db.reread.keys ↔ key ∈ db.keys ∨ s.classifierIndex.get? key = some db.id) ∧
        db.reread.keys.Nodup ∧ ∀ c, db.oldClassifier = some c → c.reread.isLegacy = true := by
  have hleads : ∀ key, (db.reindex s.classifierIndex).get? key = some db.id ↔
      key ∈ db.keys ∨ s.classifierIndex.get? key = some db.id := by
    intro key
    rw [LogicalDatabase.get?_reindex_of_live hlive]
    split <;> simp [*]
  constructor
  · intro h'
    have hstored : (s.putLogical db).logical? db.id = some db.reread := by
      rw [logical?_putLogical, if_pos rfl]
    refine ⟨fun key => ?_, h'.once db.id db.reread hstored hlive, fun c hc => ?_⟩
    · have hown := h'.index_stored_iff hstored (k := key)
      rw [putLogical_eq] at hown
      rw [← hleads, hown]
      exact ⟨fun hkey => ⟨hlive, hkey⟩, fun hkey => hkey.2⟩
    · exact (h'.shaped db.id db.reread hstored).old c.reread (by simp [LogicalDatabase.reread, hc])
  · rintro ⟨hkeys, hnodup, hold⟩
    refine h.putLogical_of_index ⟨fun c hc => ?_, LogicalDatabase.lifted_reread⟩ (fun key => ?_) (fun key id hid => ?_)
      fun _ => hnodup
    · obtain ⟨c', hc', rfl⟩ := Option.map_eq_some_iff.mp hc
      exact hold c' hc'
    · rw [hleads, ← hkeys]
      exact ⟨fun hkey => ⟨hlive, hkey⟩, fun hkey => hkey.2⟩
    · rw [LogicalDatabase.get?_reindex_of_live hlive]
      split
      · rename_i hkey
        exact iff_of_false (fun hsame => hid (Option.some.inj hsame)) fun hsame => hid (hclaims key hkey id hsame).symm
      · exact Iff.rfl

/-- Archiving a stored database under its keys keeps the index exact. -/
theorem putLogical_archived (h : s.IndexExact) {db db₀ : LogicalDatabase} (hdb : s.logical? db.id = some db₀)
    (harchived : db.markedForDrop = true) (hkeys : db.keys = db₀.keys) (hshaped : db.Shaped) : (s.putLogical db).IndexExact := by
  have hnotLive : db.markedForDrop ≠ false := by simp [harchived]
  refine h.putLogical_of_index hshaped.reread (fun key => ?_) (fun key id hid => ?_) fun hlive => absurd hlive hnotLive
  · refine iff_of_false (fun hleads => ?_) fun hlive => hnotLive hlive.1
    rw [LogicalDatabase.get?_reindex_of_archived harchived] at hleads
    split at hleads
    · cases hleads
    · rename_i hother
      exact hother ⟨hkeys ▸ ((h.index_stored_iff hdb).mp hleads).2, hleads⟩
  · rw [LogicalDatabase.get?_reindex_of_archived harchived]
    split
    · rename_i hown
      rw [hown.2, Option.some.injEq]
      simp [hid]
    · exact Iff.rfl

/-- A later record of a stored database with its classifiers keeps the index exact when what is kept of them has their keys. -/
theorem putLogical_later (h : s.IndexExact) {db db₀ : LogicalDatabase} (hdb : s.logical? db.id = some db₀)
    (hdrop : db.markedForDrop = db₀.markedForDrop) (htype : db.dbType = db₀.dbType) (hclassifier : db.classifier = db₀.classifier)
    (hold : db.oldClassifier = db₀.oldClassifier)
    (hkeeps : db₀.markedForDrop = false → ∀ c ∈ db₀.classifiers, c.KeepsKey) : (s.putLogical db).IndexExact := by
  have hclassifiers : db.classifiers = db₀.classifiers := by
    rw [LogicalDatabase.classifiers, hclassifier, hold, LogicalDatabase.classifiers]
  have hkeys : db.keys = db₀.keys := by
    rw [LogicalDatabase.keys, hclassifiers, htype, LogicalDatabase.keys]
  have hshaped₀ := h.shaped db.id db₀ hdb
  have hshaped : db.Shaped := ⟨hold ▸ hshaped₀.old, hclassifiers ▸ hshaped₀.lifted⟩
  cases hlive : db.markedForDrop with
  | true => exact h.putLogical_archived hdb hlive hkeys hshaped
  | false =>
    have hlive₀ : db₀.markedForDrop = false := hdrop ▸ hlive
    have hleads : ∀ key, s.classifierIndex.get? key = some db.id ↔ key ∈ db.keys := by
      intro key
      rw [hkeys]
      exact h.index_live_iff hdb hlive₀
    have hreread : db.reread.keys = db.keys := LogicalDatabase.keys_reread (hclassifiers ▸ hkeeps hlive₀)
    refine (h.putLogical_live_iff hlive fun key hkey id hid => ?_).mpr ⟨fun key => ?_, ?_, fun c hc => ?_⟩
    · exact (Option.some.inj ((hleads key).mpr hkey ▸ hid)).symm
    · rw [hreread, hleads, or_self]
    · rw [hreread, hkeys]
      exact h.once db.id db₀ hdb hlive₀
    · exact hshaped.reread.old c.reread (by simp [LogicalDatabase.reread, hc])

/-- A new database under a key that leads nowhere keeps the index exact exactly when what is kept of its classifier has the key. -/
theorem putLogical_new_iff (h : s.IndexExact) {db : LogicalDatabase} (hnew : s.logical? db.id = none)
    (hlive : db.markedForDrop = false) (hold : db.oldClassifier = none)
    (hfree : s.classifierIndex.get? (classifierKey db.dbType db.classifier) = none) :
    (s.putLogical db).IndexExact ↔ db.classifier.KeepsKey := by
  have hkeys : db.keys = [classifierKey db.dbType db.classifier] := by
    simp [LogicalDatabase.keys, LogicalDatabase.classifiers, hold]
  have hreread : db.reread.keys = [classifierKey db.dbType db.classifier.reread] := by
    simp [LogicalDatabase.keys, LogicalDatabase.classifiers, LogicalDatabase.reread, hold]
  have hnone : ∀ key, s.classifierIndex.get? key ≠ some db.id := by
    intro key hkey
    obtain ⟨db₁, hdb₁, -⟩ := (h.index _ _).mp hkey
    rw [hnew] at hdb₁
    cases hdb₁
  rw [h.putLogical_live_iff hlive]
  · simp only [hkeys, hreread, hnone, or_false, List.mem_singleton, hold]
    constructor
    · rintro ⟨hsame, -⟩
      exact (Classifier.classifierKey_inj ((hsame _).mp rfl)).2
    · intro hkeeps
      have hkey : classifierKey db.dbType db.classifier.reread = classifierKey db.dbType db.classifier :=
        congrArg (fun key => db.dbType ++ "/" ++ key) hkeeps
      exact ⟨fun key => by rw [hkey], List.nodup_singleton _, by simp⟩
  · intro key hkey id hid
    rw [hkeys, List.mem_singleton] at hkey
    rw [hkey, hfree] at hid
    cases hid

section Upgrade

variable (h : s.IndexExact) {db : LogicalDatabase} {c : Classifier} (hdb : s.logical? db.id = some db)
  (hlive : db.markedForDrop = false) (hscope : c.scope.isSome = true)
  (hfree : s.classifierIndex.get? (classifierKey db.dbType c) = none)
include h hdb hlive hfree

/-- A classifier whose key leads nowhere has no key of a database that is not archived. -/
theorem key_ne_of_free {key : String} (hkey : key ∈ db.keys) : classifierKey db.dbType c ≠ key := by
  rintro rfl
  have hown := (h.index_live_iff hdb hlive).mpr hkey
  rw [hfree] at hown
  cases hown

/-- The keys of an upgraded database lead nowhere else. -/
theorem claims_upgrade {key : String} (hkey : key ∈ (db.upgrade c).keys) {id : String}
    (hid : s.classifierIndex.get? key = some id) : id = db.id := by
  have hkeys : (db.upgrade c).keys = [classifierKey db.dbType c, classifierKey db.dbType db.classifier] := rfl
  rw [hkeys, List.mem_pair] at hkey
  rcases hkey with rfl | rfl
  · rw [hfree] at hid
    cases hid
  · have hown := (h.index_live_iff hdb hlive).mpr List.mem_cons_self
    exact Option.some.inj (hid.symm.trans hown)

include hscope

/-- When what is kept of an upgraded database has the keys that lead to it, and an old classifier in the legacy shape, then the
database had no old classifier before, its classifier had the legacy shape, and both classifiers keep their keys. -/
theorem of_keys_upgrade (hold : db.classifier.reread.isLegacy = true)
    (hsame : ∀ key, key ∈ (db.upgrade c).reread.keys ↔
      key ∈ (db.upgrade c).keys ∨ s.classifierIndex.get? key = some db.id) :
    db.oldClassifier = none ∧ db.classifier.isLegacy = true ∧ c.KeepsKey ∧ db.classifier.KeepsKey := by
  have hlifted : db.classifier.ScopeLifted := (h.shaped _ db hdb).lifted _ List.mem_cons_self
  have hreread : db.classifier.reread.scope = none := Option.isNone_iff_eq_none.mp hold
  have hlegacy : db.classifier.scope = none := by
    by_contra hscope'
    have hkept := Classifier.scope_isSome_reread (Option.isSome_iff_ne_none.mpr hscope')
    rw [hreread] at hkept
    cases hkept
  have hscopeReread := Classifier.scope_isSome_reread hscope
  have hkept : ∀ key, key ∈ (db.upgrade c).keys ∨ key ∈ db.keys →
      key = classifierKey db.dbType c.reread ∨ key = classifierKey db.dbType db.classifier.reread := by
    intro key hkey
    exact List.mem_pair.mp ((hsame key).mpr (hkey.imp_right (h.index_live_iff hdb hlive).mpr))
  -- A key with a scope is none without one, so each of the two keys is that of what is kept of its own classifier.
  have hc : classifierKey db.dbType c = classifierKey db.dbType c.reread := by
    rcases hkept _ (Or.inl List.mem_cons_self) with hkey | hkey
    · exact hkey
    · exact absurd hkey.symm (Classifier.classifierKey_ne_of_scope (Classifier.scopeLifted_ofMap _) hreread hscope)
  have hcurrent : classifierKey db.dbType db.classifier = classifierKey db.dbType db.classifier.reread := by
    rcases hkept _ (Or.inr List.mem_cons_self) with hkey | hkey
    · exact absurd hkey (Classifier.classifierKey_ne_of_scope hlifted hlegacy hscopeReread)
    · exact hkey
  refine ⟨?_, Option.isNone_iff_eq_none.mpr hlegacy, (Classifier.classifierKey_inj hc).2.symm,
    (Classifier.classifierKey_inj hcurrent).2.symm⟩
  cases hbefore : db.oldClassifier with
  | none => rfl
  | some before =>
    -- Its key leads to the database and is neither of the two.
    have hmem : classifierKey db.dbType before ∈ db.keys := LogicalDatabase.mem_keys_iff.mpr (Or.inr ⟨before, hbefore, rfl⟩)
    rcases hkept _ (Or.inr hmem) with hkey | hkey
    · exact absurd (hc.trans hkey.symm) (h.key_ne_of_free hdb hlive hfree hmem)
    · have hnodup := h.once _ db hdb hlive
      simp only [LogicalDatabase.keys, LogicalDatabase.classifiers, hbefore, Option.toList_some, List.map_cons, List.map_nil,
        hkey, ← hcurrent] at hnodup
      simp at hnodup

/-- An upgrade to a classifier whose key leads nowhere keeps the index exact exactly when the database had no old classifier, its
classifier had the legacy shape, and both classifiers keep their keys. -/
theorem putLogical_upgrade_iff :
    (s.putLogical (db.upgrade c)).IndexExact ↔
      db.oldClassifier = none ∧ db.classifier.isLegacy = true ∧ c.KeepsKey ∧ db.classifier.KeepsKey := by
  have hupgraded : (db.upgrade c).markedForDrop = false := hlive
  rw [h.putLogical_live_iff hupgraded fun _ hkey _ hid => h.claims_upgrade hdb hlive hfree hkey hid]
  constructor
  · rintro ⟨hsame, -, hold⟩
    exact h.of_keys_upgrade hdb hlive hscope hfree (hold db.classifier rfl) hsame
  · rintro ⟨hbefore, hlegacy, hc, hcurrent⟩
    have hsame : (db.upgrade c).reread.keys = (db.upgrade c).keys := by
      refine LogicalDatabase.keys_reread fun c' hc' => ?_
      rcases List.mem_pair.mp hc' with rfl | rfl
      · exact hc
      · exact hcurrent
    have hkeys : db.keys = [classifierKey db.dbType db.classifier] := by
      simp [LogicalDatabase.keys, LogicalDatabase.classifiers, hbefore]
    have hleads : ∀ key, s.classifierIndex.get? key = some (db.upgrade c).id → key ∈ (db.upgrade c).keys := by
      intro key hkey
      have hkey := (h.index_live_iff hdb hlive).mp hkey
      rw [hkeys, List.mem_singleton] at hkey
      exact List.mem_pair.mpr (Or.inr hkey)
    refine ⟨fun key => ?_, ?_, ?_⟩
    · rw [hsame]
      exact ⟨Or.inl, fun hkey => hkey.elim id (hleads key)⟩
    · have hne := h.key_ne_of_free hdb hlive hfree (hkeys ▸ List.mem_singleton_self _)
      rw [hsame]
      simpa [LogicalDatabase.keys, LogicalDatabase.classifiers, LogicalDatabase.upgrade] using hne
    · rintro _ ⟨⟩
      have hlifted : db.classifier.ScopeLifted := (h.shaped _ db hdb).lifted _ List.mem_cons_self
      exact Option.isNone_iff_eq_none.mpr (Classifier.scope_reread hlifted (Option.isNone_iff_eq_none.mp hlegacy))

end Upgrade

end IndexExact

/-! ## Operations -/

/-- What keeps the index exact where a request leads: a database that is upgraded had no old classifier, and both of its
classifiers then keep their keys; so does the classifier of a database that is made. -/
def KeepsIndexAt (s : Store) (r : DatabaseRequest) (a : Address) : Prop :=
  match s.existing? r.dbType a.classifier with
  | some (.current _) => True
  | some (.legacy db) => db.oldClassifier = none ∧ a.classifier.KeepsKey ∧ db.classifier.KeepsKey
  | none => (∃ place, s.placeFor r a = .ok place) → a.classifier.KeepsKey

/-- A request keeps the index exact: it is refused, or it does so where it leads. -/
def KeepsIndex (s : Store) (r : DatabaseRequest) : Prop := ∀ a, s.address r = .ok a → s.KeepsIndexAt r a

/-- Where a request leads is one address. -/
theorem keepsIndex_iff {s : Store} {r : DatabaseRequest} {a : Address} (h : s.address r = .ok a) :
    s.KeepsIndex r ↔ s.KeepsIndexAt r a := by
  constructor
  · intro hkeeps
    exact hkeeps a h
  · intro hkeeps a' ha'
    obtain rfl : a = a' := Except.ok.inj (h.symm.trans ha')
    exact hkeeps

namespace IndexExact

variable {s s' : Store}

/-- A lookup is answered only with a database that is stored and not archived. -/
theorem lookup_live (h : s.IndexExact) {r : DatabaseRequest} {db : LogicalDatabase} {created redirected : Bool}
    {applied : Option AppliedRule} (hlookup : s.lookup r = .ok (.resolved db created redirected applied)) :
    (∃ id, s.logical? id = some db) ∧ db.markedForDrop = false := by
  obtain ⟨a, -, -, hfound | ⟨legacy, -, hfound⟩⟩ := lookup_eq_resolved hlookup
  · obtain ⟨hdb, hlive, -⟩ := h.findLogical?_eq_some hfound
    exact ⟨⟨db.id, hdb⟩, hlive⟩
  · obtain ⟨hdb, hlive, -⟩ := h.findLogical?_eq_some hfound
    exact ⟨⟨db.id, hdb⟩, hlive⟩

/-- Dropping a database keeps the index exact. -/
theorem markForDrop (h : s.IndexExact) {id : String} {out : LogicalDatabase} (hok : s.markForDrop id = .ok (out, s')) :
    s'.IndexExact := by
  obtain ⟨db, hdb, rfl⟩ := markForDrop_eq_ok hok
  obtain rfl := h.logical_id id db hdb
  have hshaped := h.shaped _ db hdb
  have hstored : s.logical? ({ db with markedForDrop := true } : LogicalDatabase).id = some db := hdb
  exact h.putLogical_archived hstored rfl rfl ⟨hshaped.old, hshaped.lifted⟩

theorem run_drop {b : Broker} (h : b.store.IndexExact) (env : Surroundings) (now : UInt64) (id : String) :
    (b.run env now (.drop id)).store.IndexExact :=
  Broker.keep_invariant (P := fun b => b.store.IndexExact) h fun _ _ hok => h.markForDrop hok

/-- A request is answered only with a database that is not archived. -/
theorem getOrCreate_live (h : s.IndexExact) {now : UInt64} {id : String} {r : DatabaseRequest} {db : LogicalDatabase}
    {created redirected : Bool} {applied : Option AppliedRule}
    (hok : s.getOrCreate now id r = .ok (.resolved db created redirected applied, s')) : db.markedForDrop = false := by
  cases resolved_of_getOrCreate hok with
  | found haddress hfound => exact (h.findLogical?_eq_some hfound).2.1
  | upgraded haddress hmissing hlegacy hfound => exact (h.findLogical?_eq_some hfound).2.1
  | created => rfl

/-- A request keeps the index exact exactly when `KeepsIndex` holds of it. -/
theorem getOrCreate_iff (h : s.IndexExact) {now : UInt64} {id : String} {r : DatabaseRequest} {outcome : BindingOutcome}
    (hlifted : r.classifier.ScopeLifted) (hnew : s.logical? id = none) (hok : s.getOrCreate now id r = .ok (outcome, s')) :
    s'.IndexExact ↔ s.KeepsIndex r := by
  cases bound_of_getOrCreate hok with
  | refused haddress =>
    refine iff_of_true h fun a ha => ?_
    rw [haddress] at ha
    cases ha
  | found haddress hfound =>
    rw [keepsIndex_iff haddress, KeepsIndexAt, existing?_eq_current_iff.mpr hfound]
    exact iff_of_true h trivial
  | @upgraded a legacy db haddress hmissing hlegacy hfound =>
    obtain ⟨hscope, haddressLifted⟩ := address_scope haddress
    obtain ⟨hdb, hlive, hkey⟩ := h.findLogical?_eq_some hfound
    obtain ⟨c, -, hsame⟩ := List.mem_map.mp hkey
    have htype : db.dbType = r.dbType := (Classifier.classifierKey_inj hsame).1
    have hfree := h.index_of_findLogical?_eq_none hmissing
    rw [← htype] at hfree
    rw [keepsIndex_iff haddress, KeepsIndexAt, existing?_eq_legacy_iff.mpr ⟨hmissing, legacy, hlegacy, hfound⟩]
    refine (h.putLogical_upgrade_iff hdb hlive hscope hfree).trans ⟨fun ⟨hbefore, _, hkeeps⟩ => ⟨hbefore, hkeeps⟩, ?_⟩
    rintro ⟨hbefore, hkeeps⟩
    refine ⟨hbefore, ?_, hkeeps⟩
    -- Without an old classifier the database was found under its own, so that is no classifier with a scope.
    rcases LogicalDatabase.mem_keys_iff.mp hkey with hown | ⟨before, hold, -⟩
    · by_contra hscope'
      have hscope' : db.classifier.scope.isSome = true := by
        rwa [Classifier.isLegacy, Bool.not_eq_true, Option.isNone_eq_false_iff] at hscope'
      exact Classifier.classifierKey_legacy_ne (haddressLifted hlifted) hlegacy hscope' hown.symm
    · rw [hbefore] at hold
      cases hold
  | unplaced haddress hmissing hplace =>
    rw [keepsIndex_iff haddress, KeepsIndexAt, hmissing]
    refine iff_of_true h ?_
    rintro ⟨place, hplace'⟩
    rw [hplace] at hplace'
    cases hplace'
  | @created a target applied haddress hmissing hplace =>
    let db := LogicalDatabase.make id now r.dbType a target
    have hfree := h.index_of_findLogical?_eq_none (findLogical?_of_missing hmissing)
    have hdb : s.logical? db.id = none := hnew
    rw [keepsIndex_iff haddress, KeepsIndexAt, hmissing]
    have hsame := SameBindings.of_sameButRegistry (.joinMigration (s.putLogical db) now db)
    refine (iff_of_sameBindings hsame).trans ((h.putLogical_new_iff hdb rfl rfl hfree).trans ?_)
    exact ⟨fun hkeeps _ => hkeeps, fun hkeeps => hkeeps ⟨_, hplace⟩⟩

/-- Recording what an adapter made keeps the index exact when the classifiers of the databases that it names keep their keys. -/
theorem applySuccesses (h : s.IndexExact) {i i' : Instruction} {done : List Success}
    (hkeeps : ∀ d ∈ done, ∀ db, s.logical? d.databaseId = some db → db.markedForDrop = false →
      ∀ c ∈ db.classifiers, c.KeepsKey)
    (hok : Store.applySuccesses i s done = .ok (i', s')) : s'.IndexExact := by
  induction done generalizing i s with
  | nil =>
    cases hok
    exact h
  | cons d rest ih =>
    rw [applySuccesses_cons] at hok
    split at hok
    · rename_i i₁ s₁ hone
      obtain ⟨entry, -, db, -, hdb, rfl, rfl⟩ := applySuccess_eq_ok hone
      have hid : db.id = d.databaseId := h.logical_id _ db hdb
      have hstored : s.logical? (db.acknowledge entry d).id = some db := by
        rw [show (db.acknowledge entry d).id = d.databaseId from hid]
        exact hdb
      have hown := hkeeps d List.mem_cons_self db hdb
      refine ih (h.putLogical_later hstored rfl rfl rfl rfl hown) (fun d' hd' db' hdb' hlive' c hc => ?_) hok
      rw [logical?_putLogical] at hdb'
      split at hdb'
      · -- The record just stored: its classifiers are what is kept of classifiers that keep their keys.
        cases hdb'
        rw [LogicalDatabase.classifiers_reread] at hc
        obtain ⟨c', hc', rfl⟩ := List.mem_map.mp hc
        rw [Classifier.KeepsKey, Classifier.reread_reread (hown hlive' c' hc')]
      · exact hkeeps d' (List.mem_cons_of_mem d hd') db' hdb' hlive' c hc
    · cases hok

/-- An acknowledgement keeps the index exact when the classifiers of the databases that it names keep their keys. -/
theorem acknowledged (h : s.IndexExact) {now : UInt64} {size : Nat} {physicalDatabaseId instructionId : String}
    {ack : Acknowledgement} {answer : Except RegistryError MigrationStep}
    (hkeeps : ∀ d ∈ ack.successes, ∀ db, s.logical? d.databaseId = some db → db.markedForDrop = false →
      ∀ c ∈ db.classifiers, c.KeepsKey)
    (hcase : s.Acknowledged now size physicalDatabaseId instructionId ack answer s') : s'.IndexExact := by
  cases hcase with
  | unknown => exact h
  | failed => exact h.of_sameBindings (.of_sameButRegistry (.deleteInstruction s instructionId))
  | applied _ _ _ happly hadvance =>
    exact (h.applySuccesses hkeeps happly).of_sameBindings (.of_sameButRegistry (.advance hadvance))

end IndexExact

/-- The index over stores with legacy databases. Where it is exact, so that no database has two current classifiers:
1. a lookup is answered only with a database that is stored and not archived;
2. a request, which makes a database only under an id that none has, is answered only with a database that is not archived, and
   keeps the index exact exactly when `KeepsIndex` holds of it;
3. a drop keeps the index exact;
4. an acknowledgement keeps it exact when the classifiers of the databases that it names, of those that are not archived, keep
   their keys. -/
theorem index_stays_exact {s : Store} (h : s.IndexExact) :
    (∀ r db created redirected applied, s.lookup r = .ok (.resolved db created redirected applied) →
      (∃ id, s.logical? id = some db) ∧ db.markedForDrop = false) ∧
    (∀ (call : DatabaseCall) now id outcome s', s.logical? id = none →
      s.getOrCreate now id call.request = .ok (outcome, s') →
      (∀ db created redirected applied, outcome = .resolved db created redirected applied → db.markedForDrop = false) ∧
      (s'.IndexExact ↔ s.KeepsIndex call.request)) ∧
    (∀ id out s', s.markForDrop id = .ok (out, s') → s'.IndexExact) ∧
    (∀ now size physicalDatabaseId instructionId ack,
      (∀ d ∈ ack.successes, ∀ db, s.logical? d.databaseId = some db → db.markedForDrop = false →
        ∀ c ∈ db.classifiers, c.KeepsKey) →
      (s.acknowledge now size physicalDatabaseId instructionId ack).2.IndexExact) := by
  refine ⟨fun r db created redirected applied => h.lookup_live, fun call now id outcome s' hnew hok => ⟨?_, ?_⟩,
    fun id out s' => h.markForDrop, fun now size physicalDatabaseId instructionId ack hkeeps => ?_⟩
  · rintro db created redirected applied rfl
    exact h.getOrCreate_live hok
  · exact h.getOrCreate_iff (Classifier.scopeLifted_ofMap call.classifier) hnew hok
  · exact h.acknowledged hkeeps (s.acknowledged now size physicalDatabaseId instructionId ack)

/-! ## Two upgrades -/

/-- A microservice's own database under the classifier of a client without scopes. -/
def serviceDatabase : LogicalDatabase :=
  let classifier := KeyMap.ofList
    [("namespace", .string "shop"), ("microserviceName", .string "cart"), ("isServiceDb", .bool true)]
  ⟨"ldb-legacy", .ofMap classifier, none, "postgresql", "shop", "pg", [], [], [], none, false, 0⟩

/-- A store with that database alone. -/
def sampleService : Store := Store.empty.putLogical serviceDatabase

/-- A request for that database with a classifier in the current shape. -/
def serviceCall : DatabaseCall := ⟨(Classifier.service "shop" "cart").toMap, "postgresql", none, none⟩

/-- A request with a classifier that has the marker besides, over a number; its legacy equivalent is the same. -/
def numberedCall : DatabaseCall :=
  ⟨((Classifier.service "shop" "cart").withExtension "isServiceDb" (.ofUInt32 5)).toMap, "postgresql", none, none⟩

theorem sampleService_exact : sampleService.IndexExact :=
  (IndexExact.empty.putLogical_new_iff rfl rfl rfl rfl).mpr (by decide +kernel)

/-- A request upgrades the database of the sample and keeps the index exact. -/
theorem index_stays_exact_of_sampleService :
    ∃ outcome s', sampleService.getOrCreate 1 "ldb-#1" serviceCall.request = .ok (outcome, s') ∧ s'.IndexExact := by
  have haddress : sampleService.address serviceCall.request = .ok ⟨serviceCall.request.classifier, "shop", false⟩ := rfl
  have hexisting : sampleService.existing? serviceCall.request.dbType serviceCall.request.classifier =
      some (.legacy serviceDatabase.reread) := rfl
  have hnew : sampleService.logical? "ldb-#1" = none := by
    rw [sampleService, logical?_putLogical, if_neg (by decide)]
    rfl
  have hok := getOrCreate_of_legacy haddress hexisting 1 "ldb-#1"
  refine ⟨_, _, hok, ((index_stays_exact sampleService_exact).2.1 serviceCall 1 "ldb-#1" _ _ hnew hok).2.mpr ?_⟩
  simp only [keepsIndex_iff haddress, KeepsIndexAt, hexisting]
  refine ⟨rfl, ?_, ?_⟩ <;> decide +kernel

/-- An answer that is seen to be an archived database, neither made nor redirected. -/
theorem archived_answer {ε : Type} {answer : Except ε BindingOutcome}
    (h : answer.toOption.any (fun outcome => outcome.standing?.any (·.markedForDrop)) = true) :
    ∃ db, answer = .ok (.resolved db false false none) ∧ db.markedForDrop = true := by
  cases answer with
  | error e => cases h
  | ok outcome =>
    have hstanding : outcome.standing?.any (·.markedForDrop) = true := h
    obtain ⟨db, hdb, hdrop⟩ := (Option.any_eq_true _ _).mp hstanding
    exact ⟨db, congrArg Except.ok (BindingOutcome.standing?_eq_some hdb), hdrop⟩

/-- Where an archived database is answered after a drop, the index was not exact before it. -/
theorem not_indexExact_of_archived {env : Surroundings} {b : Broker} {now : UInt64} {id : String} {r : DatabaseRequest}
    {db : LogicalDatabase} {created redirected : Bool} {applied : Option AppliedRule}
    (hlookup : (b.run env now (.drop id)).store.lookup r = .ok (.resolved db created redirected applied))
    (hdrop : db.markedForDrop = true) : ¬ b.store.IndexExact := by
  intro hexact
  have hlive := ((hexact.run_drop env now id).lookup_live hlookup).2
  rw [hdrop] at hlive
  cases hlive

/-- Two requests whose classifiers have one legacy equivalent upgrade a database twice: the second one leaves the entry of the
legacy classifier behind, and takes the current classifier of the first for the old one. After a drop, a request is still answered
with the archived database. -/
theorem index_not_exact :
    let b := (Broker.start.withStore sampleService).runAll (.numbered 1)
      [⟨1, .getOrCreate numberedCall⟩, ⟨2, .getOrCreate serviceCall⟩]
    sampleService.IndexExact ∧ ¬ b.store.IndexExact ∧
      ∃ db, (b.run (.numbered 1) 3 (.drop "ldb-legacy")).store.lookup serviceCall.request =
        .ok (.resolved db false false none) ∧ db.markedForDrop = true := by
  intro b
  obtain ⟨db, hlookup, hdrop⟩ : ∃ db, (b.run (.numbered 1) 3 (.drop "ldb-legacy")).store.lookup serviceCall.request =
      .ok (.resolved db false false none) ∧ db.markedForDrop = true := archived_answer (by decide +kernel)
  exact ⟨sampleService_exact, not_indexExact_of_archived hlookup hdrop, db, hlookup, hdrop⟩

end Store

end DatabaseBroker
