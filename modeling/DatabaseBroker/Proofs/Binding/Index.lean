import DatabaseBroker.Proofs.Binding.Addresses
import DatabaseBroker.Proofs.BlueGreen.Flatness
import DatabaseBroker.Proofs.Naming
import DatabaseBroker.Proofs.Store.Registry
import Mathlib.Data.Set.Basic
import Mathlib.Logic.Function.Iterate

/-!
# The index of bindings

`Store.BindingsSound keys` says that every logical database has a valid classifier of its namespace and no old one, that the index
leads to databases only and from keys with a scope only, and of the databases with one of `keys` that the index leads from their
keys to them while they are not archived and nowhere else. A classifier is kept as what its text denotes, so a database may get
another key when it is stored again; each database is to keep its key or to have none of `keys` ever (`LogicalDatabase.Settled`).
Requests keep bindings sound as long as that is so of a new database, and every other operation keeps them. For no keys at all
nothing is asked of new databases. `Store.Persists` says what never changes of a database that is stored, whatever its keys are.
-/

namespace DatabaseBroker

/-- The parts of a classifier are kept however often it is read back. -/
theorem Classifier.part_iterate_reread {c : Classifier} {key : Key} {s : String} (h : c.part key = some s) (n : Nat) :
    (reread^[n] c).part key = some s := by
  induction n generalizing c with
  | zero => exact h
  | succ n ih => exact ih (part_reread key h)

namespace LogicalDatabase

/-- A database under a valid classifier of its namespace, in the current shape only. -/
structure Current (db : LogicalDatabase) : Prop where
  valid : db.classifier.Valid
  ns : db.classifier.ns = some db.ns
  old : db.oldClassifier = none

theorem Current.reread {db : LogicalDatabase} (h : db.Current) : db.reread.Current :=
  ⟨h.valid.reread, Classifier.part_reread .ns h.ns, by simp only [LogicalDatabase.reread, h.old, Option.map_none]⟩

/-- A later record of a database, whatever became of its classifier: its id and type and where it is bound are the same, and it
stays archived. -/
structure Stays (db db' : LogicalDatabase) : Prop where
  id : db'.id = db.id
  dbType : db'.dbType = db.dbType
  ns : db'.ns = db.ns
  physicalDatabaseId : db'.physicalDatabaseId = db.physicalDatabaseId
  archived : db.markedForDrop = true → db'.markedForDrop = true

/-- A later record of a database with the same classifier. -/
structure Lasts (db db' : LogicalDatabase) : Prop extends Stays db db' where
  classifier : db'.classifier = db.classifier

/-- A later record of a database with a classifier that the one it had is read back as, once or more often or not at all. -/
structure Persists (db db' : LogicalDatabase) : Prop extends Stays db db' where
  classifier : ∃ n, Classifier.reread^[n] db.classifier = db'.classifier

theorem Stays.refl (db : LogicalDatabase) : db.Stays db := ⟨rfl, rfl, rfl, rfl, fun h => h⟩

theorem Stays.trans {db db' db'' : LogicalDatabase} (h : db.Stays db') (h' : db'.Stays db'') : db.Stays db'' :=
  ⟨h'.id.trans h.id, h'.dbType.trans h.dbType, h'.ns.trans h.ns, h'.physicalDatabaseId.trans h.physicalDatabaseId,
    fun hd => h'.archived (h.archived hd)⟩

theorem Persists.refl (db : LogicalDatabase) : db.Persists db := ⟨.refl db, 0, rfl⟩

theorem Persists.trans {db db' db'' : LogicalDatabase} (h : db.Persists db') (h' : db'.Persists db'') : db.Persists db'' := by
  obtain ⟨n, hn⟩ := h.classifier
  obtain ⟨m, hm⟩ := h'.classifier
  refine ⟨h.toStays.trans h'.toStays, m + n, ?_⟩
  rw [Function.iterate_add_apply, hn, hm]

/-- What is kept of a later record of a database. -/
theorem Lasts.persists {db db' : LogicalDatabase} (h : db.Lasts db') : db.Persists db'.reread :=
  ⟨⟨h.id, h.dbType, h.ns, h.physicalDatabaseId, h.archived⟩, 1, congrArg Classifier.reread h.classifier.symm⟩

/-- A database that is kept as it is lasts. -/
theorem Persists.lasts {db db' : LogicalDatabase} (h : db.Persists db') (hkept : db.classifier.reread = db.classifier) :
    db.Lasts db' := by
  obtain ⟨n, hn⟩ := h.classifier
  exact ⟨h.toStays, by rw [← hn, Function.iterate_fixed hkept]⟩

/-! ## Databases that keep their keys -/

/-- What is kept of a new database has its key, or the database never gets one of some keys. -/
def Settles (keys : Set String) (db : LogicalDatabase) : Prop :=
  db.classifier.KeepsKey ∨ ∀ n, classifierKey db.dbType (Classifier.reread^[n] db.classifier) ∉ keys

/-- A stored database is kept as it is, or never gets one of some keys. -/
def Settled (keys : Set String) (db : LogicalDatabase) : Prop :=
  db.classifier.reread = db.classifier ∨ ∀ n, classifierKey db.dbType (Classifier.reread^[n] db.classifier) ∉ keys

variable {keys : Set String} {db : LogicalDatabase}

/-- Nothing is asked of a database for no keys. -/
theorem settles_empty (db : LogicalDatabase) : db.Settles ∅ := Or.inr fun _ => Set.notMem_empty _

/-- A database never gets the key of a classifier that differs from its own in a part. -/
theorem settles_of_part {part : Classifier.Key} {s s' : String} (hdb : db.classifier.part part = some s) (hne : s ≠ s')
    (hkeys : ∀ key ∈ keys, ∃ dbType c, classifierKey dbType c = key ∧ c.part part = some s') : db.Settles keys := by
  refine Or.inr fun n hmem => ?_
  obtain ⟨dbType, c, hkey, hc⟩ := hkeys _ hmem
  exact Classifier.classifierKey_ne_of_part (Classifier.part_iterate_reread hdb n) hc hne hkey.symm

/-- What is kept of a new database is settled from there on. -/
theorem Settles.reread (h : db.Settles keys) : db.reread.Settled keys := by
  rcases h with hkeeps | havoids
  · exact Or.inl (Classifier.reread_reread hkeeps)
  · exact Or.inr fun n => havoids (n + 1)

/-- So is what is kept of a settled one. -/
theorem Settled.reread (h : db.Settled keys) : db.reread.Settled keys := by
  rcases h with hkept | havoids
  · exact Or.inl (congrArg Classifier.reread hkept)
  · exact Or.inr fun n => havoids (n + 1)

/-- A settled database with one of the keys is kept as it is. -/
theorem Settled.kept (h : db.Settled keys) (hkey : classifierKey db.dbType db.classifier ∈ keys) :
    db.classifier.reread = db.classifier :=
  h.resolve_right fun havoids => havoids 0 hkey

/-- A settled database could be stored as a new one. -/
theorem Settled.settles (h : db.Settled keys) : db.Settles keys := h.imp_left (congrArg Classifier.canonicalKey)

/-- Of some keys, what is kept of a database has the one that the database has. -/
theorem Settles.key_reread_iff (h : db.Settles keys) {key : String}
    (hkey : key ∈ keys ∨ classifierKey db.dbType db.classifier.reread ∈ keys) :
    classifierKey db.dbType db.classifier.reread = key ↔ classifierKey db.dbType db.classifier = key := by
  rcases h with hkeeps | havoids
  · have hsame : classifierKey db.dbType db.classifier.reread = classifierKey db.dbType db.classifier :=
      congrArg (fun key => db.dbType ++ "/" ++ key) hkeeps
    rw [hsame]
  · have hmem : key ∈ keys := hkey.resolve_right (havoids 1)
    exact iff_of_false (fun hsame => havoids 1 (hsame ▸ hmem)) fun hsame => havoids 0 (hsame ▸ hmem)

/-- If what is kept of a database has one of the keys, the database has it. -/
theorem Settles.mem_of_reread (h : db.Settles keys) (hkey : classifierKey db.dbType db.classifier.reread ∈ keys) :
    classifierKey db.dbType db.classifier ∈ keys := by
  have hsame := (h.key_reread_iff (Or.inr hkey)).mp rfl
  rw [hsame]
  exact hkey

end LogicalDatabase

namespace Store

/-- Every database that is stored is stored from then on, with what never changes of it. -/
def Lasts (s s' : Store) : Prop :=
  ∀ id db, s.logical? id = some db → ∃ db', s'.logical? id = some db' ∧ db.Lasts db'

/-- Every database that is stored is stored from then on, with what never changes of it as far as its classifier is kept. -/
def Persists (s s' : Store) : Prop :=
  ∀ id db, s.logical? id = some db → ∃ db', s'.logical? id = some db' ∧ db.Persists db'

theorem Persists.refl (s : Store) : s.Persists s := fun _ db hdb => ⟨db, hdb, .refl db⟩

theorem Persists.trans {s s' s'' : Store} (h : s.Persists s') (h' : s'.Persists s'') : s.Persists s'' := by
  intro id db hdb
  obtain ⟨db', hdb', hpersists⟩ := h id db hdb
  obtain ⟨db'', hdb'', hpersists'⟩ := h' id db' hdb'
  exact ⟨db'', hdb'', hpersists.trans hpersists'⟩

/-- Storing a later record of a database. -/
theorem Persists.putLogical_later {s : Store} {db db' : LogicalDatabase} (hdb : s.logical? db'.id = some db)
    (hlasts : db.Lasts db') : s.Persists (s.putLogical db') := by
  intro id db₀ hdb₀
  rw [logical?_putLogical]
  split
  · rename_i hid
    subst hid
    rw [← Option.some.inj (hdb.symm.trans hdb₀)]
    exact ⟨_, rfl, hlasts.persists⟩
  · exact ⟨db₀, hdb₀, .refl db₀⟩

/-- Storing a new database. -/
theorem Persists.putLogical_new {s : Store} {db : LogicalDatabase} (hnew : s.logical? db.id = none) :
    s.Persists (s.putLogical db) := by
  intro id db₀ hdb₀
  rw [logical?_putLogical, if_neg]
  · exact ⟨db₀, hdb₀, .refl db₀⟩
  · rintro rfl
    rw [hnew] at hdb₀
    cases hdb₀

/-- Of some keys of the index: databases stand under valid classifiers, the index leads to them from keys with a scope only, and
from the key of a database that has one of these keys to that database alone, while it is not archived. -/
structure BindingsSound (keys : Set String) (s : Store) : Prop where
  current : ∀ id db, s.logical? id = some db → db.Current
  settled : ∀ id db, s.logical? id = some db → db.Settled keys
  entry : ∀ key id, s.classifierIndex.get? key = some id →
    ∃ db c, s.logical? id = some db ∧ c.scope.isSome = true ∧ classifierKey db.dbType c = key
  index : ∀ key id db, s.logical? id = some db → key ∈ keys ∨ classifierKey db.dbType db.classifier ∈ keys →
    (s.classifierIndex.get? key = some id ↔ db.markedForDrop = false ∧ classifierKey db.dbType db.classifier = key)
  members : s.MembersNamed

/-- Two stores with the same logical databases, index and domains. -/
structure SameBindings (s s' : Store) : Prop where
  logicals : s'.logicals = s.logicals
  classifierIndex : s'.classifierIndex = s.classifierIndex
  domains : s'.domains = s.domains

namespace SameBindings

theorem refl (s : Store) : SameBindings s s := ⟨rfl, rfl, rfl⟩

theorem trans {s s' s'' : Store} (h : SameBindings s s') (h' : SameBindings s' s'') : SameBindings s s'' :=
  ⟨h'.logicals.trans h.logicals, h'.classifierIndex.trans h.classifierIndex, h'.domains.trans h.domains⟩

theorem of_sameButRules {s s' : Store} (h : SameButRules s s') : SameBindings s s' :=
  ⟨h.logicals, h.classifierIndex, h.domains⟩

theorem persists {s s' : Store} (h : SameBindings s s') : s.Persists s' := by
  intro id db hdb
  exact ⟨db, by rw [logical?, h.logicals]; exact hdb, .refl db⟩

/-- What writes the registry alone leaves bindings as they are. -/
theorem of_sameButRegistry {s s' : Store} (h : SameButRegistry s s') : SameBindings s s' :=
  ⟨h.logicals, h.classifierIndex, h.domains⟩

theorem deregister {s s' : Store} {id : String} {out : Nat} (h : s.deregister id = .ok (out, s')) : SameBindings s s' := by
  obtain ⟨p, -, -, -, rfl⟩ := deregister_eq_ok h
  have hregistry := (SameButRegistry.discardMigration (s.removeRulesTo id).2 id).trans (.deletePhysical _ id)
  exact (of_sameButRules (s.sameButRules_removeRulesTo id)).trans (of_sameButRegistry hregistry)

end SameBindings

namespace BindingsSound

variable {keys : Set String} {s s' : Store}

theorem empty : Store.empty.BindingsSound keys := by
  constructor <;> simp [Store.empty, logical?, MembersNamed, domain?]

theorem of_sameBindings (h : s.BindingsSound keys) (hsame : SameBindings s s') : s'.BindingsSound keys := by
  constructor
  · simpa only [logical?, hsame.logicals] using h.current
  · simpa only [logical?, hsame.logicals] using h.settled
  · simpa only [logical?, hsame.logicals, hsame.classifierIndex] using h.entry
  · simpa only [logical?, hsame.logicals, hsame.classifierIndex] using h.index
  · simpa only [MembersNamed, domain?, hsame.domains] using h.members

/-- A database with one of the keys lasts where it persists. -/
theorem lasts (h : s.BindingsSound keys) (hpersists : s.Persists s') {id : String} {db : LogicalDatabase}
    (hdb : s.logical? id = some db) (hkey : classifierKey db.dbType db.classifier ∈ keys) :
    ∃ db', s'.logical? id = some db' ∧ db.Lasts db' := by
  obtain ⟨db', hdb', hlater⟩ := hpersists id db hdb
  exact ⟨db', hdb', hlater.lasts ((h.settled id db hdb).kept hkey)⟩

/-! ## What is found -/

/-- What the index holds for one of the keys is a database that is not archived and has it. -/
theorem live_of_entry (h : s.BindingsSound keys) {key id : String} (hentry : s.classifierIndex.get? key = some id)
    (hkey : key ∈ keys) :
    ∃ db, s.logical? id = some db ∧ db.markedForDrop = false ∧ classifierKey db.dbType db.classifier = key := by
  obtain ⟨db, -, hdb, -⟩ := h.entry key id hentry
  exact ⟨db, hdb, (h.index key id db hdb (Or.inl hkey)).mp hentry⟩

/-- What is found for a classifier is stored; if it has one of the keys, or the classifier has, it is not archived and has the key
of the classifier. -/
theorem findLogical?_eq_some (h : s.BindingsSound keys) {dbType : String} {c : Classifier} {db : LogicalDatabase}
    (hfound : s.findLogical? dbType c = some db)
    (hkey : classifierKey dbType c ∈ keys ∨ classifierKey db.dbType db.classifier ∈ keys) :
    db.markedForDrop = false ∧ classifierKey db.dbType db.classifier = classifierKey dbType c := by
  obtain ⟨id, hentry, hdb⟩ := findLogical?_eq_some_iff.mp hfound
  exact (h.index _ id db hdb hkey).mp hentry

/-- Nothing is found for a classifier only if nothing is indexed for it. -/
theorem index_of_findLogical?_eq_none (h : s.BindingsSound keys) {dbType : String} {c : Classifier}
    (hnone : s.findLogical? dbType c = none) : s.classifierIndex.get? (classifierKey dbType c) = none := by
  cases hentry : s.classifierIndex.get? (classifierKey dbType c) with
  | none => rfl
  | some id =>
    obtain ⟨db, -, hdb, -⟩ := h.entry _ id hentry
    rw [findLogical?_eq_some_iff.mpr ⟨id, hentry, hdb⟩] at hnone
    cases hnone

/-- A database that is not archived and has one of the keys is what the index holds for its classifier. -/
theorem findLogical?_of_stored (h : s.BindingsSound keys) {id : String} {db : LogicalDatabase} (hdb : s.logical? id = some db)
    (hdrop : db.markedForDrop = false) (hkey : classifierKey db.dbType db.classifier ∈ keys) :
    s.findLogical? db.dbType db.classifier = some db :=
  findLogical?_eq_some_iff.mpr ⟨id, (h.index _ id db hdb (Or.inl hkey)).mpr ⟨hdrop, rfl⟩, hdb⟩

/-- No database is found under a classifier without a scope. -/
theorem findLogical?_legacy (h : s.BindingsSound keys) {dbType : String} {c legacy : Classifier} (hlifted : c.ScopeLifted)
    (hlegacy : c.legacyEquivalent? = some legacy) : s.findLogical? dbType legacy = none := by
  cases hfound : s.findLogical? dbType legacy with
  | none => rfl
  | some db =>
    obtain ⟨id, hentry, -⟩ := findLogical?_eq_some_iff.mp hfound
    obtain ⟨db', c', -, hscope, hkey⟩ := h.entry _ id hentry
    exact absurd hkey.symm (Classifier.classifierKey_legacy_ne hlifted hlegacy hscope)

/-! ## Writes -/

/-- An entry of the index once a database is stored was there before, or is the one of the database. -/
theorem entry_putLogical (h : s.BindingsSound keys) {db : LogicalDatabase} (hcurrent : db.Current)
    (htype : ∀ db₀, s.logical? db.id = some db₀ → db.dbType = db₀.dbType) {key id : String}
    (hentry : (db.reindex s.classifierIndex).get? key = some id) :
    ∃ db₁ c, (s.putLogical db).logical? id = some db₁ ∧ c.scope.isSome = true ∧ classifierKey db₁.dbType c = key := by
  have hcases : s.classifierIndex.get? key = some id ∨ db.id = id ∧ classifierKey db.dbType db.classifier = key := by
    rw [LogicalDatabase.get?_reindex_of_current hcurrent.old] at hentry
    split at hentry
    · rename_i hkey
      split at hentry
      · split at hentry
        · cases hentry
        · exact Or.inl hentry
      · exact Or.inr ⟨Option.some.inj hentry, hkey⟩
    · exact Or.inl hentry
  rcases hcases with hentry | ⟨rfl, hkey⟩
  · obtain ⟨db₀, c, hdb₀, hscope, hkey⟩ := h.entry key id hentry
    rw [logical?_putLogical]
    split
    · rename_i hid
      exact ⟨db.reread, c, rfl, hscope, by rw [← hkey, ← htype db₀ (hid ▸ hdb₀)]; rfl⟩
    · exact ⟨db₀, c, hdb₀, hscope, hkey⟩
  · exact ⟨db.reread, db.classifier, by rw [logical?_putLogical, if_pos rfl], hcurrent.valid.scope_isSome, hkey⟩

/-- Storing a database keeps bindings sound when it is settled from there on, and of the keys only its own leads to it, while it is
not archived, and the same ones as before lead to every other database. -/
theorem putLogical_of_index (h : s.BindingsSound keys) {db : LogicalDatabase} (hcurrent : db.Current)
    (hsettled : db.reread.Settled keys) (htype : ∀ db₀, s.logical? db.id = some db₀ → db.dbType = db₀.dbType)
    (hown : ∀ key, key ∈ keys ∨ classifierKey db.dbType db.classifier.reread ∈ keys →
      ((db.reindex s.classifierIndex).get? key = some db.id ↔
        db.markedForDrop = false ∧ classifierKey db.dbType db.classifier.reread = key))
    (hothers : ∀ key id, db.id ≠ id →
      (∀ db₁, s.logical? id = some db₁ → key ∈ keys ∨ classifierKey db₁.dbType db₁.classifier ∈ keys) →
      ((db.reindex s.classifierIndex).get? key = some id ↔ s.classifierIndex.get? key = some id)) :
    (s.putLogical db).BindingsSound keys := by
  refine ⟨fun id db₁ hdb₁ => ?_, fun id db₁ hdb₁ => ?_, fun key id hentry => ?_, fun key id db₁ hdb₁ hkey => ?_, ?_⟩
  · rcases logical?_putLogical_cases hdb₁ with ⟨-, rfl⟩ | ⟨-, hdb₁⟩
    · exact hcurrent.reread
    · exact h.current id db₁ hdb₁
  · rcases logical?_putLogical_cases hdb₁ with ⟨-, rfl⟩ | ⟨-, hdb₁⟩
    · exact hsettled
    · exact h.settled id db₁ hdb₁
  · rw [putLogical_eq] at hentry
    exact h.entry_putLogical hcurrent htype hentry
  · rw [putLogical_eq]
    rcases logical?_putLogical_cases hdb₁ with ⟨rfl, rfl⟩ | ⟨hid, hdb₁⟩
    · exact hown key hkey
    · refine (hothers key id hid fun db₂ hdb₂ => ?_).trans (h.index key id db₁ hdb₁ hkey)
      rw [← Option.some.inj (hdb₁.symm.trans hdb₂)]
      exact hkey
  · rw [putLogical_eq]
    exact h.members

section Later

variable (h : s.BindingsSound keys) {db db' : LogicalDatabase} (hdb : s.logical? db'.id = some db) (hlasts : db.Lasts db')
  (hold : db'.oldClassifier = none)
include h hdb hlasts hold

/-- Once a later record of a database is stored, its key leads to it while it is not archived. -/
theorem get?_reindex_own {key : String} (hkey : key ∈ keys ∨ classifierKey db.dbType db.classifier ∈ keys) :
    (db'.reindex s.classifierIndex).get? key = some db'.id ↔
      db'.markedForDrop = false ∧ classifierKey db.dbType db.classifier = key := by
  have hbefore := h.index key db'.id db hdb hkey
  rw [LogicalDatabase.get?_reindex_of_current hold, hlasts.dbType, hlasts.classifier]
  split
  · rename_i hown
    cases hdrop : db'.markedForDrop with
    | true =>
      simp only [if_true, Bool.true_eq_false, false_and, iff_false]
      split
      · simp
      · assumption
    | false => simp [hown]
  · rename_i hne
    exact iff_of_false (fun hentry => hne (hbefore.mp hentry).2) fun hown => hne hown.2

/-- Every other database is led to from the keys that lead to it before. -/
theorem get?_reindex_other {key id : String} (hne : db'.id ≠ id)
    (hkey : ∀ db₁, s.logical? id = some db₁ → key ∈ keys ∨ classifierKey db₁.dbType db₁.classifier ∈ keys) :
    (db'.reindex s.classifierIndex).get? key = some id ↔ s.classifierIndex.get? key = some id := by
  rw [LogicalDatabase.get?_reindex_of_current hold, hlasts.dbType, hlasts.classifier]
  split
  · rename_i hsame
    subst hsame
    cases hdrop : db'.markedForDrop with
    | true =>
      simp only [if_true]
      split
      · rename_i hown
        rw [hown]
        simp [hne]
      · exact Iff.rfl
    | false =>
      simp only [Bool.false_eq_true, if_false, Option.some.injEq, hne, false_iff]
      intro hentry
      -- The key leads to the database of the later record already, so to no other one.
      obtain ⟨db₁, -, hdb₁, -⟩ := h.entry _ id hentry
      have hmem : classifierKey db.dbType db.classifier ∈ keys := by
        rcases hkey db₁ hdb₁ with hmem | hmem
        · exact hmem
        · rw [← ((h.index _ id db₁ hdb₁ (Or.inr hmem)).mp hentry).2]
          exact hmem
      have hlive : db.markedForDrop = false := by
        cases hd : db.markedForDrop with
        | false => rfl
        | true => rw [hlasts.archived hd] at hdrop; cases hdrop
      have hown := (h.index _ db'.id db hdb (Or.inl hmem)).mpr ⟨hlive, rfl⟩
      exact hne (Option.some.inj (hown.symm.trans hentry))
  · exact Iff.rfl

/-- A later record of a database that is not archived by it leaves the entries of the keys alone. -/
theorem get?_reindex_of_lasts (hdrop : db'.markedForDrop = db.markedForDrop) {key : String} (hkey : key ∈ keys) :
    (db'.reindex s.classifierIndex).get? key = s.classifierIndex.get? key := by
  refine Option.ext fun id => ?_
  by_cases hid : db'.id = id
  · rw [← hid, h.get?_reindex_own hdb hlasts hold (Or.inl hkey), h.index key db'.id db hdb (Or.inl hkey), hdrop]
  · exact h.get?_reindex_other hdb hlasts hold hid fun _ _ => Or.inl hkey

/-- A later record of a stored database keeps bindings sound. -/
theorem putLogical_of_lasts : (s.putLogical db').BindingsSound keys := by
  have hsettled := h.settled _ db hdb
  refine h.putLogical_of_index ?_ ?_ ?_ (fun key hkey => ?_) fun key id hid hkey =>
    h.get?_reindex_other hdb hlasts hold hid hkey
  · have hcurrent := h.current _ db hdb
    exact ⟨hlasts.classifier ▸ hcurrent.valid, by rw [hlasts.classifier, hcurrent.ns, hlasts.ns], hold⟩
  · refine LogicalDatabase.Settled.reread ?_
    rw [LogicalDatabase.Settled, hlasts.classifier, hlasts.dbType]
    exact hsettled
  · intro db₀ hdb₀
    rw [← Option.some.inj (hdb.symm.trans hdb₀), hlasts.dbType]
  · rw [hlasts.dbType, hlasts.classifier] at hkey ⊢
    rw [hsettled.settles.key_reread_iff hkey]
    exact h.get?_reindex_own hdb hlasts hold (hkey.imp_right hsettled.settles.mem_of_reread)

end Later

/-- A new database keeps bindings sound when nothing is indexed for its classifier and what is kept of that has its key, or the
database never gets one of the keys. -/
theorem putLogical_of_new (h : s.BindingsSound keys) {db : LogicalDatabase} (hnew : s.logical? db.id = none)
    (hfree : s.classifierIndex.get? (classifierKey db.dbType db.classifier) = none) (hcurrent : db.Current)
    (hsettles : db.Settles keys) (hlive : db.markedForDrop = false) : (s.putLogical db).BindingsSound keys := by
  have hindex : ∀ key, (db.reindex s.classifierIndex).get? key =
      if classifierKey db.dbType db.classifier = key then some db.id else s.classifierIndex.get? key := by
    intro key
    rw [LogicalDatabase.get?_reindex_of_current hcurrent.old, hlive, if_neg Bool.false_ne_true]
  refine h.putLogical_of_index hcurrent hsettles.reread (fun db₀ hdb₀ => ?_) (fun key hkey => ?_) fun key id hid hkey => ?_
  · rw [hnew] at hdb₀
    cases hdb₀
  · have hnone : s.classifierIndex.get? key ≠ some db.id := by
      intro hentry
      obtain ⟨db₁, -, hdb₁, -⟩ := h.entry key db.id hentry
      rw [hnew] at hdb₁
      cases hdb₁
    rw [hindex, hsettles.key_reread_iff hkey]
    split <;> simp [*]
  · rw [hindex]
    split
    · rename_i hsame
      rw [← hsame, hfree]
      simp [hid]
    · exact Iff.rfl

/-! ## Operations -/

/-- Recording what an adapter made keeps bindings sound and leaves the entries of the keys alone. -/
theorem applySuccesses (h : s.BindingsSound keys) (htabled : s.Tabled) {i i' : Instruction} {done : List Success}
    (hok : Store.applySuccesses i s done = .ok (i', s')) :
    s'.BindingsSound keys ∧ s.Persists s' ∧ ∀ key ∈ keys, s'.classifierIndex.get? key = s.classifierIndex.get? key := by
  refine (applySuccesses_invariant
    (P := fun s' => s'.Tabled ∧ s'.BindingsSound keys ∧ s.Persists s' ∧
      ∀ key ∈ keys, s'.classifierIndex.get? key = s.classifierIndex.get? key) ?_
    ⟨htabled, h, .refl s, fun _ _ => rfl⟩ hok).2
  rintro s₁ db entry d ⟨htabled₁, h₁, hpersists, hindex⟩ hdb
  have hid : db.id = d.databaseId := htabled₁.logical_id _ _ hdb
  have hstored : s₁.logical? (db.acknowledge entry d).id = some db := by
    rw [show (db.acknowledge entry d).id = d.databaseId from hid]
    exact hdb
  have hlater : db.Lasts (db.acknowledge entry d) := ⟨⟨rfl, rfl, rfl, rfl, fun hd => hd⟩, rfl⟩
  have hold : (db.acknowledge entry d).oldClassifier = none := (h₁.current _ db hdb).old
  refine ⟨htabled₁.putLogical _, h₁.putLogical_of_lasts hstored hlater hold,
    hpersists.trans (.putLogical_later hstored hlater), fun key hkey => ?_⟩
  rw [putLogical_eq]
  exact (h₁.get?_reindex_of_lasts hstored hlater hold rfl hkey).trans (hindex key hkey)

/-- An acknowledgement keeps bindings sound, whatever it comes to. -/
theorem acknowledged (h : s.BindingsSound keys) (htabled : s.Tabled) {now : UInt64} {size : Nat}
    {physicalDatabaseId instructionId : String} {ack : Acknowledgement} {answer : Except RegistryError MigrationStep}
    (hcase : s.Acknowledged now size physicalDatabaseId instructionId ack answer s') :
    s'.BindingsSound keys ∧ s.Persists s' := by
  cases hcase with
  | unknown => exact ⟨h, .refl s⟩
  | failed =>
    have hsame := SameBindings.of_sameButRegistry (.deleteInstruction s instructionId)
    exact ⟨h.of_sameBindings hsame, hsame.persists⟩
  | applied hlive hp hfailure happly hadvance =>
    obtain ⟨hsound, hpersists, -⟩ := h.applySuccesses htabled happly
    have hsame := SameBindings.of_sameButRegistry (.advance hadvance)
    exact ⟨hsound.of_sameBindings hsame, hpersists.trans hsame.persists⟩

/-- Dropping a database keeps bindings sound. -/
theorem markForDrop (h : s.BindingsSound keys) (htabled : s.Tabled) {id : String} {out : LogicalDatabase}
    (hok : s.markForDrop id = .ok (out, s')) : s'.BindingsSound keys ∧ s.Persists s' := by
  obtain ⟨db, hdb, rfl⟩ := markForDrop_eq_ok hok
  have hid : db.id = id := htabled.logical_id _ _ hdb
  have hstored : s.logical? ({ db with markedForDrop := true } : LogicalDatabase).id = some db := hid.symm ▸ hdb
  have hlater : db.Lasts { db with markedForDrop := true } := ⟨⟨rfl, rfl, rfl, rfl, fun _ => rfl⟩, rfl⟩
  exact ⟨h.putLogical_of_lasts hstored hlater (h.current _ db hdb).old, .putLogical_later hstored hlater⟩

/-- A request keeps bindings sound when a database that it makes gets an id that none has, and what is kept of its classifier has
its key, or it never gets one of the keys. No database is upgraded, since none is found under a classifier without a scope. -/
theorem bound (h : s.BindingsSound keys) {now : UInt64} {id : String} {r : DatabaseRequest} {outcome : BindingOutcome}
    (hlifted : r.classifier.ScopeLifted) (hnew : s.logical? id = none)
    (hsettles : ∀ db redirected applied, outcome = .resolved db true redirected applied → db.Settles keys)
    (hcase : s.Bound now id r outcome s') : s'.BindingsSound keys ∧ s.Persists s' := by
  cases hcase with
  | refused => exact ⟨h, .refl s⟩
  | found => exact ⟨h, .refl s⟩
  | unplaced => exact ⟨h, .refl s⟩
  | @upgraded a legacy db haddress hmissing hlegacy hfound =>
    rw [h.findLogical?_legacy ((address_eq_ok h.members haddress).2.2 hlifted) hlegacy] at hfound
    cases hfound
  | @created a target applied haddress hmissing hplace =>
    obtain ⟨hvalid, hns, -⟩ := address_eq_ok h.members haddress
    have hfree := h.index_of_findLogical?_eq_none (findLogical?_of_missing hmissing)
    let db := LogicalDatabase.make id now r.dbType a target
    have hsound : (s.putLogical db).BindingsSound keys :=
      h.putLogical_of_new hnew hfree ⟨hvalid, hns, rfl⟩ (hsettles _ _ _ rfl) rfl
    have hsame := SameBindings.of_sameButRegistry (.joinMigration (s.putLogical db) now db)
    exact ⟨hsound.of_sameBindings hsame, (Persists.putLogical_new hnew).trans hsame.persists⟩

/-- A domain of named members keeps bindings sound. -/
theorem putDomain (h : s.BindingsSound keys) {now : UInt64} {controller : String} {members : List Member}
    (hmembers : membersProblem? controller members = none) :
    (s.putDomain ⟨controller, members, now⟩).BindingsSound keys := by
  refine ⟨h.current, h.settled, h.entry, h.index, fun controller' d hd m hm => ?_⟩
  simp only [domain?, Store.putDomain, KeyMap.get?_insert] at hd
  split at hd
  · rw [← Option.some.inj hd] at hm
    exact (membersProblem?_eq_none_iff.mp hmembers).named m hm
  · exact h.members controller' d hd m hm

/-- Deleting a domain keeps bindings sound. -/
theorem deleteDomain (h : s.BindingsSound keys) (controller : String) : (s.deleteDomain controller).BindingsSound keys := by
  refine ⟨h.current, h.settled, h.entry, h.index, fun controller' d hd m hm => ?_⟩
  simp only [domain?, Store.deleteDomain, KeyMap.get?_erase] at hd
  split at hd
  · cases hd
  · exact h.members controller' d hd m hm

end BindingsSound

end Store

end DatabaseBroker
