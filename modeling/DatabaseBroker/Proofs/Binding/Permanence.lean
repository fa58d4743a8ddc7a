import DatabaseBroker.Proofs.Binding.Index
import DatabaseBroker.Proofs.Migration.Consistency

/-!
# Bindings are permanent and unique

A database that a request made stays where it was bound, is found by its own classifier until it is dropped, and is not found
after that (`bindings_permanent`): as long as what is kept of the classifier of each database that is made has its key
(`Broker.keepsKeys`). This is needed. A classifier is kept as what its text denotes, and the index entry is written for the
classifier as given; where the two differ, the database is not found by the classifier that is kept of it, and dropping it leaves
the entry (`bindings_not_permanent`). Only floats can differ, those whose shortest decimal is read as a neighbour.

That a database stays stored, with its type and where it is bound, does not depend on it, and a classifier that drifts does no harm
to the databases whose keys it never gets: all of the above is proved of any keys of the index (`Store.BindsKeys`), as long as each
new database keeps its key or never gets one of these.
-/

namespace DatabaseBroker

open Store

/-! ## Classifiers that keep their keys -/

namespace Broker

/-- The database that an operation makes, as it is answered. -/
def made? (env : Surroundings) (b : Broker) (now : UInt64) : Operation → Option LogicalDatabase
  | .getOrCreate call =>
    match b.store.getOrCreate now (env.logicalName b.names.logicals) call.request with
    | .ok (.resolved db true _ _, _) => some db
    | _ => none
  | _ => none

/-- A request that is answered with a new database makes it. -/
theorem made?_of_getOrCreate {env : Surroundings} {b : Broker} {now : UInt64} {call : DatabaseCall} {db : LogicalDatabase}
    {redirected : Bool} {applied : Option AppliedRule} {s : Store}
    (h : b.store.getOrCreate now (env.logicalName b.names.logicals) call.request =
      .ok (.resolved db true redirected applied, s)) : b.made? env now (.getOrCreate call) = some db := by
  rw [made?, h]

/-- What an operation makes is the answer to a request. -/
theorem getOrCreate_of_made? {env : Surroundings} {b : Broker} {now : UInt64} {op : Operation} {db : LogicalDatabase}
    (h : b.made? env now op = some db) : ∃ call redirected applied s, op = .getOrCreate call ∧
      b.store.getOrCreate now (env.logicalName b.names.logicals) call.request =
        .ok (.resolved db true redirected applied, s) := by
  cases op with
  | getOrCreate call =>
    simp only [made?] at h
    split at h
    · rename_i db' redirected applied s hok
      cases h
      exact ⟨call, redirected, applied, s, rfl, hok⟩
    · cases h
  | _ => cases h

/-- Each database that a history makes has a property. -/
def Makes (env : Surroundings) (P : LogicalDatabase → Prop) : Broker → List Event → Prop
  | _, [] => True
  | b, e :: rest => (∀ db ∈ b.made? env e.time e.operation, P db) ∧ (b.run env e.time e.operation).Makes env P rest

instance decidableMakes (env : Surroundings) (P : LogicalDatabase → Prop) [DecidablePred P] :
    (b : Broker) → (events : List Event) → Decidable (b.Makes env P events)
  | _, [] => inferInstanceAs (Decidable True)
  | b, e :: rest =>
    have := decidableMakes env P (b.run env e.time e.operation) rest
    inferInstanceAs (Decidable ((∀ db ∈ b.made? env e.time e.operation, P db) ∧ _))

/-- Whether what is kept of the classifier of each database that is made has its key. -/
def keepsKeys (env : Surroundings) (b : Broker) (events : List Event) : Bool :=
  Decidable.decide (b.Makes env (fun db => db.classifier.KeepsKey) events)

variable {env : Surroundings} {P Q : LogicalDatabase → Prop} {keys : Set String} {b b' : Broker}

theorem Makes.imp {events : List Event} (h : b.Makes env P events) (himp : ∀ db, P db → Q db) : b.Makes env Q events := by
  induction events generalizing b with
  | nil => trivial
  | cons e rest ih => exact ⟨fun db hdb => himp db (h.1 db hdb), ih h.2⟩

/-- What holds of all databases holds of those that are made. -/
theorem makes_of_forall (events : List Event) (h : ∀ db, P db) : b.Makes env P events := by
  induction events generalizing b with
  | nil => trivial
  | cons e rest ih => exact ⟨fun db _ => h db, ih⟩

/-- What holds of the databases that a history makes holds of those that its beginning makes. -/
theorem Makes.of_append {events later : List Event} (h : b.Makes env P (events ++ later)) : b.Makes env P events := by
  induction events generalizing b with
  | nil => trivial
  | cons e rest ih => exact ⟨h.1, ih h.2⟩

/-- An operation keeps bindings sound when what is kept of the database that it makes has its key, or it never gets one of the
keys. -/
theorem Effect.bindings {now : UInt64} {op : Operation} (heffect : b.Effect env now op b') (hconsistent : b.Consistent env)
    (h : b.store.BindingsSound keys) (hsettles : ∀ db ∈ b.made? env now op, db.Settles keys) :
    b'.store.BindingsSound keys ∧ b.store.Persists b'.store := by
  have htabled := hconsistent.migrations.tabled
  have hframe : ∀ {s : Store}, SameBindings b.store s → s.BindingsSound keys ∧ b.store.Persists s :=
    fun hsame => ⟨h.of_sameBindings hsame, hsame.persists⟩
  cases heffect with
  | nothing => exact hframe (.refl _)
  | checked => exact hframe (.refl _)
  | undecided => exact hframe (.refl _)
  | decided hok => exact hframe (.of_sameButRegistry (.decided (decided_of_decide hok).2))
  | acknowledged hcase => exact h.acknowledged htabled hcase
  | continued hok => exact hframe (.of_sameButRegistry (.nextPortion hok))
  | madeGlobal hok => exact hframe (.of_sameButRegistry (.setGlobal hok))
  | deregistered hok => exact hframe (.deregister hok)
  | @bound call outcome s hok =>
    have hlifted : call.request.classifier.ScopeLifted := Classifier.scopeLifted_ofMap call.classifier
    refine h.bound hlifted hconsistent.named.logical?_next ?_ (bound_of_getOrCreate hok)
    rintro db redirected applied rfl
    exact hsettles db (made?_of_getOrCreate hok)
  | dropped hok => exact h.markForDrop htabled hok
  | ruled hsame => exact hframe (.of_sameButRules hsame)
  | grouped hmembers => exact ⟨h.putDomain hmembers, .refl _⟩
  | ungrouped => exact ⟨h.deleteDomain _, .refl _⟩

/-- Events keep bindings sound, and databases persist, as long as each database that is made keeps its key or never gets one of the
keys. -/
theorem bindings_runAll {events : List Event} (hconsistent : b.Consistent env) (h : b.store.BindingsSound keys)
    (hsettles : b.Makes env (·.Settles keys) events) :
    (b.runAll env events).store.BindingsSound keys ∧ b.store.Persists (b.runAll env events).store := by
  induction events generalizing b with
  | nil => exact ⟨h, .refl _⟩
  | cons e rest ih =>
    have heffect := b.effect env e.time e.operation
    obtain ⟨hsound, hpersists⟩ := heffect.bindings hconsistent h hsettles.1
    obtain ⟨hsound', hpersists'⟩ := ih (hconsistent.effect heffect) hsound hsettles.2
    exact ⟨hsound', hpersists.trans hpersists'⟩

end Broker

/-! ## Own classifiers -/

namespace Store

/-- A database is what its own classifier leads to, and a request for it changes nothing. -/
def AnswersWith (s : Store) (db : LogicalDatabase) : Prop :=
  ∀ r : DatabaseRequest, r.classifier = db.classifier → r.dbType = db.dbType → (r.ns = none ∨ r.ns = some db.ns) →
    r.physicalDatabaseId = none →
    s.lookup r = .ok (.resolved db false false none) ∧
      ∀ now newId, s.getOrCreate now newId r = .ok (.resolved db false false none, s)

/-- Every database that is not archived is what its own classifier leads to. -/
def AnswersOwn (s : Store) : Prop := ∀ id db, s.logical? id = some db → db.markedForDrop = false → s.AnswersWith db

/-- The databases that are stored under some keys of the index: of those that are not archived no two have one key and each is what
its own classifier leads to, and of the others none is what a lookup is answered with. -/
structure BindsKeys (keys : Set String) (s : Store) : Prop where
  unique : ∀ id id' db db', s.logical? id = some db → s.logical? id' = some db' → db.markedForDrop = false →
    db'.markedForDrop = false → db.dbType = db'.dbType → db.classifier.canonicalKey = db'.classifier.canonicalKey →
    classifierKey db.dbType db.classifier ∈ keys → id = id'
  answers : ∀ id db, s.logical? id = some db → db.markedForDrop = false → classifierKey db.dbType db.classifier ∈ keys →
    s.AnswersWith db
  live : ∀ r db created redirected applied, s.lookup r = .ok (.resolved db created redirected applied) →
    classifierKey db.dbType db.classifier ∈ keys → db.markedForDrop = false

variable {keys : Set String} {s : Store}

/-- What a lookup answers is found for some classifier. -/
theorem found_of_lookup {r : DatabaseRequest} {db : LogicalDatabase} {created redirected : Bool} {applied : Option AppliedRule}
    (h : s.lookup r = .ok (.resolved db created redirected applied)) : ∃ dbType c, s.findLogical? dbType c = some db := by
  obtain ⟨a, -, -, hfound | ⟨legacy, -, hfound⟩⟩ := lookup_eq_resolved h
  · exact ⟨r.dbType, a.classifier, hfound⟩
  · exact ⟨r.dbType, legacy, hfound⟩

/-- A lookup answers only databases that are stored. -/
theorem stored_of_lookup {r : DatabaseRequest} {db : LogicalDatabase} {created redirected : Bool} {applied : Option AppliedRule}
    (h : s.lookup r = .ok (.resolved db created redirected applied)) : ∃ id, s.logical? id = some db := by
  obtain ⟨dbType, c, hfound⟩ := found_of_lookup h
  obtain ⟨id, -, hdb⟩ := findLogical?_eq_some_iff.mp hfound
  exact ⟨id, hdb⟩

/-- Where bindings are sound, keys are bound. -/
theorem BindingsSound.bindsKeys (h : s.BindingsSound keys) : s.BindsKeys keys := by
  refine ⟨fun id id' db db' hdb hdb' hdrop hdrop' htype hkey hmem => ?_, fun id db hdb hdrop hmem => ?_,
    fun r db created redirected applied hlookup hmem => ?_⟩
  · have hentry := (h.index _ id db hdb (Or.inl hmem)).mpr ⟨hdrop, rfl⟩
    have hsame : classifierKey db'.dbType db'.classifier = classifierKey db.dbType db.classifier := by
      rw [classifierKey, classifierKey, htype, hkey]
    have hentry' := (h.index _ id' db' hdb' (Or.inl hmem)).mpr ⟨hdrop', hsame⟩
    exact Option.some.inj (hentry.symm.trans hentry')
  · intro r hclassifier htype hns hpin
    have hcurrent := h.current id db hdb
    have hfound : s.findLogical? r.dbType r.classifier = some db := by
      rw [htype, hclassifier]
      exact h.findLogical?_of_stored hdb hdrop hmem
    have haddress : s.address r = .ok ⟨r.classifier, db.ns, false⟩ :=
      address_of_found (hclassifier ▸ hcurrent.valid) (hclassifier ▸ hcurrent.ns) hns hfound
    have hadmits : r.Admits db := by rw [DatabaseRequest.Admits, hpin, Option.any_none]
    exact answers_of_found haddress hadmits hfound
  · obtain ⟨dbType, c, hfound⟩ := found_of_lookup hlookup
    exact (h.findLogical?_eq_some hfound (Or.inr hmem)).1

section New

variable {s' : Store} (h : s.BindingsSound keys) {db : LogicalDatabase} (hnew : s.logical? db.id = none) (hcurrent : db.Current)
  (hsame : SameBindings (s.putLogical db) s') (htabled : s'.Tabled)
include h hnew hcurrent hsame htabled

/-- Once a new database is stored, it is found under the key of its classifier as given only: before, nothing led to its id. -/
theorem BindingsSound.key_of_found_new {dbType : String} {c : Classifier} (hfound : s'.findLogical? dbType c = some db.reread) :
    classifierKey db.dbType db.classifier = classifierKey dbType c := by
  obtain ⟨id, hentry, hdb⟩ := findLogical?_eq_some_iff.mp hfound
  obtain rfl : db.id = id := htabled.logical_id id db.reread hdb
  rw [hsame.classifierIndex, putLogical_eq, LogicalDatabase.get?_reindex_of_current hcurrent.old] at hentry
  split at hentry
  · assumption
  · obtain ⟨db₀, -, hdb₀, -⟩ := h.entry _ _ hentry
    rw [hnew] at hdb₀
    cases hdb₀

/-- When a new database is what its own classifier leads to, what is kept of the classifier has its key. -/
theorem BindingsSound.keepsKey_of_answersWith (hown : s'.AnswersWith db.reread) : db.classifier.KeepsKey := by
  have hmembers : s'.MembersNamed := by
    simpa only [MembersNamed, domain?, hsame.domains, putLogical_eq] using h.members
  obtain ⟨hlookup, -⟩ := hown ⟨db.reread.classifier, db.dbType, none, none⟩ rfl rfl (Or.inl rfl) rfl
  obtain ⟨a, haddress, hdirect, hfound⟩ := lookup_eq_resolved hlookup
  have hclassifier : a.classifier = db.reread.classifier :=
    address_classifier_of_own haddress hcurrent.valid.reread.scope_isSome hdirect
  rcases hfound with hfound | ⟨legacy, hlegacy, hfound⟩
  · rw [hclassifier] at hfound
    exact (Classifier.classifierKey_inj (h.key_of_found_new hnew hcurrent hsame htabled hfound)).2.symm
  · have hlifted := (address_eq_ok hmembers haddress).2.2 (Classifier.scopeLifted_ofMap _)
    exact absurd (h.key_of_found_new hnew hcurrent hsame htabled hfound).symm
      (Classifier.classifierKey_legacy_ne hlifted hlegacy hcurrent.valid.scope_isSome)

end New

end Store

namespace Broker

variable {env : Surroundings} {keys : Set String} {b : Broker}

/-- When the database that an operation makes is what its own classifier leads to, what is kept of the classifier has its key. -/
theorem keepsKey_of_answersOwn {now : UInt64} {op : Operation} {db : LogicalDatabase} (hconsistent : b.Consistent env)
    (h : b.store.BindingsSound keys) (hmade : b.made? env now op = some db) (hown : (b.run env now op).store.AnswersOwn) :
    db.classifier.KeepsKey := by
  have htabled := (hconsistent.effect (b.effect env now op)).migrations.tabled
  obtain ⟨call, redirected, applied, s, rfl, hok⟩ := getOrCreate_of_made? hmade
  have hrun : (b.run env now (.getOrCreate call)).store = s := by simp only [run, getOrCreate, hok]
  rw [hrun] at hown htabled
  rcases (bound_of_getOrCreate hok).cases_on_created with ⟨hcreated, -⟩ | ⟨-, a, target, _, haddress, -, -, houtcome, rfl⟩
  · cases hcreated
  · cases houtcome
    obtain ⟨hvalid, hns, -⟩ := address_eq_ok h.members haddress
    let db := LogicalDatabase.make (env.logicalName b.names.logicals) now call.dbType a target
    have hcurrent : db.Current := ⟨hvalid, hns, rfl⟩
    have hnew : b.store.logical? db.id = none := hconsistent.named.logical?_next
    have hsame := SameBindings.of_sameButRegistry (.joinMigration (b.store.putLogical db) now db)
    have hstored : ((b.store.putLogical db).joinMigration now db).logical? db.id = some db.reread := by
      rw [logical?, hsame.logicals]
      exact (logical?_putLogical b.store db db.id).trans (if_pos rfl)
    exact h.keepsKey_of_answersWith hnew hcurrent hsame htabled (hown db.id db.reread hstored rfl)

/-- When own classifiers lead to their databases at every point of a history, the history keeps keys. -/
theorem makes_of_answersOwn {events : List Event} (hconsistent : b.Consistent env) (h : b.store.BindingsSound ∅)
    (hown : ∀ before after, events = before ++ after → (b.runAll env before).store.AnswersOwn) :
    b.Makes env (fun db => db.classifier.KeepsKey) events := by
  induction events generalizing b with
  | nil => trivial
  | cons e rest ih =>
    have heffect := b.effect env e.time e.operation
    have hsound := (heffect.bindings hconsistent h fun db _ => db.settles_empty).1
    refine ⟨fun db hdb => keepsKey_of_answersOwn hconsistent h hdb (hown [e] rest rfl), ?_⟩
    exact ih (hconsistent.effect heffect) hsound fun before after hsplit =>
      hown (e :: before) after (by rw [hsplit, List.cons_append])

end Broker

/-! ## A classifier that drifts -/

/-- The float that the text `1e-25` is read as. Its shortest decimal is read as a neighbour, and that of the neighbour is `1e-25`
again. -/
def driftingFloat : Json :=
  match (Document.readValue 1 0 ['1', 'e', '-', '2', '5']).1 with
  | .number n => .number n
  | _ => .null

/-- A request with a classifier that is not kept as it is. -/
def driftingCall : DatabaseCall :=
  ⟨((Classifier.service "shop" "cart").withExtension "shard" driftingFloat).toMap, "postgresql", none, none⟩

/-- A database is made under a classifier that is not kept as it is, and dropped. -/
def sampleDrift : List Event := [
  ⟨1, .precheck (sampleDeclaration ["admin"]) none⟩,
  ⟨2, .decide (sampleDeclaration ["admin"])⟩,
  ⟨3, .getOrCreate driftingCall⟩,
  ⟨4, .drop "ldb-#1"⟩]

/-- Then another one is made under a classifier that differs in the microservice. -/
def sampleBesideDrift : List Event :=
  sampleDrift ++ [⟨5, .getOrCreate ⟨(Classifier.service "shop" "pay").toMap, "postgresql", none, none⟩⟩]

/-! ## Histories -/

section

variable {env : Surroundings} {keys : Set String} {events : List Event}

/-- Bindings are sound after every history whose databases keep their keys or never get one of the keys. -/
theorem bindingsSound_replay (h : Broker.start.Makes env (·.Settles keys) events) : (replay env events).store.BindingsSound keys :=
  (Broker.bindings_runAll .start .empty h).1

/-- A history that keeps keys settles all of them. -/
theorem settles_of_keepsKeys (h : Broker.start.keepsKeys env events = true) : Broker.start.Makes env (·.Settles .univ) events :=
  (of_decide_eq_true h).imp fun _ => Or.inl

end

/-- What is stored at some point of a history persists. -/
theorem persists_replay (env : Surroundings) (before after : List Event) :
    (replay env before).store.Persists (replay env (before ++ after)).store := by
  have hnone : ∀ (b : Broker) (events : List Event), b.Makes env (·.Settles ∅) events :=
    fun b events => Broker.makes_of_forall events LogicalDatabase.settles_empty
  rw [replay_append]
  exact (Broker.bindings_runAll (Broker.consistent_replay env before) (bindingsSound_replay (hnone _ before)) (hnone _ after)).2

/-- Bindings over every history, in seven parts. As long as what is kept of the classifier of each database that is made has its
key:
1. A database that was stored at some point is stored ever after, with its type, classifier, namespace and physical database,
   and archived if it was.
2. No two databases that are not archived have the same type and the same key of the classifier.
3. A lookup and a request with the classifier and the type of a database that is not archived are answered with it, neither
   made nor redirected, and the request changes nothing.
4. A lookup is answered only with a database that is stored and not archived.
And this is needed:
5. When part 3 holds at every point of a history, what is kept of each new classifier had its key.
Whatever is kept of classifiers:
6. A database that was stored at some point is stored ever after, with its type, namespace and physical database, archived if it
   was, and with a classifier that the one it had is read back as.
7. Parts 1 to 4 hold of the databases that have one of any keys of the index, as long as what is kept of each database that is made
   has its key or the database never gets one of these. -/
theorem bindings_permanent (env : Surroundings) (events : List Event) :
    let s := (replay env events).store
    (Broker.start.keepsKeys env events = true →
      (∀ before after, events = before ++ after → (replay env before).store.Lasts s) ∧
      (∀ id id' db db', s.logical? id = some db → s.logical? id' = some db' → db.markedForDrop = false →
        db'.markedForDrop = false → db.dbType = db'.dbType → db.classifier.canonicalKey = db'.classifier.canonicalKey →
        id = id') ∧
      s.AnswersOwn ∧
      (∀ r db created redirected applied, s.lookup r = .ok (.resolved db created redirected applied) →
        (∃ id, s.logical? id = some db) ∧ db.markedForDrop = false)) ∧
    ((∀ before after, events = before ++ after → (replay env before).store.AnswersOwn) →
      Broker.start.keepsKeys env events = true) ∧
    (∀ before after, events = before ++ after → (replay env before).store.Persists s) ∧
    (∀ keys : Set String, Broker.start.Makes env (·.Settles keys) events →
      (∀ before after, events = before ++ after → ∀ id db, (replay env before).store.logical? id = some db →
        classifierKey db.dbType db.classifier ∈ keys → ∃ db', s.logical? id = some db' ∧ db.Lasts db') ∧
      s.BindsKeys keys) := by
  intro s
  have hlasts : ∀ keys : Set String, Broker.start.Makes env (·.Settles keys) events → ∀ before after, events = before ++ after →
      ∀ id db, (replay env before).store.logical? id = some db → classifierKey db.dbType db.classifier ∈ keys →
        ∃ db', s.logical? id = some db' ∧ db.Lasts db' := by
    rintro keys hsettles before after rfl id db hdb hkey
    exact (bindingsSound_replay hsettles.of_append).lasts (persists_replay env before after) hdb hkey
  refine ⟨fun hkeeps => ?_, fun hown => decide_eq_true (Broker.makes_of_answersOwn .start .empty hown), ?_,
    fun keys hsettles => ⟨hlasts keys hsettles, (bindingsSound_replay hsettles).bindsKeys⟩⟩
  · have hsettles := settles_of_keepsKeys hkeeps
    have hbinds := (bindingsSound_replay hsettles).bindsKeys
    refine ⟨fun before after hsplit id db hdb => hlasts _ hsettles before after hsplit id db hdb trivial,
      fun id id' db db' hdb hdb' hdrop hdrop' htype hkey => ?_, fun id db hdb hdrop => hbinds.answers id db hdb hdrop trivial,
      fun r db created redirected applied hlookup => ?_⟩
    · exact hbinds.unique id id' db db' hdb hdb' hdrop hdrop' htype hkey trivial
    · exact ⟨stored_of_lookup hlookup, hbinds.live r db created redirected applied hlookup trivial⟩
  · rintro before after rfl
    exact persists_replay env before after

/-- The sample of a migration keeps keys, so after one of its databases is dropped the other is still found and the dropped one is
not. The database that is made beside one whose classifier drifts is found. -/
theorem bindings_permanent_of_sampleMigration :
    let s := (replay (.numbered 1) (sampleMigration ++ [⟨7, .drop "ldb-#1"⟩])).store
    (s.AnswersOwn ∧ ∀ r db created redirected applied, s.lookup r = .ok (.resolved db created redirected applied) →
      (∃ id, s.logical? id = some db) ∧ db.markedForDrop = false) ∧
    let beside := (replay (.numbered 1) sampleBesideDrift).store
    ∃ db, beside.logical? "ldb-#2" = some db ∧ beside.AnswersWith db := by
  have hkeeps : Broker.start.keepsKeys (.numbered 1) (sampleMigration ++ [⟨7, .drop "ldb-#1"⟩]) = true := by decide +kernel
  have hbound := ((bindings_permanent (.numbered 1) (sampleMigration ++ [⟨7, .drop "ldb-#1"⟩])).1 hkeeps).2.2
  refine ⟨hbound, ?_⟩
  let key := classifierKey "postgresql" (Classifier.service "shop" "pay")
  have hmakes : Broker.start.Makes (.numbered 1) (fun db => db.classifier.KeepsKey ∨
      db.classifier.part .microserviceName = some "cart") sampleBesideDrift := by decide +kernel
  have hsettles : Broker.start.Makes (.numbered 1) (·.Settles {key}) sampleBesideDrift :=
    hmakes.imp fun db h => h.elim Or.inl fun hpart => LogicalDatabase.settles_of_part hpart (by decide) fun key' hkey' =>
      ⟨"postgresql", Classifier.service "shop" "pay", hkey'.symm, rfl⟩
  have hbinds := ((bindings_permanent (.numbered 1) sampleBesideDrift).2.2.2 {key} hsettles).2
  have hstored : ((replay (.numbered 1) sampleBesideDrift).store.logical? "ldb-#2").any (fun db =>
      db.markedForDrop = false ∧ classifierKey db.dbType db.classifier = key) = true := by decide +kernel
  obtain ⟨db, hdb, hlive⟩ := (Option.any_eq_true _ _).mp hstored
  obtain ⟨hdrop, hkey⟩ := of_decide_eq_true hlive
  exact ⟨db, hdb, hbinds.answers _ db hdb hdrop hkey⟩

/-- The database of an answer that neither made nor redirected it. -/
def BindingOutcome.standing? : BindingOutcome → Option LogicalDatabase
  | .resolved db false false none => some db
  | _ => none

/-- The answer that gives a standing database. -/
theorem BindingOutcome.standing?_eq_some {outcome : BindingOutcome} {db : LogicalDatabase} (h : outcome.standing? = some db) :
    outcome = .resolved db false false none := by
  unfold standing? at h
  split at h
  · cases h
    rfl
  · cases h

/-- Bindings are not permanent where a classifier drifts: the index entry of the dropped database stays, and the request that
made it is answered with it. -/
theorem bindings_not_permanent :
    ∃ db, (replay (.numbered 1) sampleDrift).store.lookup driftingCall.request = .ok (.resolved db false false none) ∧
      db.markedForDrop = true := by
  have hanswer : ((replay (.numbered 1) sampleDrift).store.lookup driftingCall.request).toOption.any (fun outcome =>
      outcome.standing?.any (·.markedForDrop)) = true := by decide +kernel
  obtain ⟨outcome, houtcome, hstanding⟩ := (Option.any_eq_true _ _).mp hanswer
  obtain ⟨db, hdb, hdrop⟩ := (Option.any_eq_true _ _).mp hstanding
  refine ⟨db, ?_, hdrop⟩
  rw [← BindingOutcome.standing?_eq_some hdb]
  cases hlookup : (replay (.numbered 1) sampleDrift).store.lookup driftingCall.request with
  | error e =>
    rw [hlookup] at houtcome
    cases houtcome
  | ok answer =>
    rw [hlookup] at houtcome
    cases houtcome
    rfl

end DatabaseBroker
