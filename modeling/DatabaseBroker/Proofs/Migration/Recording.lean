import DatabaseBroker.Proofs.Json.Sameness
import DatabaseBroker.Proofs.Migration.Coverage

/-!
# What is recorded of a database

An acknowledged database gains the roles of its entry, the resources that are new, and for each role that the acknowledged
connection properties name the last of them, in place of all that it had of that role (`LogicalDatabase.Gains`). It is kept as
what its own text denotes, which is the same database when its values read back as themselves (`reread_eq_self_iff`).
-/

namespace DatabaseBroker

/-! ## Additions -/

/-- What a list does not hold is added to it in order, each once. -/
theorem addMissing_eq {α : Type} [BEq α] [LawfulBEq α] (l new : List α) :
    addMissing l new = l ++ (new.filter fun a => !l.contains a).eraseDups := by
  unfold addMissing
  induction new generalizing l with
  | nil => simp
  | cons a rest ih =>
    rw [List.foldl_cons, ih]
    cases ha : l.contains a with
    | true => simp only [if_true, List.filter_cons, ha, Bool.not_true, Bool.false_eq_true, if_false]
    | false =>
      have hrest : (rest.filter fun b => !(l ++ [a]).contains b) =
          (rest.filter fun b => !l.contains b).filter fun b => !b == a := by
        rw [List.filter_filter]
        refine List.filter_congr fun b _ => ?_
        by_cases hb : b = a <;> simp [hb]
      simp only [Bool.false_eq_true, if_false, List.filter_cons, ha, Bool.not_false, if_true, List.eraseDups_cons, hrest,
        List.append_assoc, List.singleton_append]

/-- New members without duplicates are added as they are. -/
theorem addMissing_of_new {α : Type} [BEq α] [LawfulBEq α] {l new : List α} (hnodup : new.Nodup)
    (hnew : ∀ a ∈ new, a ∉ l) : addMissing l new = l ++ new := by
  unfold addMissing
  induction new generalizing l with
  | nil => simp
  | cons a rest ih =>
    obtain ⟨ha, hrest⟩ := List.nodup_cons.mp hnodup
    have hl : l.contains a = false := by simpa using hnew a (List.mem_cons_self ..)
    have hnext : ∀ b ∈ rest, b ∉ l ++ [a] := by
      intro b hb hmem
      rcases List.mem_append.mp hmem with hmem | hmem
      · exact hnew b (List.mem_cons_of_mem _ hb) hmem
      · exact ha (List.mem_singleton.mp hmem ▸ hb)
    rw [List.foldl_cons, hl, if_neg Bool.false_ne_true, ih hrest hnext, List.append_assoc, List.singleton_append]

/-- A role set names each role once. -/
theorem AdapterMetadata.roleSet_nodup (m : AdapterMetadata) : m.roleSet.Nodup := KeyMap.keys_nodup _

/-! ## Connection properties -/

namespace ConnectionProperties

/-- Whether properties are of a role. -/
def isOf (p : ConnectionProperties) (role : Json) : Bool := Json.sameOption (p.get? roleKey) (some role)

/-- Whether properties name a role. -/
def namesRole (p : ConnectionProperties) : Bool := (p.get? roleKey).isSome

/-- Whether properties are of a role that others name. -/
def isNamedBy (p : ConnectionProperties) (others : List ConnectionProperties) : Bool :=
  others.any fun o => o.namesRole && Json.sameOption (p.get? roleKey) (o.get? roleKey)

/-- Properties are of a role when they have a value under the role's key that is the same. -/
theorem isOf_iff {p : ConnectionProperties} {role : Json} :
    p.isOf role = true ↔ ∃ r, p.get? roleKey = some r ∧ r.same role = true := by
  unfold isOf
  cases p.get? roleKey <;> simp [Json.sameOption]

/-- Properties are of the role that they name. -/
theorem isOf_self {p : ConnectionProperties} {role : Json} (h : p.get? roleKey = some role) : p.isOf role = true :=
  isOf_iff.mpr ⟨role, h, role.same_refl⟩

/-- Properties that are of the role of others are of a role when the others are. -/
theorem isOf_congr {o p : ConnectionProperties} (h : Json.sameOption (o.get? roleKey) (p.get? roleKey) = true) (role : Json) :
    o.isOf role = p.isOf role := by
  unfold isOf
  cases ho : o.get? roleKey with
  | none =>
    cases hp : p.get? roleKey with
    | none => rfl
    | some b => simp [ho, hp, Json.sameOption] at h
  | some a =>
    cases hp : p.get? roleKey with
    | none => simp [ho, hp, Json.sameOption] at h
    | some b =>
      have hab : a.same b = true := by simpa [ho, hp, Json.sameOption] using h
      refine Bool.eq_iff_iff.mpr ⟨fun ha => ?_, fun hb => ?_⟩
      · exact Json.same_trans (Json.same_symm hab) ha
      · exact Json.same_trans hab hb

/-- Properties are added at the end, after what is not of the role that they name. -/
theorem replaceProperties_eq (l : List ConnectionProperties) (p : ConnectionProperties) :
    replaceProperties l p =
      (if p.namesRole then l.filter fun o => !Json.sameOption (o.get? roleKey) (p.get? roleKey) else l) ++ [p] := rfl

/-- Properties that are added are the only ones of the role that they name. -/
theorem filter_isOf_replaceProperties (l : List ConnectionProperties) (p : ConnectionProperties) (role : Json) :
    (replaceProperties l p).filter (·.isOf role) = if p.isOf role then [p] else l.filter (·.isOf role) := by
  have hothers : (if p.namesRole then l.filter fun o => !Json.sameOption (o.get? roleKey) (p.get? roleKey) else l).filter
      (·.isOf role) = if p.isOf role then [] else l.filter (·.isOf role) := by
    cases hnames : p.namesRole with
    | false =>
      have hnone : p.get? roleKey = none := by simpa [namesRole] using hnames
      simp only [Bool.false_eq_true, if_false, isOf, hnone, Json.sameOption]
    | true =>
      rw [if_pos rfl, List.filter_filter]
      cases hrole : p.isOf role with
      | true =>
        refine List.filter_eq_nil_iff.mpr fun o _ ho => ?_
        simp only [Bool.and_eq_true, Bool.not_eq_true'] at ho
        obtain ⟨a, ha, hsame⟩ := isOf_iff.mp ho.1
        obtain ⟨b, hb, hsame'⟩ := isOf_iff.mp hrole
        have : Json.sameOption (o.get? roleKey) (p.get? roleKey) = true := by
          rw [ha, hb]
          exact Json.same_trans hsame (Json.same_symm hsame')
        rw [this] at ho
        cases ho.2
      | false =>
        rw [if_neg Bool.false_ne_true]
        refine List.filter_congr fun o _ => ?_
        cases hsame : Json.sameOption (o.get? roleKey) (p.get? roleKey) with
        | true => rw [isOf_congr hsame role, hrole, Bool.false_and]
        | false => rw [Bool.not_false, Bool.and_true]
  rw [replaceProperties_eq, List.filter_append, hothers]
  cases hrole : p.isOf role <;> simp [hrole]

/-- Of a role that is named among properties that are added one after another the last ones stay, and else what there was. -/
theorem filter_isOf_foldl (l new : List ConnectionProperties) (role : Json) :
    (new.foldl replaceProperties l).filter (·.isOf role) =
      match (new.filter (·.isOf role)).getLast? with
      | some p => [p]
      | none => l.filter (·.isOf role) := by
  induction new generalizing l with
  | nil => rfl
  | cons p rest ih =>
    rw [List.foldl_cons, ih, filter_isOf_replaceProperties]
    cases hrole : p.isOf role with
    | false => simp only [List.filter_cons, hrole, Bool.false_eq_true, if_false]
    | true =>
      simp only [List.filter_cons, hrole, if_true, List.getLast?_cons]
      cases (rest.filter (·.isOf role)).getLast? <;> rfl

/-- Properties of no role that is named among those that are added stay, and those that name no role are added. -/
theorem filter_unnamed_foldl {l new named : List ConnectionProperties} (hnew : ∀ p ∈ new, p ∈ named) :
    (new.foldl replaceProperties l).filter (!·.isNamedBy named) =
      l.filter (!·.isNamedBy named) ++ new.filter (!·.namesRole) := by
  have hunnamed : ∀ p : ConnectionProperties, p.namesRole = false → p.isNamedBy named = false := by
    intro p hp
    have hnone : p.get? roleKey = none := by simpa [namesRole] using hp
    refine List.any_eq_false.mpr fun o _ => ?_
    cases ho : o.get? roleKey <;> simp [namesRole, hnone, ho, Json.sameOption]
  induction new generalizing l with
  | nil => simp
  | cons p rest ih =>
    have hmem : p ∈ named := hnew p (List.mem_cons_self ..)
    have hstep : (replaceProperties l p).filter (!·.isNamedBy named) =
        l.filter (!·.isNamedBy named) ++ [p].filter (!·.namesRole) := by
      rw [replaceProperties_eq, List.filter_append]
      cases hnames : p.namesRole with
      | false => simp [hnames, hunnamed p hnames]
      | true =>
        have hown : p.isNamedBy named = true := by
          refine List.any_eq_true.mpr ⟨p, hmem, ?_⟩
          obtain ⟨r, hr⟩ := Option.isSome_iff_exists.mp hnames
          simp [namesRole, hr, Json.sameOption, Json.same_refl]
        have hkept : ∀ o : ConnectionProperties, o.isNamedBy named = false →
            Json.sameOption (o.get? roleKey) (p.get? roleKey) = false := by
          intro o ho
          have := List.any_eq_false.mp ho p hmem
          simpa [hnames] using this
        simp only [if_true, List.filter_cons, List.filter_nil, hown, hnames, Bool.not_true, Bool.false_eq_true, if_false,
          List.append_nil, List.filter_filter]
        refine List.filter_congr fun o _ => ?_
        cases ho : o.isNamedBy named with
        | true => rfl
        | false => simp [hkept o ho]
    rw [List.foldl_cons, ih fun q hq => hnew q (List.mem_cons_of_mem _ hq), hstep, List.append_assoc, ← List.filter_append]
    rfl

/-- Properties read back as themselves when each of their values does. -/
theorem reread_eq_self_iff {p : ConnectionProperties} : p.reread = p ↔ ∀ key j, p.get? key = some j → j.Steady := by
  constructor
  · intro h key j hj
    have hkept := KeyMap.get?_mapValues Json.reread p key
    rw [show p.mapValues Json.reread = p from h, hj] at hkept
    exact (Option.some.inj hkept).symm
  · intro h
    refine KeyMap.ext_get? fun key => ?_
    rw [reread, KeyMap.get?_mapValues]
    cases hj : p.get? key with
    | none => rfl
    | some j => exact congrArg some (h key j hj)

end ConnectionProperties

/-! ## Databases -/

/-- A list stays itself exactly when each of its elements does. -/
theorem map_eq_self_iff {α : Type} {f : α → α} {l : List α} : l.map f = l ↔ ∀ a ∈ l, f a = a := by
  conv => lhs; rhs; rw [← List.map_id l]
  exact List.map_inj_left

namespace LogicalDatabase

/-- What a database becomes when its entry is acknowledged. -/
structure Gains (db : LogicalDatabase) (entry : AdditionalRoles) (done : Success) (db' : LogicalDatabase) : Prop where
  /-- Nothing else changes. -/
  rest : db' = { db with
    roles := db'.roles, resources := db'.resources, connectionProperties := db'.connectionProperties }
  /-- The roles of the entry come after those that it had. -/
  roles : db'.roles = db.roles ++ entry.roles
  /-- The resources that it did not have come after those that it had, each once. -/
  resources : db'.resources = db.resources ++ (done.resources.filter fun r => !db.resources.contains r).eraseDups
  /-- Of a role that acknowledged properties name, it has the last of those and no other. -/
  replaced : ∀ p ∈ done.connectionProperties, ∀ role, p.get? roleKey = some role →
    db'.connectionProperties.filter (·.isOf role) = (done.connectionProperties.filter (·.isOf role)).getLast?.toList
  /-- It keeps the other properties that it had, and has those that name no role after them. -/
  kept : db'.connectionProperties.filter (!·.isNamedBy done.connectionProperties) =
    db.connectionProperties.filter (!·.isNamedBy done.connectionProperties) ++
      done.connectionProperties.filter (!·.namesRole)

/-- A database whose entry names what it lacks of a role set gains what it should. -/
theorem gains_acknowledge {db : LogicalDatabase} {entry : AdditionalRoles} {required : List String}
    (hnodup : required.Nodup) (hroles : entry.roles = db.missingRoles required) (done : Success) :
    db.Gains entry done (db.acknowledge entry done) where
  rest := rfl
  roles := by
    refine addMissing_of_new ?_ fun role hrole => ?_
    · rw [hroles]
      exact hnodup.sublist List.filter_sublist
    · rw [hroles] at hrole
      exact (mem_missingRoles_iff.mp hrole).2
  resources := addMissing_eq _ _
  replaced p hp role hrole := by
    have hmem : p ∈ done.connectionProperties.filter (·.isOf role) :=
      List.mem_filter.mpr ⟨hp, ConnectionProperties.isOf_self hrole⟩
    rw [show (db.acknowledge entry done).connectionProperties =
      done.connectionProperties.foldl replaceProperties db.connectionProperties from rfl,
      ConnectionProperties.filter_isOf_foldl]
    cases hlast : (done.connectionProperties.filter (·.isOf role)).getLast? with
    | none =>
      rw [List.getLast?_eq_none_iff] at hlast
      rw [hlast] at hmem
      cases hmem
    | some q => rfl
  kept := ConnectionProperties.filter_unnamed_foldl fun _ hp => hp

/-- A database under a classifier that is kept reads back as itself when each value of its connection properties does. -/
theorem reread_eq_self_iff {db : LogicalDatabase} (hkept : db.classifier.reread = db.classifier)
    (hold : db.oldClassifier = none) :
    db.reread = db ↔ ∀ p ∈ db.connectionProperties, ∀ key j, p.get? key = some j → j.Steady := by
  simp only [← ConnectionProperties.reread_eq_self_iff, ← map_eq_self_iff]
  constructor
  · intro h
    exact congrArg LogicalDatabase.connectionProperties h
  · intro h
    simp only [reread, hkept, hold, h, Option.map_none]
    rw [← hold]

end LogicalDatabase

end DatabaseBroker
