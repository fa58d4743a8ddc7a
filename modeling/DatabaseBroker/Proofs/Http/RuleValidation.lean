import DatabaseBroker.Proofs.Balancing.AcceptedRules
import DatabaseBroker.Proofs.Http.Refusals

/-!
# Validating rules and storing them

Rules on microservices may be validated before they are stored. Validation asks what storing asks of the rules themselves, and does
not look at the namespace: what it leaves out is whether namespace and types may stand in keys (`StorableNames`). So rules are stored
exactly when they are valid and their names are storable (`stored_iff_validated`), and where the names are not, rules may be found
valid and still be refused (`validated_not_stored`).
-/

namespace DatabaseBroker

/-- Names that rules may be stored under: the namespace may stand in a key, and so may each type that is not blank. -/
structure StorableNames (ns : String) (rules : List MicroserviceRule) : Prop where
  ns : PlainName ns
  dbTypes : ∀ rule ∈ rules, SlashFree rule.dbType

namespace Store

variable {s : Store} {now : UInt64} {ns : String} {rules : List MicroserviceRule}

/-! ## Writes and refusals of rules -/

/-- Rules are written exactly when they are valid and their names are storable. -/
theorem setMicroserviceRules_isOk_iff :
    (∃ out, s.setMicroserviceRules now ns rules = .ok out) ↔ s.view.ValidRules rules ∧ StorableNames ns rules := by
  simp only [setMicroserviceRules_eq_ok_iff]
  constructor
  · rintro ⟨_, hns, htypes, hvalid, -⟩
    exact ⟨hvalid, hns, fun rule hrule => (htypes rule hrule).slashFree⟩
  · -- that no type is blank, which the write checks again, is part of validity
    rintro ⟨hvalid, hnames⟩
    exact ⟨_, hnames.ns, fun rule hrule => ⟨(hvalid.each rule hrule).dbType, hnames.dbTypes rule hrule⟩, hvalid, rfl⟩

/-- A check of a name fails for a reason that makes the request invalid. -/
theorem checkName_eq_error {kind : NameKind} {name : String} {e : RoutingError} (h : checkName kind name = .error e) :
    ∃ reason, e = .invalid reason := by
  unfold checkName at h
  split at h
  · cases h
    exact ⟨_, rfl⟩
  · split at h
    · cases h
      exact ⟨_, rfl⟩
    · cases h

/-- A list of checks fails as one of them does. -/
theorem forM_eq_error {ε α : Type} {check : α → Except ε Unit} {l : List α} {e : ε} (h : l.forM check = .error e) :
    ∃ a ∈ l, check a = .error e := by
  induction l with
  | nil => cases h
  | cons a rest ih =>
    rw [List.forM_eq_forM, List.forM_cons] at h
    cases ha : check a with
    | error e' =>
      rw [ha] at h
      cases h
      exact ⟨a, List.mem_cons_self, ha⟩
    | ok u =>
      rw [ha] at h
      obtain ⟨a', ha', he⟩ := ih h
      exact ⟨a', List.mem_cons_of_mem _ ha', he⟩

/-- Under names that may stand in keys, rules that are not valid are refused for the problems that are found in them. -/
theorem setMicroserviceRules_of_invalid (hns : PlainName ns) (htypes : ∀ rule ∈ rules, PlainName rule.dbType)
    (hinvalid : ¬ s.view.ValidRules rules) :
    s.setMicroserviceRules now ns rules = .error (.invalid (.badRules (s.view.problems rules))) := by
  have hname : checkName .ns ns = .ok () := checkName_eq_ok_iff.mpr hns
  have hnames : (rules.forM fun rule => checkName .dbType rule.dbType) = .ok () :=
    forM_eq_ok_iff.mpr fun rule hrule => checkName_eq_ok_iff.mpr (htypes rule hrule)
  rw [← RoutingView.problems_eq_nil_iff] at hinvalid
  simp only [setMicroserviceRules, hname, hnames, bind, Except.bind]

/-- Rules that are refused make the request invalid. -/
theorem setMicroserviceRules_eq_error {e : RoutingError} (h : s.setMicroserviceRules now ns rules = .error e) :
    ∃ reason, e = .invalid reason := by
  simp only [setMicroserviceRules, bind, Except.bind] at h
  split at h
  · rename_i hname
    cases h
    exact checkName_eq_error hname
  · split at h
    · -- the write stops at the first type that may not stand in a key
      rename_i hnames
      cases h
      obtain ⟨rule, -, hrule⟩ := forM_eq_error hnames
      exact checkName_eq_error hrule
    · split at h
      · cases h
      · cases h
        exact ⟨_, rfl⟩

end Store

namespace Http

/-! ## The two calls -/

section Calls

variable (c : ControlPlane) (now : UInt64) (ns : String) (rules : List MicroserviceRule)

/-- Valid rules are found valid, whatever the namespace, and others are refused for the problems in them; nothing is written. -/
theorem validated_cases :
    (c.store.view.ValidRules rules ∧ (Call.validateMicroserviceRules ns rules).run c now = (.data 200 (.string "valid"), c)) ∨
      (¬ c.store.view.ValidRules rules ∧ (Call.validateMicroserviceRules ns rules).run c now =
        (.failure 400 (problemsMessage (c.store.view.problems rules)), c)) := by
  rw [← RoutingView.problems_eq_nil_iff]
  simp only [Call.run, read]
  cases c.store.view.problems rules with
  | nil => exact Or.inl ⟨rfl, rfl⟩
  | cons problem rest => exact Or.inr ⟨List.cons_ne_nil _ _, rfl⟩

/-- Rules are stored where the write is accepted, and otherwise refused for its reason with everything left as it was. -/
theorem stored_cases :
    (∃ sets s, c.store.setMicroserviceRules now ns rules = .ok (sets, s) ∧ (Call.putMicroserviceRules ns rules).run c now =
      (.data 201 (.ofList MicroserviceRule.toJson (sets.flatMap (·.rules))), c.withStore s)) ∨
      ∃ e, c.store.setMicroserviceRules now ns rules = .error e ∧
        (Call.putMicroserviceRules ns rules).run c now = (.failure 400 e.message, c) := by
  simp only [Call.run, write, ControlPlane.attempt]
  cases hset : c.store.setMicroserviceRules now ns rules with
  | ok out => exact Or.inl ⟨out.1, out.2, rfl, rfl⟩
  | error e =>
    obtain ⟨reason, rfl⟩ := Store.setMicroserviceRules_eq_error hset
    exact Or.inr ⟨_, rfl, rfl⟩

theorem validated_iff : ((Call.validateMicroserviceRules ns rules).run c now).1.status = 200 ↔ c.store.view.ValidRules rules := by
  rcases validated_cases c now ns rules with ⟨hvalid, hrun⟩ | ⟨hinvalid, hrun⟩
  · simp [hrun, hvalid, Response.data]
  · simp [hrun, hinvalid, Response.failure]

theorem stored_iff :
    ((Call.putMicroserviceRules ns rules).run c now).1.status = 201 ↔
      ∃ out, c.store.setMicroserviceRules now ns rules = .ok out := by
  rcases stored_cases c now ns rules with ⟨sets, s, hset, hrun⟩ | ⟨e, hset, hrun⟩
  · simp [hrun, hset, Response.data]
  · simp [hrun, hset, Response.failure]

end Calls

/-! ## Agreement -/

/-- A request is answered with the status of its call. -/
theorem status_handle {c : ControlPlane} {now : UInt64} {r : Request} {call : Call} (hcall : r.call = .ok call) :
    (handle c now r).1.status = (call.run c now).1.status := by
  simp only [handle, hcall]
  split <;> rfl

/-- For every control plane, every namespace and every list of rules on microservices:
1. validation answers 200 or 400 and leaves everything, storing answers 201, or 400 and then leaves everything;
2. storing answers 201 exactly when validation answers 200 and the names of the rules are storable;
3. under names that may stand in keys, both refuse for the same problems;
4. and so it is with the requests that are these calls. -/
theorem stored_iff_validated (c : ControlPlane) (now : UInt64) (ns : String) (rules : List MicroserviceRule) (now' : UInt64) :
    let validated := (Call.validateMicroserviceRules ns rules).run c now
    let stored := (Call.putMicroserviceRules ns rules).run c now'
    ((validated.1.status = 200 ∨ validated.1.status = 400) ∧ validated.2 = c ∧
      (stored.1.status = 201 ∨ stored.1.status = 400 ∧ stored.2 = c)) ∧
    (stored.1.status = 201 ↔ validated.1.status = 200 ∧ StorableNames ns rules) ∧
    (PlainName ns → (∀ rule ∈ rules, PlainName rule.dbType) → validated.1.status = 400 →
      let problems := problemsMessage (c.store.view.problems rules)
      validated.1 = .failure 400 problems ∧ stored.1 = .failure 400 ("validation failed: " ++ problems)) ∧
    ∀ r r' : Request, r.call = .ok (.putMicroserviceRules ns rules) → r'.call = .ok (.validateMicroserviceRules ns rules) →
      ((handle c now' r).1.status = 201 ↔ (handle c now r').1.status = 200 ∧ StorableNames ns rules) := by
  intro validated stored
  have hagree : stored.1.status = 201 ↔ validated.1.status = 200 ∧ StorableNames ns rules := by
    rw [stored_iff, validated_iff, Store.setMicroserviceRules_isOk_iff]
  refine ⟨⟨?_, ?_, ?_⟩, hagree, fun hns htypes hrefused => ?_, fun r r' hput hvalidate => ?_⟩
  · rcases validated_cases c now ns rules with ⟨-, hrun⟩ | ⟨-, hrun⟩
    · exact Or.inl (congrArg (·.1.status) hrun)
    · exact Or.inr (congrArg (·.1.status) hrun)
  · rcases validated_cases c now ns rules with ⟨-, hrun⟩ | ⟨-, hrun⟩ <;> exact congrArg Prod.snd hrun
  · rcases stored_cases c now' ns rules with ⟨_, _, -, hrun⟩ | ⟨_, -, hrun⟩
    · exact Or.inl (congrArg (·.1.status) hrun)
    · exact Or.inr ⟨congrArg (·.1.status) hrun, congrArg Prod.snd hrun⟩
  · rcases validated_cases c now ns rules with ⟨-, hrun⟩ | ⟨hinvalid, hrun⟩
    · rw [show validated = _ from hrun] at hrefused
      cases hrefused
    · have hrefusal : c.store.setMicroserviceRules now' ns rules = _ := Store.setMicroserviceRules_of_invalid hns htypes hinvalid
      refine ⟨congrArg Prod.fst hrun, ?_⟩
      simp only [stored, Call.run, write, ControlPlane.attempt, hrefusal]
      rfl
  · rw [status_handle hput, status_handle hvalidate]
    exact hagree

/-! ## Names that cannot be stored -/

/-- A request with a JSON body. -/
def samplePut (path body : String) : Request := ⟨"PUT", "/api/v1/" ++ path, true, body⟩

/-- The registration of an adapter at an address. -/
def sampleRegistration (address : String) : String :=
  "\x7b\"adapterAddress\":\"" ++ address ++ "\",\"status\":\"run\",\"metadata\":" ++
    "\x7b\"apiVersion\":\"v2\",\"supportedRoles\":[\"admin\"],\"features\":\x7b\x7d\x7d\x7d"

/-- A control plane at which a physical database was registered, and another one under a type with a slash. -/
def sampleRegistered : ControlPlane :=
  serve (.start 1 .empty)
    [(1, samplePut "postgresql/physical_databases/pg" (sampleRegistration "http://pg")),
      (2, samplePut "post%2Fgres/physical_databases/pg-2" (sampleRegistration "http://pg-2"))]

/-- A rule that pins the target of its type. -/
def sampleRule (dbType target : String) : MicroserviceRule := ⟨dbType, 1, [], [⟨"zone", "a"⟩], some target⟩

/-- That rule in the body of a request. -/
def sampleRuleBody (dbType target : String) : String :=
  "[\x7b\"type\":\"" ++ dbType ++ "\",\"order\":1,\"labels\":[\"zone=a\"],\"physicalDatabaseId\":\"" ++ target ++ "\"\x7d]"

/-- The rules that a request stores or validates. -/
def Request.rules? (r : Request) : Option (Bool × String × List MicroserviceRule) :=
  match r.call with
  | .ok (.putMicroserviceRules ns rules) => some (true, ns, rules)
  | .ok (.validateMicroserviceRules ns rules) => some (false, ns, rules)
  | _ => none

/-- The rule is found valid for the sample and stored, by requests with one body; no rules at all are refused by both calls. -/
theorem stored_iff_validated_of_sampleRegistered :
    let body := sampleRuleBody "postgresql" "pg"
    let r := samplePut "namespaces/shop/rules/onMicroservices" body
    let r' := samplePut "namespaces/shop/rules/onMicroservices/validation" body
    ((handle sampleRegistered 3 r').1.status = 200 ∧ (handle sampleRegistered 4 r).1.status = 201) ∧
      ((Call.validateMicroserviceRules "shop" []).run sampleRegistered 3).1 = .failure 400 "rule set is empty" ∧
      ((Call.putMicroserviceRules "shop" []).run sampleRegistered 4).1 = .failure 400 "validation failed: rule set is empty" := by
  intro body r r'
  have hrules : r.rules? = some (true, "shop", [sampleRule "postgresql" "pg"]) := by decide +kernel
  have hrules' : r'.rules? = some (false, "shop", [sampleRule "postgresql" "pg"]) := by decide +kernel
  have hput : r.call = .ok (.putMicroserviceRules "shop" [sampleRule "postgresql" "pg"]) := by
    unfold Request.rules? at hrules
    split at hrules <;> simp_all
  have hvalidate : r'.call = .ok (.validateMicroserviceRules "shop" [sampleRule "postgresql" "pg"]) := by
    unfold Request.rules? at hrules'
    split at hrules' <;> simp_all
  have hvalidated : (handle sampleRegistered 3 r').1.status = 200 := by
    rw [status_handle hvalidate]
    decide +kernel
  have hshop : PlainName "shop" := by decide
  have hnames : StorableNames "shop" [sampleRule "postgresql" "pg"] :=
    ⟨hshop, List.forall_mem_singleton.mpr (show PlainName "postgresql" by decide).slashFree⟩
  obtain ⟨-, -, -, hrequests⟩ := stored_iff_validated sampleRegistered 3 "shop" [sampleRule "postgresql" "pg"] 4
  obtain ⟨-, -, hempty, -⟩ := stored_iff_validated sampleRegistered 3 "shop" [] 4
  exact ⟨⟨hvalidated, (hrequests r r' hput hvalidate).mpr ⟨hvalidated, hnames⟩⟩, hempty hshop (by simp) rfl⟩

/-- It is found valid for a namespace with a slash and not stored, and so is the rule for the type with a slash. -/
theorem validated_not_stored :
    let answers (ns : String) (rule : MicroserviceRule) :=
      (((Call.validateMicroserviceRules ns [rule]).run sampleRegistered 3).1.status,
        ((Call.putMicroserviceRules ns [rule]).run sampleRegistered 3).1.status)
    answers "shop/blue" (sampleRule "postgresql" "pg") = (200, 400) ∧
      answers "shop" (sampleRule "post/gres" "pg-2") = (200, 400) := by
  decide +kernel

end Http

end DatabaseBroker
