import DatabaseBroker.Proofs.Balancing.RuleBook
import DatabaseBroker.Proofs.Effects
import DatabaseBroker.Proofs.Registration.AdapterAddresses

/-!
# Namespaces do not interfere

Rules, entries and labels of all namespaces stand in the same tables. Resolution for a namespace looks at what the book holds at the
pairs that begin with it, and at physical databases (`Store.Keeps.resolve?_congr`). An operation that names other namespaces writes
neither (`Operation.Elsewhere`), so whatever such operations come after a history, accepted or refused, resolution for the namespace
answers as before (`routing_of_elsewhere`).
-/

namespace DatabaseBroker

open Store

/-- An operation that writes rules, entries and labels of other namespaces only and registers nothing. Requests for databases, drops
and domains write none of these, so they may name any namespace. -/
def Operation.Elsewhere (ns : String) : Operation → Prop
  | .putNamespaceRule other _ _ => other ≠ ns
  | .deleteNamespaceRule other _ => other ≠ ns
  | .putMicroserviceRules other _ => other ≠ ns
  | .putPermanentRules rules => ∀ rule ∈ rules, ns ∉ rule.namespaces
  | .deletePermanentEntries other _ => other ≠ ns
  | .putLabels other _ _ => other ≠ ns
  | .getOrCreate _ => True
  | .drop _ => True
  | .putDomain _ _ => True
  | .deleteDomain _ => True
  | _ => False

namespace RuleBook

variable {ns : String} {book book' book'' : RuleBook}

/-- Two books that hold the same at the pairs that begin with a namespace. -/
structure SameFor (ns : String) (book book' : RuleBook) : Prop where
  namespaceRules : ∀ second, book'.namespaceRules (ns, second) = book.namespaceRules (ns, second)
  permanentEntries : ∀ second, book'.permanentEntries (ns, second) = book.permanentEntries (ns, second)
  ruleSets : ∀ second, book'.ruleSets (ns, second) = book.ruleSets (ns, second)
  labels : ∀ second, book'.labels (ns, second) = book.labels (ns, second)

theorem SameFor.refl (ns : String) (book : RuleBook) : SameFor ns book book :=
  ⟨fun _ => rfl, fun _ => rfl, fun _ => rfl, fun _ => rfl⟩

/-- Writing at a pair of another namespace leaves what stands at the pairs of this one. -/
theorem update_elsewhere {α : Type} {other : String} (hother : other ≠ ns) (f : String × String → Option α) (name : String)
    (a : Option α) (second : String) : Function.update f (other, name) a (ns, second) = f (ns, second) := by
  rw [Function.update_apply, if_neg (by simp [hother.symm])]

/-- What an operation for other namespaces makes of a book holds the same for the namespace. -/
theorem sameFor_apply (book : RuleBook) (now : UInt64) {op : Operation} (h : op.Elsewhere ns) :
    SameFor ns book (book.apply now op) := by
  have hsame := SameFor.refl ns book
  cases op with
  | putNamespaceRule other name r => exact { hsame with namespaceRules := update_elsewhere h _ _ _ }
  | deleteNamespaceRule other name => exact { hsame with namespaceRules := update_elsewhere h _ _ _ }
  | putMicroserviceRules other rules => exact { hsame with ruleSets := fun _ => if_neg fun hp => h hp.1.symm }
  | putPermanentRules rules =>
    refine { hsame with permanentEntries := fun dbType => ?_ }
    have hnone : rules.find? (·.isFor (ns, dbType)) = none := by
      refine List.find?_eq_none.mpr fun rule hrule hfor => h rule hrule ?_
      simp only [PermanentRule.isFor, Bool.and_eq_true, List.contains_eq_mem, decide_eq_true_eq] at hfor
      exact hfor.2
    simp only [apply, hnone]
  | deletePermanentEntries other dbType => exact { hsame with permanentEntries := fun _ => if_neg fun hp => h hp.1.symm }
  | putLabels other microservice labels => exact { hsame with labels := update_elsewhere h _ _ _ }
  | getOrCreate | drop | putDomain | deleteDomain => exact hsame
  | _ => exact h.elim

end RuleBook

namespace Store.Keeps

variable {s s' : Store} {book book' : RuleBook} {ns : String}

/-- Resolution for a namespace looks at what the book holds for it, and at physical databases. -/
theorem resolve?_congr (h : s.Keeps book) (h' : s'.Keeps book') (hsame : book.SameFor ns book')
    (hphysicals : s'.physicals = s.physicals) (microservice dbType : String) :
    s'.view.resolve? ⟨ns, microservice, dbType⟩ = s.view.resolve? ⟨ns, microservice, dbType⟩ := by
  -- The tables differ, and so may where the rules stand in them; their listings are one, since both are by name.
  have hrules : s'.namespaceRulesOf ns = s.namespaceRulesOf ns := by
    have hlisting := h'.namespaceRulesOf ns
    simp only [hsame.namespaceRules] at hlisting
    exact hlisting.unique (h.namespaceRulesOf ns)
  have hentry : s'.permanentEntry? ns dbType = s.permanentEntry? ns dbType :=
    h.permanentEntries.get?_congr h'.permanentEntries (hsame.permanentEntries dbType)
  have hset : s'.ruleSet? ns dbType = s.ruleSet? ns dbType :=
    h.ruleSets.get?_congr h'.ruleSets (hsame.ruleSets dbType)
  have hlabels : s'.labels? ns microservice = s.labels? ns microservice :=
    h.labels.get?_congr h'.labels (hsame.labels microservice)
  refine Store.resolve?_congr ?_ ?_ hentry ?_ ?_
  · simp only [RoutingView.applyingRules, view, hset]
  · simp only [view, hlabels]
  · simp only [view, hrules]
  · simp only [view, funext_iff, physicalsOf, physicalList, hphysicals, implies_true]

end Store.Keeps

namespace Broker

variable {env : Surroundings} {b : Broker} {ns : String} {now : UInt64} {op : Operation}

/-- An operation for other namespaces writes no physical database. -/
theorem physicals_of_elsewhere (h : op.Elsewhere ns) : (b.run env now op).store.physicals = b.store.physicals := by
  have heffect := b.effect env now op
  generalize b.run env now op = b' at heffect
  cases heffect with
  | nothing => rfl
  | bound hok => exact physicals_of_bound (bound_of_getOrCreate hok)
  | dropped hok =>
    obtain ⟨db, -, rfl⟩ := markForDrop_eq_ok hok
    simp only [withStore, putLogical_eq]
  | ruled hsame => exact hsame.physicals
  | grouped => rfl
  | ungrouped => rfl
  | _ => exact h.elim

/-- What an operation for other namespaces, accepted or refused, leaves of resolution for a namespace. -/
theorem resolve?_run {book : RuleBook} (h : b.store.Keeps book) (helsewhere : op.Elsewhere ns) (microservice dbType : String) :
    (b.run env now op).store.view.resolve? ⟨ns, microservice, dbType⟩ =
      b.store.view.resolve? ⟨ns, microservice, dbType⟩ := by
  refine h.resolve?_congr (h.run env now op) ?_ (physicals_of_elsewhere helsewhere) microservice dbType
  split
  · exact book.sameFor_apply now helsewhere
  · exact .refl ns book

/-- So it is with what events for other namespaces leave. -/
theorem resolve?_runAll {book : RuleBook} {later : List Event} (h : b.store.Keeps book)
    (helsewhere : ∀ e ∈ later, e.operation.Elsewhere ns) (microservice dbType : String) :
    (b.runAll env later).store.view.resolve? ⟨ns, microservice, dbType⟩ =
      b.store.view.resolve? ⟨ns, microservice, dbType⟩ := by
  induction later generalizing b book with
  | nil => rfl
  | cons e rest ih =>
    rw [runAll_cons, ih (h.run env e.time e.operation) fun e' he' => helsewhere e' (List.mem_cons_of_mem _ he')]
    exact resolve?_run h (helsewhere e List.mem_cons_self) microservice dbType

end Broker

/-- Namespaces do not interfere. Whatever happened, and whatever operations that name other namespaces follow, resolution for a
namespace answers as before, for every microservice and type. The names are any texts, and one may go on where another ends. -/
theorem routing_of_elsewhere (env : Surroundings) (ns : String) (history later : List Event)
    (helsewhere : ∀ e ∈ later, e.operation.Elsewhere ns) (microservice dbType : String) :
    (replay env (history ++ later)).store.view.resolve? ⟨ns, microservice, dbType⟩ =
      (replay env history).store.view.resolve? ⟨ns, microservice, dbType⟩ := by
  rw [replay_append]
  exact Broker.resolve?_runAll (Keeps.empty.runAll env history) helsewhere microservice dbType

/-- Requests and writes for namespaces beside `team`, one of which goes on where it ends. -/
def sampleElsewhere : List Event := [
  ⟨9, .putNamespaceRule "shop" "main" ⟨"postgresql", 1, "pg"⟩⟩,
  ⟨10, .putPermanentRules [⟨"postgresql", "pg", ["shop", "team-x"]⟩]⟩,
  ⟨11, .deletePermanentEntries "team/postgresql" none⟩,
  ⟨12, .deleteNamespaceRule "" "team/main"⟩,
  ⟨13, .getOrCreate ⟨(Classifier.service "shop" "cart").toMap, "postgresql", none, none⟩⟩,
  ⟨14, .drop "ldb-#1"⟩,
  ⟨15, .putDomain "shop" [⟨"shop-blue", .active, "v2"⟩]⟩]

/-- They leave the permanent entry of the namespace to decide. -/
theorem routing_of_sampleElsewhere :
    (∀ e ∈ sampleElsewhere, e.operation.Elsewhere "team") ∧
      (replay (.numbered 1) (sampleWrites ++ sampleElsewhere)).store.view.resolve? ⟨"team", "cart", "postgresql"⟩ =
        some ⟨"pg", .permanent "team", .empty⟩ := by
  have helsewhere : ∀ e ∈ sampleElsewhere, e.operation.Elsewhere "team" := by
    simp [sampleElsewhere, Operation.Elsewhere]
  have hsame := routing_of_elsewhere (.numbered 1) "team" sampleWrites sampleElsewhere helsewhere "cart" "postgresql"
  refine ⟨helsewhere, hsame.trans ?_⟩
  have hphysicals : (replay (.numbered 1) sampleWrites).store.view.physicals "postgresql" =
      (replay (.numbered 1) sampleWrites).store.physicalList.filter (·.dbType = "postgresql") :=
    List.mergeSort_of_pairwise (by decide +kernel)
  have happlying : (replay (.numbered 1) sampleWrites).store.view.applyingRules ⟨"team", "cart", "postgresql"⟩ = [] :=
    List.mergeSort_of_pairwise (by decide +kernel)
  have hpermanent : (replay (.numbered 1) sampleWrites).store.view.decidePermanent? ⟨"team", "cart", "postgresql"⟩ =
      some ⟨"pg", .permanent "team", .empty⟩ := by
    simp only [RoutingView.decidePermanent?, RoutingView.physical?, hphysicals]
    decide +kernel
  rw [RoutingView.resolve?, RoutingView.decideOnMicroservice?, happlying, hpermanent]
  rfl

end DatabaseBroker
