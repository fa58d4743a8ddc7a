import DatabaseBroker.Balancing.Error
import DatabaseBroker.Balancing.View

/-!
# Checking rules on microservices

Every problem of a set of rules is reported, rule by rule: a blank type, an order that an earlier rule of the type has
already, no labels, blank microservice names, a pinned target that is not registered with the type, and for rules without
a pinned target every label that no physical database of the type carries.
-/

namespace DatabaseBroker.RoutingView

/-- Problems of the target of a rule. -/
def targetProblems (v : RoutingView) (i : Nat) (rule : MicroserviceRule) : List RuleProblem :=
  match rule.physicalDatabaseId with
  | some pinned =>
    if (v.physicals rule.dbType).any (·.id = pinned) then [] else [.unknownTarget i pinned rule.dbType]
  | none =>
    (rule.labels.filter fun label => !(v.physicals rule.dbType).any fun p => label.selects p.labels).map fun label =>
      .unmatchedLabel i label rule.dbType

/-- Problems of a rule with a type; `orders` are the types and orders of the rules before it. -/
def ruleProblems (v : RoutingView) (orders : List (String × UInt32)) (i : Nat) (rule : MicroserviceRule) :
    List RuleProblem :=
  (if orders.contains (rule.dbType, rule.order) then [.duplicateOrder i rule.order rule.dbType] else []) ++
    (if rule.labels.isEmpty then [.noLabels i] else []) ++
    (if rule.microservices.any Text.isBlank then [.blankMicroservice i] else []) ++
    v.targetProblems i rule

/-- Problems of the rules from the `i`-th on. -/
def problemsFrom (v : RoutingView) : List (String × UInt32) → Nat → List MicroserviceRule → List RuleProblem
  | _, _, [] => []
  | orders, i, rule :: rest =>
    if Text.isBlank rule.dbType then .blankType i :: v.problemsFrom orders (i + 1) rest
    else v.ruleProblems orders i rule ++ v.problemsFrom ((rule.dbType, rule.order) :: orders) (i + 1) rest

/-- Every problem of a set of rules; a set without problems is valid. -/
def problems (v : RoutingView) (rules : List MicroserviceRule) : List RuleProblem :=
  (if rules.isEmpty then [.emptySet] else []) ++ v.problemsFrom [] 0 rules

end DatabaseBroker.RoutingView
