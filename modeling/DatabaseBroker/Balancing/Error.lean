import DatabaseBroker.BlueGreen.Domains

/-!
# Errors of rules and routing

The causes for which a write of rules or labels, a question about rules, or a request for a database fails, and what is
said of each.
-/

namespace DatabaseBroker

/-- The names that stand inside composite keys. -/
inductive NameKind where
  | ns
  | rule
  | dbType
  | microservice
deriving DecidableEq

/-- A kind of name as messages spell it. -/
def NameKind.text : NameKind → String
  | .ns => "namespace"
  | .rule => "rule name"
  | .dbType => "type"
  | .microservice => "microservice name"

/-- What is wrong with a set of rules on microservices; rules are counted from zero. -/
inductive RuleProblem where
  | emptySet
  | blankType (rule : Nat)
  | duplicateOrder (rule : Nat) (order : UInt32) (dbType : String)
  | noLabels (rule : Nat)
  | blankMicroservice (rule : Nat)
  | unknownTarget (rule : Nat) (id dbType : String)
  | unmatchedLabel (rule : Nat) (label : Label) (dbType : String)
deriving DecidableEq

/-- What is said of a rule that is refused. -/
def RuleProblem.message : RuleProblem → String
  | .emptySet => "rule set is empty"
  | .blankType rule => "rule " ++ toString rule ++ ": type must not be empty"
  | .duplicateOrder rule order dbType =>
    "rule " ++ toString rule ++ ": duplicate order " ++ toString order.toNat ++ " for type " ++ dbType
  | .noLabels rule => "rule " ++ toString rule ++ ": at least one label is required"
  | .blankMicroservice rule => "rule " ++ toString rule ++ ": microservice names must not be empty"
  | .unknownTarget rule id dbType =>
    "rule " ++ toString rule ++ ": physical database " ++ id ++ " of type " ++ dbType ++ " is not registered"
  | .unmatchedLabel rule label dbType =>
    "rule " ++ toString rule ++ ": label " ++ label.text ++ " matches no physical database of type " ++ dbType

/-- What is said of several problems at once. -/
def problemsMessage (problems : List RuleProblem) : String := "; ".intercalate (problems.map RuleProblem.message)

/-- Why a request is not valid. -/
inductive InvalidRouting where
  | blankName (kind : NameKind)
  | slashInName (kind : NameKind) (name : String)
  | targetOfOtherType (id registeredType dbType : String)
  | targetNotRegistered (id : String)
  | badRules (problems : List RuleProblem)
  | noPermanentRules
  | permanentRuleWithoutNamespace (target : String)
  | badLabel (key value : String)
  | noCandidates
  | blankCandidate
  | noTypes
  | pinnedNotRegistered (id dbType : String)
deriving DecidableEq

/-- What is said of a request that is refused. -/
def InvalidRouting.message : InvalidRouting → String
  | .blankName kind => kind.text ++ " must not be empty"
  | .slashInName kind name => kind.text ++ " `" ++ name ++ "` must not contain `/`"
  | .targetOfOtherType id registeredType dbType =>
    "physical database " ++ id ++ " has type " ++ registeredType ++ ", rule targets " ++ dbType
  | .targetNotRegistered id => "physical database " ++ id ++ " is not registered"
  | .badRules problems => problemsMessage problems
  | .noPermanentRules => "no permanent rules given"
  | .permanentRuleWithoutNamespace target => "permanent rule for " ++ target ++ " needs at least one namespace"
  | .badLabel key value => "invalid label `" ++ key ++ "=" ++ value ++ "`"
  | .noCandidates => "no microservices to evaluate"
  | .blankCandidate => "microservice name must not be empty"
  | .noTypes => "no db types given and no rules to infer them from"
  | .pinnedNotRegistered id dbType => "physical database " ++ id ++ " of type " ++ dbType ++ " is not registered"

/-- What was not found. -/
inductive MissingRoute where
  | rule (ns name : String)
  | logicalDatabase (id : String)
  | activeNamespace (reason : BlueGreenError)
deriving DecidableEq

/-- What is said of a record that is not there. -/
def MissingRoute.message : MissingRoute → String
  | .rule ns name => "rule " ++ ns ++ "/" ++ name
  | .logicalDatabase id => "logical database " ++ id
  | .activeNamespace reason => reason.message

/-- Why a request about rules or databases fails. -/
inductive RoutingError where
  | invalid (reason : InvalidRouting)
  | orderTaken (holder : String) (order : UInt32) (dbType : String)
  | claimedTwice (ns dbType first second : String)
  | notFound (what : MissingRoute)
deriving DecidableEq

/-- What is said of a call that failed. -/
def RoutingError.message : RoutingError → String
  | .invalid reason => "validation failed: " ++ reason.message
  | .orderTaken holder order dbType =>
    "rule conflict: rule " ++ holder ++ " already holds order " ++ toString order.toNat ++ " for type " ++ dbType
  | .claimedTwice ns dbType first second =>
    "permanent rule conflict: namespace " ++ ns ++ " type " ++ dbType ++ " claimed by both " ++ first ++ " and " ++ second
  | .notFound what => "not found: " ++ what.message

end DatabaseBroker
