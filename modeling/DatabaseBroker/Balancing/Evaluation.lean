import DatabaseBroker.Balancing.Error
import DatabaseBroker.Balancing.Resolution
import DatabaseBroker.Record.Request

/-!
# Evaluating hypothetical rules

Where the databases of some microservices would go if given rules and labels were stored. Nothing is stored: resolution
runs over an overlay of the view.
-/

namespace DatabaseBroker

/-- Where the database of each microservice and type would go. -/
abbrev Report := KeyMap (KeyMap (Option Decision))

namespace Hypothesis

/-- The types asked about, ascending and each once. -/
def types (h : Hypothesis) : List String :=
  distinctTexts (if h.dbTypes.isEmpty then h.rules.map (·.dbType) else h.dbTypes)

/-- Why a question cannot be answered. -/
def problem? (h : Hypothesis) : Option InvalidRouting :=
  if h.candidates.isEmpty then some .noCandidates
  else if h.candidates.any fun c => Text.isBlank c.name then some .blankCandidate
  else if h.types.isEmpty then some .noTypes
  else none

/-- The labels of the microservices asked about. -/
def labels (h : Hypothesis) : KeyMap Labels := .ofList (h.candidates.map fun c => (c.name, c.labels))

end Hypothesis

namespace RoutingView

/-- The view as the question supposes it for a namespace. -/
def supposing (v : RoutingView) (ns : String) (h : Hypothesis) : RoutingView := v.overlay ns h.rules h.labels

/-- Where the databases of the microservices in question would go. -/
def evaluate (v : RoutingView) (ns : String) (h : Hypothesis) : Except RoutingError Report :=
  match h.problem? with
  | some reason => .error (.invalid reason)
  | none =>
    let view := v.supposing ns h
    .ok (.ofList (h.candidates.map fun c =>
      (c.name, .ofList (h.types.map fun dbType => (dbType, view.resolve? ⟨ns, c.name, dbType⟩)))))

end RoutingView

/-- A decision in a report. -/
def reportedJson (decision : Option Decision) : Json := .ofMembers [
  ("physicalDatabaseId", .ofOption (.string ·.physicalDatabaseId) decision),
  ("applied", .ofOption (·.applied.toJson) decision),
  ("labels", .ofStringMap ((decision.map (·.labels)).getD .empty))]

/-- A report as JSON. -/
def Report.toJson (r : Report) : Json := .ofMap (r.mapValues fun m => .ofMap (m.mapValues reportedJson))

end DatabaseBroker
