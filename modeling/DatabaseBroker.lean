import DatabaseBroker.Adapter.Probe
import DatabaseBroker.Classifier.Legacy
import DatabaseBroker.CommandLine
import DatabaseBroker.ControlPlane
import DatabaseBroker.Http.Route
import DatabaseBroker.Identifier
import DatabaseBroker.Main
import DatabaseBroker.Store.Table
import DatabaseBroker.Proofs.History
import DatabaseBroker.Proofs.Store.Outcomes
import DatabaseBroker.Proofs.Store.Tabled
import DatabaseBroker.Proofs.Migration.Coverage
import DatabaseBroker.Proofs.Migration.Steps
import DatabaseBroker.Proofs.Migration.Rounds
import DatabaseBroker.Proofs.Naming
import DatabaseBroker.Proofs.Effects
import DatabaseBroker.Proofs.Migration.Consistency
import DatabaseBroker.Proofs.Json.Quotation
import DatabaseBroker.Proofs.Binary64.Shortest
import DatabaseBroker.Proofs.Json.Numerals
import DatabaseBroker.Proofs.Classifier.Key
import DatabaseBroker.Proofs.Binding.Addresses
import DatabaseBroker.Proofs.Binding.Index
import DatabaseBroker.Proofs.Binding.Permanence
import DatabaseBroker.Proofs.Json.Sameness
import DatabaseBroker.Proofs.Migration.Recording
import DatabaseBroker.Proofs.Migration.Acknowledgement
import DatabaseBroker.Proofs.Registration.AdapterAddresses
import DatabaseBroker.Proofs.Balancing.Precedence
import DatabaseBroker.Proofs.Balancing.Supposition
import DatabaseBroker.Proofs.Binding.Legacy
import DatabaseBroker.Proofs.Classifier.RoundTrip
import DatabaseBroker.Proofs.Binding.Upgrade
import DatabaseBroker.Proofs.Store.Scans
import DatabaseBroker.Proofs.Store.ByteScans
import DatabaseBroker.Proofs.Migration.Fates
import DatabaseBroker.Proofs.Registration.Decisions
import DatabaseBroker.Proofs.Migration.Portions
import DatabaseBroker.Proofs.Registration.Answers
import DatabaseBroker.Proofs.Registration.Meanwhile
import DatabaseBroker.Proofs.Registration.Convergence
import DatabaseBroker.Proofs.Store.Registry
import DatabaseBroker.Proofs.Binding.References
import DatabaseBroker.Proofs.Registration.Globals
import DatabaseBroker.Proofs.Migration.Awaiting
import DatabaseBroker.Proofs.Registration.Necessity
import DatabaseBroker.Proofs.Http.Histories
import DatabaseBroker.Proofs.Http.Refusals
import DatabaseBroker.Proofs.Http.RuleValidation
import DatabaseBroker.Proofs.Http.PathTypes
import DatabaseBroker.Proofs.Binding.Agreement
import DatabaseBroker.Proofs.Balancing.PairKeys
import DatabaseBroker.Proofs.Balancing.RuleWrites
import DatabaseBroker.Proofs.Balancing.RuleBook
import DatabaseBroker.Proofs.Balancing.Isolation
import DatabaseBroker.Proofs.Balancing.PermanentRules
import DatabaseBroker.Proofs.Balancing.RuleOrders
import DatabaseBroker.Proofs.Balancing.AcceptedRules
import DatabaseBroker.Proofs.Balancing.RuleLists
import DatabaseBroker.Proofs.BlueGreen.Flatness
import DatabaseBroker.Proofs.BlueGreen.Versions
import DatabaseBroker.Proofs.BlueGreen.OwnBindings
import DatabaseBroker.Proofs.KeyMap
import DatabaseBroker.Proofs.Label
import DatabaseBroker.Proofs.Binding.Refusals
import DatabaseBroker.Proofs.Binding.Grammar
import DatabaseBroker.Proofs.Registration.Declarations
import DatabaseBroker.Proofs.Binary64.Rounding
import DatabaseBroker.Proofs.Binary64.Readable
import DatabaseBroker.Proofs.Json.Documents
import DatabaseBroker.Proofs.Json.Nesting
import DatabaseBroker.Proofs.Json.Fields
import DatabaseBroker.Proofs.Json.NumberTexts
import DatabaseBroker.Proofs.Json.Reading
import DatabaseBroker.Proofs.Record.Kept
import DatabaseBroker.Proofs.Record.RoundTrip
import DatabaseBroker.Proofs.Classifier.Lifting
import DatabaseBroker.Proofs.Json.Numbers
import DatabaseBroker.Proofs.Classifier.Sameness
import DatabaseBroker.Proofs.Json.Zeros
import DatabaseBroker.Proofs.Balancing.LabelTexts
import DatabaseBroker.Proofs.Text.Ends
import DatabaseBroker.Proofs.Text.Utf8
import DatabaseBroker.Proofs.Duration
import DatabaseBroker.Proofs.Toml.Quotation
import DatabaseBroker.Proofs.Toml.Lines
import DatabaseBroker.Proofs.Toml.Sections
import DatabaseBroker.Proofs.Settings.File
import DatabaseBroker.Proofs.Settings.Printed
