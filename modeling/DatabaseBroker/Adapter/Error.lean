import DatabaseBroker.Duration

/-!
# Adapters that do not answer

The causes for which the probe of an adapter fails, and what is said of each.
-/

namespace DatabaseBroker

/-- Why an adapter did not answer for itself. -/
inductive AdapterError where
  | invalidAddress (address : String)
  | connect (reason : String)
  | request (reason : String)
  | status (code : Nat)
  | timeout (limit : Duration)
deriving DecidableEq

/-- What is said of a failed probe. -/
def AdapterError.message : AdapterError → String
  | .invalidAddress address => "invalid adapter address `" ++ address ++ "`"
  | .connect reason => "adapter connection failed: " ++ reason
  | .request reason => "adapter request failed: " ++ reason
  | .status code => "adapter answered " ++ toString code
  | .timeout limit => "adapter did not answer within " ++ limit.text

end DatabaseBroker
