import DatabaseBroker.KeyMap
import DatabaseBroker.Text.Blank

/-!
# Labels

Physical databases and microservices carry labels, a map from names to values. A rule selects by a label written
`key=value`. `Label.parse?` splits at the first equals sign and trims both parts; a blank part and a second equals sign
are refused.
-/

namespace DatabaseBroker

/-- The labels that something carries. -/
abbrev Labels := KeyMap String

/-- One `key=value` pair to select by. -/
structure Label where
  key : String
  value : String
deriving DecidableEq

namespace Label

/-- Whether labels hold this very pair. -/
def selects (l : Label) (labels : Labels) : Bool := labels.get? l.key == some l.value

/-- The label that a text stands for. -/
def parse? (s : String) : Option Label :=
  match s.toList.span (· != '=') with
  | (key, '=' :: value) =>
    let key := Text.trimChars key
    let value := Text.trimChars value
    if key.isEmpty || value.isEmpty || value.contains '=' then none
    else some ⟨String.ofList key, String.ofList value⟩
  | _ => none

/-- The label as a text. -/
def text (l : Label) : String := l.key ++ "=" ++ l.value

/-- What is said of a text that is no label. -/
def invalidMessage (raw : String) : String := "invalid label `" ++ raw ++ "`: expected `key=value`"

end Label

end DatabaseBroker
