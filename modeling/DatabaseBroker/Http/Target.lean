import DatabaseBroker.Text.Cut
import DatabaseBroker.Text.Hex
import DatabaseBroker.Text.Utf8

/-!
# Request targets

The target of a request is a path and, after a question mark, a query. A segment of the path is percent-decoded and must
be UTF-8 then; a plus sign is a plus sign. The query holds fields joined by ampersands; in it a plus sign is a blank, and
what is no UTF-8 is replaced.
-/

namespace DatabaseBroker.Http

/-- Puts bytes in place of their percent-encoded forms. -/
def percentDecode : List Nat → List Nat
  | 0x25 :: a :: b :: rest =>
    match Text.Hex.value? (Char.ofNat a), Text.Hex.value? (Char.ofNat b) with
    | some a, some b => (a * 16 + b) :: percentDecode rest
    | _, _ => 0x25 :: percentDecode (a :: b :: rest)
  | c :: rest => c :: percentDecode rest
  | [] => []

/-- The text of a segment of a path. -/
def decodeSegment? (s : String) : Option String := Text.Utf8.text? (percentDecode (Text.Utf8.bytes s))

/-- The text of the name or the content of a field. -/
def decodeField (cs : List Char) : String :=
  let blanks := String.ofList (cs.map fun c => if c = '+' then ' ' else c)
  Text.Utf8.lossyText (percentDecode (Text.Utf8.bytes blanks))

/-- The fields of a query, in order. -/
def queryFields (query : List Char) : List (String × String) :=
  ((Text.cutAt '&' query).filter (!·.isEmpty)).map fun field =>
    let (name, content) := field.span (· != '=')
    (decodeField name, decodeField (content.drop 1))

/-- A path in segments, and the fields of the query. -/
structure Target where
  segments : List String
  query : List (String × String)
deriving DecidableEq

namespace Target

/-- The target that a text stands for; a fragment is dropped. -/
def ofText (s : String) : Target :=
  let cs := s.toList.takeWhile (· != '#')
  let (path, query) := cs.span (· != '?')
  ⟨(Text.cutAt '/' path).map String.ofList, queryFields (query.drop 1)⟩

end Target

end DatabaseBroker.Http
