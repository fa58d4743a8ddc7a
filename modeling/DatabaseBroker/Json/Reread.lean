import DatabaseBroker.Json.Printer
import DatabaseBroker.Json.Reader

/-!
# Values read back

Records are kept as text and read on every use, so what is kept of a value is what its own text denotes. Only floats may
change: the shortest decimal of a float is read with a significand and a power of ten that are each rounded, which may
lead to a neighbour. A value is `Steady` when it reads back as itself; a value without floats always is.
-/

namespace DatabaseBroker

/-- The number that its own text denotes. -/
def JsonNumber.reread : JsonNumber → JsonNumber
  | .integer n h => .integer n h
  | .float x =>
    match (Document.readValue 1 0 (Json.floatText x)).1 with
    | .number n => n
    | _ => .float x

namespace Json

mutual

/-- The value that its own text denotes. -/
def reread : Json → Json
  | null => null
  | bool b => bool b
  | number n => number n.reread
  | string s => string s
  | array items => array (rereadItems items)
  | object members => object (rereadMembers members)

/-- What the texts of values denote. -/
def rereadItems : List Json → List Json
  | [] => []
  | j :: rest => j.reread :: rereadItems rest

/-- What the texts of named values denote. -/
def rereadMembers : List (String × Json) → List (String × Json)
  | [] => []
  | (k, j) :: rest => (k, j.reread) :: rereadMembers rest

end

/-- A value that reads back as itself. -/
def Steady (j : Json) : Prop := j.reread = j

end Json

end DatabaseBroker
