import DatabaseBroker.KeyMap
import DatabaseBroker.Binary64

/-!
# JSON values

The values that records and classifiers are made of. An object lists its members in ascending key order, each key once;
`Json.ofMembers` builds one from members in any order. Whole numbers and floats are different values, `1` and `1.0`
included. `Json.same` is equality of values with numbers compared as numbers, which makes the two float zeros equal;
equality of terms tells them apart.
-/

namespace DatabaseBroker

/-- A number: a whole number in the range of a signed or an unsigned 64-bit word, or a float. -/
inductive JsonNumber where
  | integer (value : Int) (inRange : -0x8000000000000000 ≤ value ∧ value < 0x10000000000000000)
  | float (value : Binary64)
deriving DecidableEq

/-- A JSON value. -/
inductive Json where
  | null
  | bool (value : Bool)
  | number (value : JsonNumber)
  | string (value : String)
  | array (items : List Json)
  | object (members : List (String × Json))

namespace Json

/-! ## Building values -/

/-- Null stands for a value where none is given. -/
instance : Inhabited Json := ⟨null⟩

/-- The object of a map. -/
def ofMap (m : KeyMap Json) : Json := object m.entries

/-- The object of a list of members; of two members with one key the later one counts. -/
def ofMembers (members : List (String × Json)) : Json := ofMap (KeyMap.ofList members)

/-- An unsigned 64-bit number. -/
def ofUInt64 (n : UInt64) : Json :=
  number (.integer n.toNat (by have := n.toNat_lt; omega))

/-- An unsigned 32-bit number. -/
def ofUInt32 (n : UInt32) : Json := ofUInt64 n.toUInt64

/-- An unsigned 16-bit number. -/
def ofUInt16 (n : UInt16) : Json := ofUInt64 n.toUInt64

/-- A count; counts stay far below the range of a word. -/
def ofNat (n : Nat) : Json := ofUInt64 (UInt64.ofNat n)

/-- A value that may be absent, written as null when it is. -/
def ofOption {α : Type} (f : α → Json) : Option α → Json
  | none => null
  | some a => f a

/-- A list of values. -/
def ofList {α : Type} (f : α → Json) (l : List α) : Json := array (l.map f)

/-- A list of texts. -/
def ofStrings (l : List String) : Json := ofList string l

/-- A map of texts. -/
def ofStringMap (m : KeyMap String) : Json := ofMap (m.mapValues string)

/-! ## Reading values -/

/-- A container, as opposed to a scalar. -/
def isContainer : Json → Bool
  | array _ | object _ => true
  | _ => false

/-- The truth value that a value is, if it is one. -/
def asBool? : Json → Option Bool
  | bool b => some b
  | _ => none

/-- The member of an object under a key. -/
def member? (j : Json) (key : String) : Option Json :=
  match j with
  | object members => (members.find? (·.1 = key)).map (·.2)
  | _ => none

/-! ## Sameness -/

end Json

/-- Equality of numbers as numbers: a whole number is never a float, and the two float zeros are equal. -/
def JsonNumber.same : JsonNumber → JsonNumber → Bool
  | .integer a _, .integer b _ => a == b
  | .float a, .float b => a.sameNumber b
  | _, _ => false

namespace Json

mutual

/-- Equality of values, with numbers compared as numbers. -/
def same : Json → Json → Bool
  | null, null => true
  | bool a, bool b => a == b
  | number a, number b => a.same b
  | string a, string b => a == b
  | array a, array b => sameItems a b
  | object a, object b => sameMembers a b
  | _, _ => false

/-- `same` item by item. -/
def sameItems : List Json → List Json → Bool
  | [], [] => true
  | a :: as, b :: bs => same a b && sameItems as bs
  | _, _ => false

/-- `same` member by member, with equal keys. -/
def sameMembers : List (String × Json) → List (String × Json) → Bool
  | [], [] => true
  | (k, a) :: as, (k', b) :: bs => k == k' && same a b && sameMembers as bs
  | _, _ => false

end

/-- `same` for values that may be absent. -/
def sameOption : Option Json → Option Json → Bool
  | none, none => true
  | some a, some b => a.same b
  | _, _ => false

end Json

/-- Two maps are the same when their entries are, key by key. -/
def KeyMap.same (m m' : KeyMap Json) : Bool := Json.sameMembers m.entries m'.entries

end DatabaseBroker
