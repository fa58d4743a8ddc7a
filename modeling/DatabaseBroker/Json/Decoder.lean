import DatabaseBroker.Json.Reader

/-!
# Decoding documents

A decoder turns a document into a value of a type, or says what is wrong with it. Faults are found in the order of the
text. Nothing is coerced: a whole number is no float, a numeral in quotes is no number.

`Fields` describes a record: its fields in declaration order, which of them may be left out, and how the record is built.
A record is an object of its fields, or an array of them in declaration order. In an object unknown members are skipped
and a repeated field is a fault; in an array fields with a default may be left out at the end.
-/

namespace DatabaseBroker

/-- Turns a document into a value. -/
abbrev Decoder (α : Type) := Document → Except Fault α

namespace Decoder

variable {α : Type}

/-- The fault of a document of the wrong form. -/
def refuse : Document → Except Fault α
  | .broken | .deep _ | .unreadable => .error .malformed
  | _ => .error .mismatch

/-- A text. -/
def string : Decoder String
  | .string s => .ok s
  | d => refuse d

/-- A truth value. -/
def bool : Decoder Bool
  | .bool b => .ok b
  | d => refuse d

/-- A whole number that is not negative. -/
def nat : Decoder Nat
  | .number (.integer n _) => if 0 ≤ n then .ok n.toNat else .error .mismatch
  | d => refuse d

/-- A whole number below 2^64. -/
def uint64 : Decoder UInt64 := fun d => do
  let n ← nat d
  if h : n < UInt64.size then .ok (UInt64.ofNatLT n h) else .error .mismatch

/-- A whole number below 2^32. -/
def uint32 : Decoder UInt32 := fun d => do
  let n ← nat d
  if h : n < UInt32.size then .ok (UInt32.ofNatLT n h) else .error .mismatch

/-- A whole number below 2^16. -/
def uint16 : Decoder UInt16 := fun d => do
  let n ← nat d
  if h : n < UInt16.size then .ok (UInt16.ofNatLT n h) else .error .mismatch

/-- Any value. -/
def value : Decoder Json := fun d =>
  match d.toJson? with
  | some j => .ok j
  | none => .error .malformed

/-- A value or null. -/
def nullable (decode : Decoder α) : Decoder (Option α)
  | .null => .ok none
  | d => (decode d).map some

/-- An array of values. -/
def list (decode : Decoder α) : Decoder (List α)
  | .array items complete => do
    let l ← items.mapM decode
    if complete then .ok l else .error .malformed
  | d => refuse d

/-- An object whose values are all of one type; the last member of a key counts. -/
def map (decode : Decoder α) : Decoder (KeyMap α)
  | .object members complete => do
    let l ← members.mapM fun (k, d) => (decode d).map (k, ·)
    if complete then .ok (KeyMap.ofList l) else .error .malformed
  | d => refuse d

/-- One of a set of names, as a text or as an object whose one member is the name over null. -/
def variant (ofName : String → Option α) : Decoder α
  | .string s => match ofName s with
    | some a => .ok a
    | none => .error .mismatch
  | .object ((name, content) :: rest) complete =>
    match ofName name with
    | none => .error .mismatch
    | some a =>
      match content with
      | .null => if complete ∧ rest.isEmpty then .ok a else .error .malformed
      | .broken | .unreadable => .error .malformed
      | _ => .error .mismatch
  | _ => .error .malformed

/-- Reads past a document. -/
def skip : Decoder Unit := fun d => if d.isWhole then .ok () else .error .malformed

/-- Decodes a text. What follows the document is looked at last. -/
def ofText (decode : Decoder α) (s : String) : Except Fault α := do
  let (d, ends) := Document.read s
  let a ← decode d
  if ends then .ok a else .error .malformed

end Decoder

/-- What stands for a field in a document. -/
inductive Slot where
  | present (d : Document)
  /-- The object has no such member. -/
  | noMember
  /-- The array ends before it. -/
  | noItem

/-- The fields of a record: their names and checks in declaration order, and the record they make. -/
structure Fields (α : Type) where
  checks : List (String × Decoder Unit)
  build : (String → Slot) → Except Fault α

namespace Fields

variable {α β : Type}

/-- Descriptions are joined in declaration order, so the fault of an earlier field is found first. -/
instance : Applicative Fields where
  pure a := ⟨[], fun _ => .ok a⟩
  seq f x := ⟨f.checks ++ (x ()).checks, fun slots => do
    let g ← f.build slots
    let a ← (x ()).build slots
    .ok (g a)⟩

/-- A field that decodes by `decode`; `absent` says what it is when it is left out. -/
def field (name : String) (decode : Decoder α) (absent : Slot → Except Fault α) : Fields α where
  checks := [(name, fun d => (decode d).map fun _ => ())]
  build slots := match slots name with
    | .present d => decode d
    | slot => absent slot

/-- A field that has to be given. -/
def required (name : String) (decode : Decoder α) : Fields α :=
  field name decode fun _ => .error .mismatch

/-- A field that is null or left out of an object when there is no value; an array has to give it. -/
def optional (name : String) (decode : Decoder α) : Fields (Option α) :=
  field name (.nullable decode) fun
    | .noItem => .error .mismatch
    | _ => .ok none

/-- A field with a default, which may not be null. -/
def defaulted (name : String) (decode : Decoder α) (default : α) : Fields α :=
  field name decode fun _ => .ok default

/-- A field that is null or left out when there is no value. -/
def absentable (name : String) (decode : Decoder α) : Fields (Option α) :=
  defaulted name (.nullable decode) none

/-- The first fault among the members of an object, in their order. -/
def checkMembers (checks : List (String × Decoder Unit)) : List String → List (String × Document) → Except Fault Unit
  | _, [] => .ok ()
  | seen, (name, d) :: rest =>
    match checks.find? (·.1 = name) with
    | none => do
      Decoder.skip d
      checkMembers checks seen rest
    | some (_, check) =>
      if seen.contains name then .error .mismatch
      else do
        check d
        checkMembers checks (name :: seen) rest

/-- The first fault among the items of an array. -/
def checkItems (surplus : Bool) : List (String × Decoder Unit) → List Document → Bool → Except Fault Unit
  | [], [], complete => if complete then .ok () else .error .malformed
  | [], _ :: _, _ => if surplus then .ok () else .error .malformed
  | _ :: _, [], complete => if complete then .ok () else .error .malformed
  | (_, check) :: checks, d :: items, complete => do
    check d
    checkItems surplus checks items complete

/-- The member of an object for a field. -/
def memberSlot (members : List (String × Document)) (name : String) : Slot :=
  match members.find? (·.1 = name) with
  | some (_, d) => .present d
  | none => .noMember

/-- The item of an array for a field. -/
def itemSlot (names : List String) (items : List Document) (name : String) : Slot :=
  match (names.zip items).find? (·.1 = name) with
  | some (_, d) => .present d
  | none => .noItem

/-- Decodes a record. With `surplus`, items after the last field are passed over. -/
def decodeWith (surplus : Bool) (fields : Fields α) : Decoder α
  | .object members complete => do
    checkMembers fields.checks [] members
    if complete then fields.build (memberSlot members) else .error .malformed
  | .array items complete => do
    checkItems surplus fields.checks items complete
    fields.build (itemSlot (fields.checks.map (·.1)) items)
  | d => Decoder.refuse d

/-- Decodes a record. -/
def decode (fields : Fields α) : Decoder α := fields.decodeWith false

end Fields

end DatabaseBroker
