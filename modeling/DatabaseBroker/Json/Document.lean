import DatabaseBroker.Json

/-!
# Documents: JSON text as written

A document is what a reader finds in a text before anything is decoded: members in the order of the text, repeated keys
included, and the place where the text stops being JSON. A fault of the text and a fault of the content are told apart
by which comes first, so the broken place is kept in the tree: a container that is not `complete` ends there, and
`broken` stands where no value could be read.

A container below the nesting limit is kept as `deep` without its items, and a token that has the form of a value but
denotes none (a number past the greatest float, a text with half of a surrogate pair) as `unreadable`: both may be
skipped and neither may be decoded.
-/

namespace DatabaseBroker

/-- JSON text as written. -/
inductive Document where
  | null
  | bool (value : Bool)
  | number (value : JsonNumber)
  | string (value : String)
  | unreadable
  | array (items : List Document) (complete : Bool)
  | object (members : List (String × Document)) (complete : Bool)
  | deep (complete : Bool)
  | broken

/-- Why a text is not the value asked for: it is no JSON up to the place where decoding got to, or it is JSON of another
form. -/
inductive Fault where
  | malformed
  | mismatch
deriving DecidableEq

namespace Document

/-- Null stands for a document where none is given. -/
instance : Inhabited Document := ⟨null⟩

mutual

/-- The document of a value. -/
def ofJson : Json → Document
  | .null => null
  | .bool b => bool b
  | .number n => number n
  | .string s => string s
  | .array items => array (ofItems items) true
  | .object members => object (ofMembers members) true

/-- The documents of values. -/
def ofItems : List Json → List Document
  | [] => []
  | j :: rest => ofJson j :: ofItems rest

/-- The documents of named values. -/
def ofMembers : List (String × Json) → List (String × Document)
  | [] => []
  | (k, j) :: rest => (k, ofJson j) :: ofMembers rest

end

mutual

/-- Whether a document can be read past: nothing in it is broken. -/
def isWhole : Document → Bool
  | null | bool _ | number _ | string _ | unreadable => true
  | array items complete => areWhole items && complete
  | object members complete => membersAreWhole members && complete
  | deep complete => complete
  | broken => false

/-- Whether every item can be read past. -/
def areWhole : List Document → Bool
  | [] => true
  | d :: rest => d.isWhole && areWhole rest

/-- Whether every member can be read past. -/
def membersAreWhole : List (String × Document) → Bool
  | [] => true
  | (_, d) :: rest => d.isWhole && membersAreWhole rest

end

mutual

/-- The value that a document denotes. In an object the last member of a key counts. -/
def toJson? : Document → Option Json
  | null => some .null
  | bool b => some (.bool b)
  | number n => some (.number n)
  | string s => some (.string s)
  | array items true => (itemsToJson? items).map .array
  | object members true => (membersToJson? members).map Json.ofMembers
  | _ => none

/-- The values that items denote, if each denotes one. -/
def itemsToJson? : List Document → Option (List Json)
  | [] => some []
  | d :: rest => do
    let j ← d.toJson?
    let js ← itemsToJson? rest
    pure (j :: js)

/-- The values that members denote, if each denotes one. -/
def membersToJson? : List (String × Document) → Option (List (String × Json))
  | [] => some []
  | (k, d) :: rest => do
    let j ← d.toJson?
    let js ← membersToJson? rest
    pure ((k, j) :: js)

end

end Document

end DatabaseBroker
