import DatabaseBroker.Json.Document

/-!
# Settings files as tables

What a settings file says, once its text is read: statements that set a value under a dotted key, open a table, or open
one more element of an array of tables. `Toml.ofStatements` carries them out in order.

A table may be defined once. One that only came to be on the way to another may still be opened by its own header, or
grow by dotted keys, whichever it came to be by; a table between braces never grows.
-/

namespace DatabaseBroker

/-- How a table came to be: by its own header, by the header of a table inside it, by a dotted key, or between braces. -/
inductive Toml.Origin where
  | header
  | implied
  | dotted
  | inline
deriving DecidableEq

/-- A value of a settings file. Floats and moments are told apart from other values and not from each other. -/
inductive Toml where
  | text (value : String)
  | integer (value : Int) (inRange : -0x8000000000000000 ≤ value ∧ value < 0x8000000000000000)
  | float
  | boolean (value : Bool)
  | moment
  | array (items : List Toml)
  | table (origin : Toml.Origin) (members : List (String × Toml))
  /-- An array of tables: the elements before the last one, and the last one, which may grow. -/
  | tables (earlier : List Toml) (last : List (String × Toml))

namespace Toml

/-- A float stands for a value where none is given. -/
instance : Inhabited Toml := ⟨float⟩

/-- The members of a table, in the order in which they were set, each key once. -/
abbrev Members := List (String × Toml)

/-- A key: the tables it leads through, and the key in the last of them. -/
structure DottedKey where
  path : List String
  last : String
deriving DecidableEq

/-- The path of the table that a key names. -/
def DottedKey.whole (k : DottedKey) : List String := k.path ++ [k.last]

/-- A change to a table, which may be refused. -/
abbrev Change := Origin → Members → Option Members

/-- Puts a value in place of that of a key. -/
def replace (members : Members) (key : String) (value : Toml) : Members :=
  members.map fun m => if m.1 = key then (key, value) else m

/-- Changes the table at the end of a path. Tables that are missing on the way come to be: by a dotted key, which may not
lead through a table with a header of its own, or by the header of a table. -/
def alter (dotted : Bool) (change : Change) : List String → Change
  | [], origin, members => change origin members
  | key :: path, _, members =>
    match members.lookup key with
    | none => do
      let made := if dotted then Origin.dotted else Origin.implied
      let inner ← alter dotted change path made []
      some (members ++ [(key, table made inner)])
    | some (table origin inner) =>
      if origin = .inline ∨ (dotted = true ∧ origin = .header) then none
      else do
        let inner ← alter dotted change path origin inner
        some (replace members key (table origin inner))
    | some (tables earlier last) => do
      let last ← alter dotted change path .header last
      some (replace members key (tables earlier last))
    | some _ => none

/-- Sets a value under a key that is not there yet, in a table that dotted keys made if one leads to it. -/
def set (key : DottedKey) (value : Toml) : Change :=
  alter true (fun origin members =>
    if key.path ≠ [] ∧ origin ≠ .dotted then none
    else if (members.lookup key.last).isSome then none
    else some (members ++ [(key.last, value)])) key.path

/-- Opens a table: a new one, or one that other headers led through. -/
def openTable (key : DottedKey) : Change :=
  alter false (fun _ members =>
    match members.lookup key.last with
    | none => some (members ++ [(key.last, table .header [])])
    | some (table .implied inner) => some (replace members key.last (table .header inner))
    | some _ => none) key.path

/-- Opens one more element of an array of tables. -/
def openElement (key : DottedKey) : Change :=
  alter false (fun _ members =>
    match members.lookup key.last with
    | none => some (members ++ [(key.last, tables [] [])])
    | some (tables earlier last) =>
      some (replace members key.last (tables (earlier ++ [table .header last]) []))
    | some _ => none) key.path

/-- The table of the pairs between braces. -/
def ofPairs (pairs : List (DottedKey × Toml)) : Option Toml := do
  let members ← pairs.foldlM (fun members (key, value) => set key value .inline members) []
  some (table .inline members)

/-- A statement of a settings file. -/
inductive Statement where
  | pair (key : DottedKey) (value : Toml)
  | header (key : DottedKey)
  | element (key : DottedKey)

/-- A file up to a place: the path of the table that is open, and the table of the whole file. -/
structure Open where
  path : List String
  root : Members

/-- Carries out a statement. -/
def Statement.apply (file : Open) : Statement → Option Open
  | .pair key value => do
    let root ← alter false (set key value) file.path .header file.root
    some { file with root := root }
  | .header key => do
    let root ← openTable key .header file.root
    some ⟨key.whole, root⟩
  | .element key => do
    let root ← openElement key .header file.root
    some ⟨key.whole, root⟩

/-- The table of a file. -/
def ofStatements (statements : List Statement) : Option Toml := do
  let file ← statements.foldlM Statement.apply ⟨[], []⟩
  some (table .header file.root)

mutual

/-- The document of a value. A float stands for no setting, and a moment is an object without any. -/
def document : Toml → Document
  | text s => .string s
  | integer n h => .number (.integer n (by omega))
  | float => .unreadable
  | boolean b => .bool b
  | moment => .object [("moment", .null)] true
  | array items => .array (documents items) true
  | table _ members => .object (memberDocuments members) true
  | tables earlier last => .array (documents earlier ++ [.object (memberDocuments last) true]) true

/-- The documents of items. -/
def documents : List Toml → List Document
  | [] => []
  | t :: rest => t.document :: documents rest

/-- The documents of named values. -/
def memberDocuments : Members → List (String × Document)
  | [] => []
  | (k, t) :: rest => (k, t.document) :: memberDocuments rest

end

end Toml

end DatabaseBroker
