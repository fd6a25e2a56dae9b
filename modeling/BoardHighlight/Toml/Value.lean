/-!
# Values of TOML

A document is a table. Its tables come about in different ways, and how a table came about decides
what may still be added to it: a section that has been opened, and a table written between braces,
are closed to dotted keys, and a table that dotted keys made is closed to section headers.
-/

namespace BoardHighlight
namespace Toml
set_option autoImplicit false

abbrev Key := List Char

/-- How a table came about: by its own header, on the way to a header further down, by dotted
keys, or between braces. -/
inductive Form where
  | opened
  | passed
  | dotted
  | braced
  deriving DecidableEq

/-- Numbers and dates are kept as they are written. -/
inductive Value where
  | string (text : List Char)
  | boolean (value : Bool)
  | number (literal : List Char)
  | date (literal : List Char)
  | array (items : List Value)
  /-- The tables of a repeated header. -/
  | series (tables : List Value)
  | table (form : Form) (fields : List (Key × Value))

/-- A table that is being filled. -/
structure Table where
  form : Form
  fields : List (Key × Value)

namespace Table

def toValue (table : Table) : Value := .table table.form table.fields

/-- The fields with the value of one key changed; the key is there. -/
def setField (key : Key) (value : Value) : List (Key × Value) → List (Key × Value)
  | [] => []
  | (name, old) :: rest =>
    if name == key then (name, value) :: rest else (name, old) :: setField key value rest

def set (table : Table) (key : Key) (value : Value) : Table :=
  { table with fields := setField key value table.fields }

/-- Adds a field whose key is new. -/
def add (table : Table) (key : Key) (value : Value) : Table :=
  { table with fields := table.fields ++ [(key, value)] }

/-- Whether a walk may pass through a table. Dotted keys stay out of opened sections. -/
def passable (dotted : Bool) : Form → Bool
  | .braced => false
  | .opened => !dotted
  | _ => true

/-- Changes the table at the end of a path, and makes the tables that are missing on the way. Of
the tables of a repeated header the last one is meant. -/
def update (dotted : Bool) (change : Table → Option Table) : List Key → Table → Option Table
  | [], table => change table
  | key :: path, table =>
    match table.fields.lookup key with
    | none => do
      let made ← update dotted change path ⟨if dotted then .dotted else .passed, []⟩
      some (table.add key made.toValue)
    | some (.table form fields) =>
      if passable dotted form then do
        let changed ← update dotted change path ⟨form, fields⟩
        some (table.set key changed.toValue)
      else none
    | some (.series tables) =>
      match tables.getLast? with
      | some (.table form fields) => do
        let changed ← update dotted change path ⟨form, fields⟩
        some (table.set key (.series (tables.dropLast ++ [changed.toValue])))
      | _ => none
    | some _ => none

/-- Gives a key that is new to a table a value. -/
def assign (key : Key) (value : Value) (table : Table) : Option Table :=
  match table.fields.lookup key with
  | none => some (table.add key value)
  | some _ => none

/-- Gives a dotted key a value; what the front of the key leads to must be a table that dotted
keys made. -/
def assignDotted (front : List Key) (key : Key) (value : Value) (table : Table) : Option Table :=
  if front.isEmpty then assign key value table
  else update true (fun inner => if inner.form = .dotted then assign key value inner else none)
    front table

/-- Opens a section: its key is new, or was only passed on the way to another header. -/
def openSection (key : Key) (table : Table) : Option Table :=
  match table.fields.lookup key with
  | none => some (table.add key (.table .opened []))
  | some (.table .passed fields) => some (table.set key (.table .opened fields))
  | some _ => none

/-- Opens one more table of a repeated header. -/
def openNext (key : Key) (table : Table) : Option Table :=
  match table.fields.lookup key with
  | none => some (table.add key (.series [.table .opened []]))
  | some (.series tables) => some (table.set key (.series (tables ++ [.table .opened []])))
  | some _ => none

end Table

/-- What a line of a document says: a key has a value, a section begins, or one more table of a
repeated header begins. The last key of a path stands apart. -/
inductive Statement where
  | assign (front : List Key) (key : Key) (value : Value)
  | openSection (front : List Key) (key : Key)
  | openNext (front : List Key) (key : Key)

/-- A document that is being read: its table, and the path of the section that is open. -/
structure Draft where
  root : Table
  path : List Key

namespace Draft

def empty : Draft := ⟨⟨.opened, []⟩, []⟩

def apply (draft : Draft) : Statement → Option Draft
  | .assign front key value => do
    let root ← draft.root.update false (·.assignDotted front key value) draft.path
    some { draft with root }
  | .openSection front key => do
    let root ← draft.root.update false (·.openSection key) front
    some ⟨root, front ++ [key]⟩
  | .openNext front key => do
    let root ← draft.root.update false (·.openNext key) front
    some ⟨root, front ++ [key]⟩

end Draft

/-- The table that statements describe, if no two of them disagree. -/
def Table.ofStatements? (statements : List Statement) : Option Table :=
  (statements.foldlM Draft.apply Draft.empty).map (·.root)

end Toml
end BoardHighlight
