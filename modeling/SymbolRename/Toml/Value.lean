/-!
# TOML documents

A document is a list of statements, each of which opens a table or assigns a value.  The statements
are put together one after the other: no table is opened twice, no key is assigned twice, and a
table belongs to the kind of statement that made it.
-/

namespace SymbolRename

/-- What made a table. -/
inductive TableOrigin where
  /-- A header of its own. -/
  | header
  /-- The header of a table inside it. -/
  | implied
  /-- A key with dots. -/
  | dotted
  /-- Braces; such a table is complete. -/
  | inline
  deriving DecidableEq, Repr

/-- A TOML value.  Numbers, Booleans and dates keep their literal. -/
inductive TomlValue where
  | string (text : String)
  | scalar (literal : List Char)
  | array (items : List TomlValue)
  | table (origin : TableOrigin) (members : List (String × TomlValue))
  /-- An array of tables that have headers of their own.  Only the last is open. -/
  | tables (items : List TomlValue)
  deriving Repr

/-- The members of a table, in order. -/
abbrev TomlTable := List (String × TomlValue)

/-- A line of a document, or several that belong together. -/
inductive TomlStatement where
  /-- `[path]` -/
  | openTable (path : List String)
  /-- `[[path]]` -/
  | openItem (path : List String)
  /-- `path = value` -/
  | assign (path : List String) (value : TomlValue)
  deriving Repr

namespace TomlTable

/-- Changes the value of a key, or gives it one. -/
def modify (key : String) (change : Option TomlValue → Option TomlValue) :
    TomlTable → Option TomlTable
  | [] => (change none).map fun value ↦ [(key, value)]
  | (name, value) :: members =>
    if name = key then (change (some value)).map fun value ↦ (name, value) :: members
    else (modify key change members).map ((name, value) :: ·)

/-- How a step of a path was written. -/
inductive Via where
  /-- In a header. -/
  | header
  /-- In a key, before a dot that is not the last. -/
  | dots
  /-- In a key, before the last dot: this table gets the value. -/
  | owner
  deriving DecidableEq, Repr

/-- What makes a table that does not exist. -/
def Via.origin : Via → TableOrigin
  | .header => .implied
  | _ => .dotted

/-- Whether a step goes on inside a table.  Braces close a table to every path, a header of its own
closes it to keys with dots, and a value is given only to a table that such keys made. -/
def Via.entersTable : Via → TableOrigin → Bool
  | .header, origin => origin != .inline
  | .dots, origin => origin == .implied || origin == .dotted
  | .owner, origin => origin == .dotted

/-- Goes on inside the value of a key.  A table that does not exist is made.  Of an array of tables
the last is entered, whatever made it. -/
def enter (via : Via) (change : TomlTable → Option TomlTable) :
    Option TomlValue → Option TomlValue
  | none => (change []).map (.table via.origin ·)
  | some (.table origin members) =>
    if via.entersTable origin then (change members).map (.table origin ·) else none
  | some (.tables items) =>
    match items.getLast? with
    | some (.table origin members) =>
      if via = .owner then none
      else
        (change members).map fun members ↦ .tables (items.dropLast ++ [.table origin members])
    | _ => none
  | _ => none

/-- Changes what stands at the end of a path. -/
def change (leaf : Option TomlValue → Option TomlValue) :
    List (Via × String) → TomlTable → Option TomlTable
  | [], _ => none
  | [(_, key)], table => modify key leaf table
  | (via, key) :: next :: path, table => modify key (enter via (change leaf (next :: path))) table

def headerSteps (path : List String) : List (Via × String) := path.map (Via.header, ·)

def dotSteps : List String → List (Via × String)
  | [] => []
  | [key] => [(.dots, key)]
  | [table, key] => [(.owner, table), (.dots, key)]
  | key :: path => (.dots, key) :: dotSteps path

/-- A header makes a table, or opens one that was only implied. -/
def openLeaf : Option TomlValue → Option TomlValue
  | none => some (.table .header [])
  | some (.table .implied members) => some (.table .header members)
  | _ => none

/-- A header in double brackets adds a table to an array of such tables. -/
def itemLeaf : Option TomlValue → Option TomlValue
  | none => some (.tables [.table .header []])
  | some (.tables items) => some (.tables (items ++ [.table .header []]))
  | _ => none

/-- A value is assigned once. -/
def assignLeaf (value : TomlValue) : Option TomlValue → Option TomlValue
  | none => some value
  | some _ => none

/-- Assigns a value under a path of keys, inside the table with the given header. -/
def assign (header path : List String) (value : TomlValue) (table : TomlTable) :
    Option TomlTable :=
  change (assignLeaf value) (headerSteps header ++ dotSteps path) table

/-- Carries statements out, the first of them inside the table with the given header. -/
def extend (header : List String) : List TomlStatement → TomlTable → Option TomlTable
  | [], table => some table
  | .openTable path :: rest, table =>
    (change openLeaf (headerSteps path) table).bind (extend path rest)
  | .openItem path :: rest, table =>
    (change itemLeaf (headerSteps path) table).bind (extend path rest)
  | .assign path value :: rest, table => (assign header path value table).bind (extend header rest)

/-- The table that a list of statements describes. -/
def ofStatements? (statements : List TomlStatement) : Option TomlTable :=
  extend [] statements []

/-- The table inside braces. -/
def ofMembers? (members : List (List String × TomlValue)) : Option TomlTable :=
  members.foldlM (fun table member ↦ assign [] member.1 member.2 table) []

end TomlTable
end SymbolRename
