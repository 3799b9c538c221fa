/-!
# TOML documents

The values of a TOML document, and the rules by which its lines add up to one table.  Headers open
tables and key-value lines fill them; no table is opened twice, no key is given twice, and only
tables that came into being implicitly may be opened by a later header or passed by a dotted key.
-/

namespace StatusBoard

/-- A TOML value.  A date or time is handed over as a table with one private member. -/
inductive Toml
  | string (s : String)
  | integer (i : Int)
  /-- A floating-point number, as it was written. -/
  | float (spelling : String)
  | boolean (b : Bool)
  | array (items : List Toml)
  | table (members : List (String × Toml))
deriving Inhabited

namespace Toml

/-- A reader of documents: the members of the table that a text stands for, if it is a document. -/
abbrev Parser := String → Option (List (String × Toml))

/-- How a table came into being. -/
inductive Origin
  /-- By the header of a table inside it. -/
  | implicit
  /-- By a header of its own. -/
  | header
  /-- By a dotted key. -/
  | dotted
deriving DecidableEq

/-- What a key of an unfinished document stands for. -/
inductive Node
  | value (v : Toml)
  | table (origin : Origin) (members : List (String × Node))
  /-- An array of tables, of which the last one is still open. -/
  | tables (earlier : List (List (String × Node))) (last : List (String × Node))
deriving Inhabited

/-- The members of an unfinished table. -/
abbrev Members := List (String × Node)

namespace Members

/-- Change what a key stands for, or give it a meaning if it has none yet. -/
def update (key : String) (change : Option Node → Option Node) : Members → Option Members
  | [] => (change none).map fun n => [(key, n)]
  | (k, n) :: rest =>
    if k = key then (change (some n)).map fun n => (k, n) :: rest
    else (update key change rest).map ((k, n) :: ·)

/-- Change the table that a header's path leads to.  Tables on the way come into being if need be,
and of an array of tables the last one is meant. -/
def descend (path : List String) (change : Members → Option Members) (m : Members) :
    Option Members :=
  match path with
  | [] => change m
  | key :: path =>
    m.update key fun
      | none => (descend path change []).map (.table .implicit)
      | some (.table origin m) => (descend path change m).map (.table origin)
      | some (.tables earlier last) => (descend path change last).map (.tables earlier)
      | some (.value _) => none

/-- Give a dotted key a value.  Its table must be one that dotted keys made, or a new one.  On its
way a key may pass tables that came into being implicitly and the last table of an array of
tables. -/
def assign (path : List String) (key : String) (v : Toml) (m : Members) : Option Members :=
  match path with
  | [] => m.update key fun
      | none => some (.value v)
      | some _ => none
  | first :: path =>
    m.update first fun
      | none => (assign path key v []).map (.table .dotted)
      | some (.table .dotted m) => (assign path key v m).map (.table .dotted)
      | some (.table .implicit m) =>
        if path.isEmpty then none else (assign path key v m).map (.table .implicit)
      | some (.tables earlier last) =>
        if path.isEmpty then none else (assign path key v last).map (.tables earlier)
      | some _ => none

/-- Open the table of a header. -/
def openTable (path : List String) (key : String) (m : Members) : Option Members :=
  m.descend path fun m =>
    m.update key fun
      | none => some (.table .header [])
      | some (.table .implicit m) => some (.table .header m)
      | some _ => none

/-- Open one more table of an array of tables. -/
def openNext (path : List String) (key : String) (m : Members) : Option Members :=
  m.descend path fun m =>
    m.update key fun
      | none => some (.tables [] [])
      | some (.tables earlier last) => some (.tables (earlier ++ [last]) [])
      | some _ => none

end Members

mutual

/-- The value of what a key stands for. -/
def ofNode : Node → Toml
  | .value v => v
  | .table _ m => .table (ofMembers m)
  | .tables earlier last => .array (ofTables earlier ++ [.table (ofMembers last)])

/-- The members of a finished table. -/
def ofMembers : List (String × Node) → List (String × Toml)
  | [] => []
  | (k, n) :: rest => (k, ofNode n) :: ofMembers rest

/-- The tables of an array of tables. -/
def ofTables : List (List (String × Node)) → List Toml
  | [] => []
  | m :: rest => .table (ofMembers m) :: ofTables rest

end

end Toml

end StatusBoard
