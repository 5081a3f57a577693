/-!
# Values and tables of settings documents

A settings document, written in TOML, is a table of named values. Tables nest: a path of names leads
from a table through inner tables to a value. An array of tables stands for its last table wherever
a path leads through it.
-/

set_option autoImplicit false

namespace LexKit.Toml

/-- A value. Dates, times and numbers with a fraction or an exponent are kept as they are written,
and the items of an array with the last one first, since paths lead through that one. -/
inductive Value where
  | text (content : String)
  | integer (number : Int)
  | boolean (truth : Bool)
  | real (literal : String)
  | moment (literal : String)
  | array (items : List Value)
  | table (entries : List (String × Value))
deriving Inhabited

/-- Names with their values, in the order in which they were introduced. -/
abbrev Table := List (String × Value)

/-- The names that lead from a table to one of its parts. -/
abbrev Path := List String

namespace Value

/-- Arrays and inline tables hold other values, and nothing can be added to them later. -/
def isContainer : Value → Bool
  | array _ => true
  | table _ => true
  | _ => false

end Value

namespace Table

def find? (table : Table) (name : String) : Option Value :=
  table.lookup name

/-- The inner table of a name; empty if the name is missing or has another value. -/
def inner (table : Table) (name : String) : Table :=
  match table.find? name with
  | some (.table entries) => entries
  | _ => []

/-- Gives a name that is present a new value, in the old place. -/
def replace (table : Table) (name : String) (value : Value) : Table :=
  table.map fun (present, old) => if present = name then (present, value) else (present, old)

def add? (table : Table) (name : String) (value : Value) : Option Table :=
  if (table.find? name).isSome then none else some (table ++ [(name, value)])

/-- Changes the table at a path. Tables missing on the way are made. With `throughArrays` the path
may lead through arrays of tables. -/
def alter? (throughArrays : Bool) (change : Table → Option Table) : Path → Table → Option Table
  | [], table => change table
  | name :: rest, table =>
      match table.find? name with
      | none => do
          let made ← alter? throughArrays change rest []
          return table ++ [(name, .table made)]
      | some (.table entries) => do
          let changed ← alter? throughArrays change rest entries
          return table.replace name (.table changed)
      | some (.array items) =>
          match throughArrays, items with
          | true, .table entries :: earlier => do
              let changed ← alter? throughArrays change rest entries
              return table.replace name (.array (.table changed :: earlier))
          | _, _ => none
      | some _ => none

/-- Begins a new table at the end of the array of a name; the array is made if it is missing. -/
def beginItem? (table : Table) (name : String) : Option Table :=
  match table.find? name with
  | none => some (table ++ [(name, .array [.table []])])
  | some (.array items) => some (table.replace name (.array (.table [] :: items)))
  | some _ => none

end Table

end LexKit.Toml
