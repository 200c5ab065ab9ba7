import RegisterBank.Toml.Value

/-!
# Trees of TOML documents

While a document is read, its tables are kept as a tree that remembers how each of them came about,
because that decides what may still be added: a table may be opened by one header only; a header may
reach into tables that earlier headers implied; a dotted key may reach only into tables that dotted
keys made.
-/

namespace RegisterBank.Toml

/-- How a table came about. -/
inductive Origin where
  /-- By a header of its own. -/
  | header
  /-- By a header for a table inside it. -/
  | implied
  /-- By a dotted key. -/
  | dotted
  deriving DecidableEq, Repr

/-- A node of the tree: a finished value, a table, or an array of tables. -/
inductive Node where
  | value (v : Value)
  | table (origin : Origin) (entries : List (String × Node))
  | tables (items : List (List (String × Node)))

namespace Node

abbrev Entries := List (String × Node)

def at? (key : String) : Entries → Option Node
  | [] => none
  | (name, node) :: rest => if name = key then some node else at? key rest

/-- Puts a node at a key, in the place of the one that is there. -/
def put (key : String) (node : Node) : Entries → Entries
  | [] => [(key, node)]
  | (name, old) :: rest =>
    if name = key then (key, node) :: rest else (name, old) :: put key node rest

def changeLast (change : Entries → Option Entries) : List Entries → Option (List Entries)
  | [] => none
  | [last] => (change last).map fun last => [last]
  | first :: rest => (changeLast change rest).map (first :: ·)

/-- Changes the table at the path of a header. Tables on the way that do not exist are implied by
the header. -/
def within (path : List String) (change : Entries → Option Entries) (entries : Entries) :
    Option Entries :=
  match path with
  | [] => change entries
  | key :: path =>
    match at? key entries with
    | none => (within path change []).map fun inner => put key (.table .implied inner) entries
    | some (.table origin inner) =>
      (within path change inner).map fun inner => put key (.table origin inner) entries
    | some (.tables items) =>
      (changeLast (within path change) items).map fun items => put key (.tables items) entries
    | some (.value _) => none

/-- Puts a new value at a key. -/
def add (key : String) (v : Value) (entries : Entries) : Option Entries :=
  if (at? key entries).isSome then none else some (put key (.value v) entries)

/-- Puts a new value at the path of a dotted key. The path does not reach into a table with a header
of its own, and the table that takes the value was made by a dotted key. -/
def assign (path : List String) (v : Value) (entries : Entries) : Option Entries :=
  match path with
  | [] => none
  | [key] => add key v entries
  | key :: path =>
    match at? key entries with
    | none => (assign path v []).map fun inner => put key (.table .dotted inner) entries
    | some (.table .dotted inner) =>
      (assign path v inner).map fun inner => put key (.table .dotted inner) entries
    | some (.table .implied inner) =>
      if path.length ≤ 1 then none
      else (assign path v inner).map fun inner => put key (.table .implied inner) entries
    | some (.tables items) =>
      if path.length ≤ 1 then none
      else (changeLast (assign path v) items).map fun items => put key (.tables items) entries
    | some _ => none

def openTable (path : List String) (entries : Entries) : Option Entries :=
  match path.getLast? with
  | none => none
  | some key =>
    within path.dropLast
      (fun inner =>
        match at? key inner with
        | none => some (put key (.table .header []) inner)
        | some (.table .implied known) => some (put key (.table .header known) inner)
        | some _ => none)
      entries

/-- Opens the next table of an array of tables. -/
def openItem (path : List String) (entries : Entries) : Option Entries :=
  match path.getLast? with
  | none => none
  | some key =>
    within path.dropLast
      (fun inner =>
        match at? key inner with
        | none => some (put key (.tables [[]]) inner)
        | some (.tables items) => some (put key (.tables (items ++ [[]])) inner)
        | some _ => none)
      entries

mutual

def toValue : Node → Value
  | .value v => v
  | .table _ entries => .table (values entries)
  | .tables items => .array (tableValues items)

/-- The values of the entries of a table. -/
def values : List (String × Node) → List (String × Value)
  | [] => []
  | (key, node) :: rest => (key, toValue node) :: values rest

/-- The values of an array of tables. -/
def tableValues : List (List (String × Node)) → List Value
  | [] => []
  | entries :: rest => .table (values entries) :: tableValues rest

end

end Node

end RegisterBank.Toml
