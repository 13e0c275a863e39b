/-! # Sets of names and tables keyed by names

Both are kept in the order of their names, without repetition, so that two sets with the same members are the same
list and every listing comes out sorted.
-/

namespace CompanionBuild

/-- A set of names: a list that is strictly increasing. -/
abbrev Names := List String

namespace Names

def insert (name : String) : Names → Names
  | [] => [name]
  | other :: rest =>
    if name < other then name :: other :: rest
    else if name = other then other :: rest
    else other :: insert name rest

def ofList (names : List String) : Names :=
  names.foldl (fun set name => insert name set) []

end Names

/-- A table from names to values: a list of entries whose names strictly increase. -/
abbrev Table (α : Type) := List (String × α)

namespace Table

variable {α : Type}

def get? (table : Table α) (name : String) : Option α :=
  match table with
  | [] => none
  | (key, value) :: rest => if key = name then some value else get? rest name

def has (table : Table α) (name : String) : Bool :=
  (table.get? name).isSome

/-- Binds `name` to `value`; an earlier binding of the name is replaced. -/
def put (table : Table α) (name : String) (value : α) : Table α :=
  match table with
  | [] => [(name, value)]
  | (key, old) :: rest =>
    if name < key then (name, value) :: (key, old) :: rest
    else if name = key then (name, value) :: rest
    else (key, old) :: put rest name value

def remove (table : Table α) (name : String) : Table α :=
  table.filter fun entry => entry.1 ≠ name

def names (table : Table α) : List String :=
  table.map (·.1)

/-- Binds every entry in turn, so that the last binding of a name stays. -/
def ofList (entries : List (String × α)) : Table α :=
  entries.foldl (fun table entry => put table entry.1 entry.2) []

end Table

end CompanionBuild
