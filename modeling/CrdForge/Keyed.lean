/-! Lists of named entries.

Documents keep entries in the order they were written and look the first one of a name up; schemas and
annotations keep theirs sorted by name. Both are plain lists, and these are the operations on them. -/
namespace CrdForge.Keyed

variable {α β : Type}

/-- The names, in order. -/
def keys (entries : List (String × α)) : List String := entries.map (·.1)

/-- Whether an entry has the name. -/
def has (key : String) (entries : List (String × α)) : Bool := (entries.lookup key).isSome

/-- Puts an entry into a list sorted by name, in place of the one of that name if there is one. -/
def insert (key : String) (value : α) : List (String × α) → List (String × α)
  | [] => [(key, value)]
  | (k, v) :: rest =>
    if key < k then (key, value) :: (k, v) :: rest
    else if key = k then (key, value) :: rest
    else (k, v) :: insert key value rest

/-- Puts an entry in the place of the one of that name, or at the end. -/
def put (key : String) (value : α) : List (String × α) → List (String × α)
  | [] => [(key, value)]
  | (k, v) :: rest => if key = k then (key, value) :: rest else (k, v) :: put key value rest

/-- Takes the entry of a name out. -/
def erase (key : String) (entries : List (String × α)) : List (String × α) :=
  entries.filter fun entry => entry.1 != key

/-- Sorts entries by name, the last one of each name winning. -/
def sort (entries : List (String × α)) : List (String × α) :=
  entries.foldl (fun sorted entry => insert entry.1 entry.2 sorted) []

/-! ### Names alone -/

/-- Puts a name in front of the first one that is not before it. -/
def insertName (name : String) : List String → List String
  | [] => [name]
  | other :: rest => if other < name then other :: insertName name rest else name :: other :: rest

/-- The names in order, as often as they are given. -/
def ascending (names : List String) : List String := names.foldr insertName []

/-- The names in order, each once. -/
def distinct (names : List String) : List String :=
  names.foldr (fun name sorted => if sorted.contains name then sorted else insertName name sorted) []

end CrdForge.Keyed
