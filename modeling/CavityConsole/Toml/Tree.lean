import CavityConsole.Json.Basic

/-!
# What a TOML file defines

Every key and every table of a file has a place: the keys that lead to it, with the number of the
element where a key leads into a list of tables. Nothing may be defined twice. A table that only
came about because something was defined within it may still be given its own header, once; a table
that came about by keys with points may be added to by such keys only, and none of these may add to
a table that has a header.

What a file says as a whole is a JSON object: tables are objects and lists of tables are arrays.
-/

namespace CavityConsole.Toml

/-- One step on the way to a place. -/
inductive Step where
  /-- The value of a key. -/
  | key (name : String)
  /-- An element of a list of tables. -/
  | element (index : Nat)
deriving DecidableEq

/-- What stands at a place. -/
inductive Node where
  /-- A value. -/
  | value (value : Json)
  /-- A table that came about because something was defined within it, by keys with points or by a
  header. -/
  | implied (byKey : Bool)
  /-- A table with a header of its own. -/
  | table
  /-- A list of so many tables. -/
  | tables (count : Nat)

/-- All places that are defined, the latest first. -/
structure Tree where
  /-- The places and what stands there. -/
  nodes : List (List Step × Node) := []

namespace Tree

/-- What stands at a place. -/
def node? (tree : Tree) (place : List Step) : Option Node := tree.nodes.lookup place

/-- Puts something at a place. -/
def set (tree : Tree) (place : List Step) (node : Node) : Tree := ⟨(place, node) :: tree.nodes⟩

/-- Follows keys from a place on, through tables that may come about by it. -/
def descend (byKey : Bool) : Tree → List Step → List String → Option (Tree × List Step)
  | tree, place, [] => some (tree, place)
  | tree, place, name :: rest =>
    let next := place ++ [.key name]
    match tree.node? next with
    | none => descend byKey (tree.set next (.implied byKey)) next rest
    | some (.value _) => none
    | some (.tables count) => descend byKey tree (next ++ [.element (count - 1)]) rest
    | some .table => if byKey then none else descend byKey tree next rest
    | some (.implied _) => descend byKey tree next rest

/-- Whether a value may be defined in the table at a place with points in its key, or without. -/
def admitsValue (tree : Tree) (place : List Step) (points : Bool) : Bool :=
  match tree.node? place with
  | some (.implied byKey) => byKey == points
  | _ => !points

/-- Defines a value by its key, seen from the table at a place. -/
def define (tree : Tree) (place : List Step) (path : List String) (name : String)
    (value : Json) : Option Tree := do
  let (tree, parent) ← tree.descend true place path
  if !tree.admitsValue parent (!path.isEmpty) then none
  let target := parent ++ [.key name]
  match tree.node? target with
  | none => return tree.set target (.value value)
  | some _ => none

/-- Opens the table with a header; gives its place. -/
def openTable (tree : Tree) (path : List String) (name : String) : Option (Tree × List Step) := do
  let (tree, parent) ← tree.descend false [] path
  let target := parent ++ [.key name]
  match tree.node? target with
  | none | some (.implied false) => return (tree.set target .table, target)
  | some _ => none

/-- Opens a further table of a list; gives its place. -/
def openElement (tree : Tree) (path : List String) (name : String) :
    Option (Tree × List Step) := do
  let (tree, parent) ← tree.descend false [] path
  let target := parent ++ [.key name]
  match tree.node? target with
  | none => return (tree.set target (.tables 1), target ++ [.element 0])
  | some (.tables count) =>
    return (tree.set target (.tables (count + 1)), target ++ [.element count])
  | some _ => none

end Tree

/-! ## As a value -/

/-- Changes what stands at a place of a value; tables on the way come about by it. -/
def alter (change : Json → Json) : List Step → Json → Json
  | [], value => change value
  | .key name :: rest, value =>
    let members :=
      match value with
      | .object members => members
      | _ => []
    .object (Members.insert name (alter change rest ((members.lookup name).getD .null)) members)
  | .element index :: rest, value =>
    let elements :=
      match value with
      | .array elements => elements
      | _ => []
    .array (elements.modify index (alter change rest))

/-- What a value becomes when something is defined in its place. -/
def Node.laidOver (node : Node) (value : Json) : Json :=
  match node, value with
  | .value given, _ => given
  | .implied _, .object members | .table, .object members => .object members
  | .implied _, _ | .table, _ => .object []
  | .tables count, .array elements =>
    .array (elements ++ List.replicate (count - elements.length) (.object []))
  | .tables count, _ => .array (List.replicate count (.object []))

/-- All that is defined, as the members of one object. -/
def Tree.members (tree : Tree) : Members :=
  let define (entry : List Step × Node) (value : Json) : Json :=
    alter entry.2.laidOver entry.1 value
  match tree.nodes.foldr define (.object []) with
  | .object members => members
  | _ => []

end CavityConsole.Toml
