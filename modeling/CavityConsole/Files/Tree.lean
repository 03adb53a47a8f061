/-!
# Files

A path leads through directories to a file. What it leads to is a text, nothing at all, or something
that holds no text, and then it does not matter what that is: a directory, a device, a way that goes
on below a file, or a name that is too long.

A tree knows some places of a machine. Steps without a name and single points stay where they are,
two points lead back, and every step is taken from a directory only.
-/

namespace CavityConsole

/-- What a path leads to. -/
inductive FileState where
  /-- A file with a text. -/
  | text (content : String)
  /-- Nothing. -/
  | missing
  /-- Something from which no text can be read. -/
  | unusable
deriving DecidableEq, Repr

/-- What stands at a place of a tree. -/
inductive FileTree.Entry where
  /-- A file with a text. -/
  | text (content : String)
  /-- A directory. -/
  | directory
  /-- Anything else. -/
  | other
deriving DecidableEq, Repr

/-- What is known of the files of a machine. -/
structure FileTree where
  /-- Places, as the names that lead to them from the root, and what stands there. -/
  entries : List (List String × FileTree.Entry) := []
  /-- The place at which paths start that do not start at the root. -/
  start : List String := []
deriving DecidableEq

namespace FileTree

/-- The bytes of the longest name. -/
def maxNameLength : Nat := 255

/-- The bytes of the longest path. -/
def maxPathLength : Nat := 4095

/-- What stands at a place; above a known place there are directories. -/
def entry? (tree : FileTree) (place : List String) : Option Entry :=
  match tree.entries.lookup place with
  | some entry => some entry
  | none =>
    if place.isEmpty ∨ place = tree.start ∨ tree.entries.any (place.isPrefixOf ·.1) then
      some .directory
    else none

/-- What stands at a place, for a path that ends there. -/
def stateAt (tree : FileTree) (place : List String) : FileState :=
  match tree.entry? place with
  | none => .missing
  | some (.text content) => .text content
  | some _ => .unusable

/-- What steps from a place lead to. -/
def walk (tree : FileTree) : (place : List String) → List String → FileState
  | place, [] => tree.stateAt place
  | place, step :: rest =>
    match tree.entry? place with
    | none => .missing
    | some .directory =>
      if step.isEmpty ∨ step = "." then walk tree place rest
      else if step = ".." then walk tree place.dropLast rest
      else if maxNameLength < step.utf8ByteSize then .unusable
      else walk tree (place ++ [step]) rest
    | some _ => .unusable

/-- What a path leads to. -/
def look (tree : FileTree) (path : String) : FileState :=
  if path.isEmpty then .missing
  else if maxPathLength < path.utf8ByteSize ∨ path.contains '\x00' then .unusable
  else tree.walk (if path.startsWith "/" then [] else tree.start) (path.splitOn "/")

end FileTree

end CavityConsole
