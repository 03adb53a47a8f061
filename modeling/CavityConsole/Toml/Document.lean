import CavityConsole.Toml.Scalar
import CavityConsole.Toml.Tree

/-!
# TOML files

A file is a sequence of lines: a key with a value, the header of a table, a comment, or nothing. A
file that is well formed is one object, which `members?` gives.

Lists and tables within a line may nest up to a fixed depth, and a key has no more parts than that.
-/

namespace CavityConsole.Toml

/-- The text from a comment on, the comment left aside. -/
def skipComment (cs : List Char) : List Char :=
  match cs with
  | '#' :: rest => rest.dropWhile isPlain
  | other => other

/-- The text behind the rest of a line that holds nothing but a comment. -/
def endLine (cs : List Char) : Option (List Char) :=
  match skipComment (skipBlank cs) with
  | [] => some []
  | rest => lineEnd rest

/-- The text from the next character on that is neither white space nor part of a comment; line ends
are passed over. -/
def skipLines : (room : Nat) → List Char → List Char
  | 0, cs => cs
  | room + 1, cs =>
    let rest := skipComment (skipBlank cs)
    match lineEnd rest with
    | some behind => skipLines room behind
    | none => rest

/-! ## Keys -/

/-- Whether a character may stand in a key without quotes. -/
def isKeyChar (c : Char) : Bool := c.isAlphanum || c == '-' || c == '_'

/-- One part of a key. -/
def keyPart (cs : List Char) : Option (String × List Char) :=
  match cs with
  | '"' :: rest => shortBody '"' (cs.length + 1) [] rest
  | '\'' :: rest => shortBody '\'' (cs.length + 1) [] rest
  | _ =>
    let bare := cs.takeWhile isKeyChar
    if bare.isEmpty then none else some (String.ofList bare, cs.dropWhile isKeyChar)

/-- How many lists and tables may stand within one another, and how many parts a key may have. -/
def maxDepth : Nat := 79

/-- The parts of a key in reverse, points between them, and the text from the next character on that
is no white space. -/
def keyParts : (room : Nat) → (done : List String) → List Char →
    Option (List String × List Char)
  | 0, _, _ => none
  | room + 1, done, cs => do
    let (part, rest) ← keyPart (skipBlank cs)
    match skipBlank rest with
    | '.' :: rest => keyParts room (part :: done) rest
    | rest => return (part :: done, rest)

/-- A key: the parts that lead to its table, and the last part. -/
def key (cs : List Char) : Option ((List String × String) × List Char) :=
  match keyParts maxDepth [] cs with
  | some (name :: path, rest) => some ((path.reverse, name), rest)
  | _ => none

/-! ## Values -/

/-- The elements of a list up to its closing bracket, behind those that are done in reverse. -/
def elements (item : List Char → Option (Json × List Char)) :
    (room : Nat) → (done : List Json) → List Char → Option (Json × List Char)
  | 0, _, _ => none
  | room + 1, done, cs =>
    match skipLines (cs.length + 1) cs with
    | ']' :: rest => some (.array done.reverse, rest)
    | rest => do
      let (value, rest) ← item rest
      match skipLines (rest.length + 1) rest with
      | ']' :: rest => return (.array (value :: done).reverse, rest)
      | ',' :: rest => elements item room (value :: done) rest
      | _ => none

/-- The members of a table within a line up to its closing brace, from a key on. -/
def members (item : List Char → Option (Json × List Char)) :
    (room : Nat) → Tree → List Char → Option (Json × List Char)
  | 0, _, _ => none
  | room + 1, tree, cs => do
    let ((path, name), rest) ← key cs
    match rest with
    | '=' :: rest =>
      let (value, rest) ← item (skipBlank rest)
      let tree ← tree.define [] path name value
      match skipBlank rest with
      | '\x7d' :: rest => return (.object tree.members, rest)
      | ',' :: rest => members item room tree rest
      | _ => none
    | _ => none

/-- A value that is neither a list nor a table. -/
def simple (cs : List Char) : Option (Json × List Char) :=
  match cs with
  | '"' :: rest => (string '"' rest).map fun (s, rest) => (.string s, rest)
  | '\'' :: rest => (string '\'' rest).map fun (s, rest) => (.string s, rest)
  | _ => scalar cs

/-- A value within which `depth` lists and tables may be opened. -/
def value : (depth : Nat) → List Char → Option (Json × List Char)
  | 0, cs => simple cs
  | depth + 1, cs =>
    match cs with
    | '[' :: rest => elements (value depth) (rest.length + 1) [] rest
    | '\x7b' :: rest =>
      match skipBlank rest with
      | '\x7d' :: rest => some (.object [], rest)
      | inside => members (value depth) (rest.length + 1) {} inside
    | _ => simple cs

/-! ## Lines -/

/-- A line with a key and a value, in the table at a place. -/
def definition (tree : Tree) (place : List Step) (cs : List Char) : Option (Tree × List Char) := do
  let ((path, name), rest) ← key cs
  match rest with
  | '=' :: rest =>
    let (value, rest) ← value maxDepth (skipBlank rest)
    return (← tree.define place path name value, ← endLine rest)
  | _ => none

/-- The header of a table, from behind its bracket. -/
def header (tree : Tree) (cs : List Char) : Option ((Tree × List Step) × List Char) := do
  match cs with
  | '[' :: rest =>
    let ((path, name), rest) ← key rest
    match rest with
    | ']' :: ']' :: rest => return (← tree.openElement path name, ← endLine rest)
    | _ => none
  | _ =>
    let ((path, name), rest) ← key cs
    match rest with
    | ']' :: rest => return (← tree.openTable path name, ← endLine rest)
    | _ => none

/-- The lines of a file, with what was defined so far and the table that is open. -/
def lines : (room : Nat) → Tree → (place : List Step) → List Char → Option Tree
  | 0, _, _, _ => none
  | room + 1, tree, place, cs =>
    match skipLines (cs.length + 1) cs with
    | [] => some tree
    | '[' :: rest => do
      let ((tree, place), rest) ← header tree rest
      lines room tree place rest
    | rest => do
      let (tree, rest) ← definition tree place rest
      lines room tree place rest

/-- A text without the mark that may stand in front of it. -/
def dropMark (cs : List Char) : List Char :=
  match cs with
  | '\uFEFF' :: rest => rest
  | other => other

/-- What a text says, if it is a well-formed file. -/
def members? (text : String) : Option Members :=
  let cs := dropMark text.toList
  (lines (cs.length + 1) {} [] cs).map Tree.members

end CavityConsole.Toml
