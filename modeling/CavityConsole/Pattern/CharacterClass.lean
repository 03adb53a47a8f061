import CavityConsole.Pattern.Basic

/-!
# Classes of characters in patterns

A class stands between brackets: single characters, ranges of them, named classes and further
classes, and between these the marks of intersection and difference. A caret at its beginning
negates it, dashes at its beginning stand for themselves, and so does a closing bracket that would
leave it empty.
-/

namespace CavityConsole.Pattern

/-- The classes with a name. -/
def classNames : List String :=
  ["alnum", "alpha", "ascii", "blank", "cntrl", "digit", "graph", "lower", "print", "punct",
   "space", "upper", "word", "xdigit"]

/-- A named class from behind its bracket: whether it is negated. -/
def namedClass (cs : List Char) : Option (Bool × List Char) :=
  match cs with
  | ':' :: rest =>
    let isNegated := rest.head? = some '^'
    let rest := if isNegated then rest.drop 1 else rest
    match rest.dropWhile (· != ':') with
    | ':' :: ']' :: behind =>
      if classNames.contains (String.ofList (rest.takeWhile (· != ':'))) then
        some (isNegated, behind)
      else none
    | _ => none
  | _ => none

/-- A class from behind its bracket, up to where its closing bracket may stand: whether it is
negated. -/
def classStart (modes : Modes) (cs : List Char) : Bool × List Char :=
  let cs := next modes cs
  let isNegated := cs.head? = some '^'
  let cs := if isNegated then next modes (cs.drop 1) else cs
  let isDash (c : Char) : Bool := c == '-' || (modes.isSpaced && Text.isBlank c)
  match cs with
  | ']' :: rest => (isNegated, rest)
  | '-' :: rest => (isNegated, rest.dropWhile isDash)
  | other => (isNegated, other)

/-- A single character or class within a class. -/
def classItem (modes : Modes) (cs : List Char) : Option (Escape × List Char) :=
  match cs with
  | [] => none
  | '\\' :: rest => escape modes rest
  | c :: rest => some (.character c false, rest)

/-- Whether something may stand in a class. -/
def admitsInClass (modes : Modes) : Escape → Bool
  | .character c _ => modes.describesCharacters || c.toNat < 0x80
  | .class isNegated => !modes.describesCharacters && !isNegated
  | .border | .ending => false

/-- Whether two things may be the ends of a range. -/
def admitsRange (modes : Modes) (first last : Escape) : Bool :=
  match first, last with
  | .character a _, .character b _ =>
    a ≤ b && admitsInClass modes first && admitsInClass modes last
  | _, _ => false

/-- One item of a class, or a range. -/
def classRange (modes : Modes) (cs : List Char) : Option (List Char) := do
  let (first, rest) ← classItem modes cs
  match next modes rest with
  | '-' :: behind =>
    let following := next modes behind
    if following.head? = some ']' ∨ following.head? = some '-' then
      if admitsInClass modes first then return '-' :: behind else none
    let (last, rest) ← classItem modes following
    if admitsRange modes first last then return rest else none
  | rest => if admitsInClass modes first then return rest else none

/-- The rest of a class from behind its beginning, within which `depth` classes are open; the text
behind it. -/
def classRest (modes : Modes) : (room depth : Nat) → List Char → Option (List Char)
  | 0, _, _ => none
  | room + 1, depth, cs =>
    match next modes cs with
    | [] => none
    | '&' :: '&' :: rest | '-' :: '-' :: rest | '~' :: '~' :: rest =>
      classRest modes room depth rest
    | ']' :: rest => if depth = 0 then some rest else classRest modes room (depth - 1) rest
    | '[' :: rest =>
      match namedClass rest with
      | some (isNegated, rest) =>
        if isNegated ∧ !modes.describesCharacters then none else classRest modes room depth rest
      | none =>
        let (isNegated, rest) := classStart modes rest
        if isNegated ∧ !modes.describesCharacters then none
        else classRest modes room (depth + 1) rest
    | other => (classRange modes other).bind (classRest modes room depth)

/-- The text behind a class, from behind its bracket. -/
def characterClass (modes : Modes) (cs : List Char) : Option (List Char) :=
  let (isNegated, rest) := classStart modes cs
  if modes.describesCharacters ∧ modes.ignoresCase then none
  else if isNegated ∧ !modes.describesCharacters then none
  else classRest modes (rest.length + 1) 0 rest

end CavityConsole.Pattern
