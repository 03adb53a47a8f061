import CavityConsole.Pattern.CharacterClass
import CavityConsole.Text.Letter

/-!
# Well-formed patterns

A pattern is a sequence of characters, classes, conditions and groups, with bars between
alternatives. A mark of repetition stands behind what is repeated. A group may have a name, which no
other group has, and it may switch modes, either for itself or for the rest of the group around it.
-/

namespace CavityConsole.Pattern

/-- How a group begins. -/
inductive GroupStart where
  /-- A group, with the modes within it. -/
  | group (modes : Modes)
  /-- A group with a name. -/
  | named (name : String)
  /-- No group: the modes that hold from here on. -/
  | switch (modes : Modes)

/-- The letters of a switch of modes, from behind the question mark; those read so far are `seen`,
the latest first. -/
def modeLetters : (seen : List Char) → Modes → List Char → Option (GroupStart × List Char)
  | _, _, [] => none
  | seen, modes, c :: rest =>
    let isDangling := seen.head? = some '-'
    if c = ':' then if isDangling then none else some (.group modes, rest)
    else if c = ')' then
      if isDangling ∨ seen.isEmpty then none else some (.switch modes, rest)
    else if seen.contains c then none
    else if c = '-' then modeLetters (c :: seen) modes rest
    else
      (modes.switch c (!seen.contains '-')).bind fun modes => modeLetters (c :: seen) modes rest

/-- Whether a character may stand in the name of a group. -/
def isNameChar (c : Char) : Bool :=
  c == '_' || c == '.' || c == '[' || c == ']' || Text.isLetter c || Text.isNumber c

/-- The name of a group, from behind its bracket. -/
def groupName (cs : List Char) : Option (GroupStart × List Char) :=
  let name := cs.takeWhile (· != '>')
  match name, cs.dropWhile (· != '>') with
  | first :: _, _ :: rest =>
    if (first == '_' || Text.isLetter first) && name.all isNameChar then
      some (.named (String.ofList name), rest)
    else none
  | _, _ => none

/-- The beginning of a group, from behind its parenthesis. -/
def groupStart (modes : Modes) (cs : List Char) : Option (GroupStart × List Char) :=
  match next modes cs with
  | '?' :: '=' :: _ | '?' :: '!' :: _ | '?' :: '<' :: '=' :: _ | '?' :: '<' :: '!' :: _ => none
  | '?' :: 'P' :: '<' :: rest | '?' :: '<' :: rest => groupName rest
  | '?' :: rest => modeLetters [] modes rest
  | other => some (.group modes, other)

/-- Whether something may stand in a pattern on its own. -/
def admits (modes : Modes) : Escape → Bool
  | .character c isByte =>
    if modes.describesCharacters then !modes.ignoresCase else !isByte || c.toNat < 0x80
  | .class isNegated => !modes.describesCharacters && !isNegated
  | .border => !modes.describesCharacters
  | .ending => true

/-- What is open while a pattern is read. -/
structure Open where
  /-- The modes. -/
  modes : Modes := {}
  /-- The modes around the groups that are open, the innermost first. -/
  around : List Modes := []
  /-- The names of groups. -/
  names : List String := []
  /-- Whether something stands in front that can be repeated. -/
  hasOperand : Bool := false

/-- Opens what begins with a parenthesis. -/
def Open.start (now : Open) : GroupStart → Option Open
  | .group modes =>
    some { now with modes, around := now.modes :: now.around, hasOperand := false }
  | .named name =>
    if now.names.contains name then none
    else
      some { now with
        around := now.modes :: now.around, names := name :: now.names, hasOperand := false }
  | .switch modes => some { now with modes, hasOperand := false }

/-- One step through a pattern that has a next character: what is open behind it. -/
def step (now : Open) (c : Char) (rest : List Char) : Option (Open × List Char) :=
  let behind : Open := { now with hasOperand := true }
  if c = '(' then do
    let (start, rest) ← groupStart now.modes rest
    return (← now.start start, rest)
  else if c = ')' then
    match now.around with
    | [] => none
    | modes :: around => some ({ behind with modes, around }, rest)
  else if c = '|' then some ({ now with hasOperand := false }, rest)
  else if c = '[' then (characterClass now.modes rest).map fun rest => (behind, rest)
  else if c = '?' ∨ c = '*' ∨ c = '+' then
    if now.hasOperand then some (behind, if rest.head? = some '?' then rest.drop 1 else rest)
    else none
  else if c = '\x7b' then none
  else if c = '\\' then do
    let (escaped, rest) ← escape now.modes rest
    if admits now.modes escaped then return (behind, rest) else none
  else if c = '.' then if now.modes.describesCharacters then some (behind, rest) else none
  else if c = '^' ∨ c = '$' then some (behind, rest)
  else if admits now.modes (.character c false) then some (behind, rest)
  else none

/-- Whether the rest of a pattern is well formed. -/
def isWellFormedFrom : (room : Nat) → Open → List Char → Bool
  | 0, _, _ => false
  | room + 1, now, cs =>
    match next now.modes cs with
    | [] => now.around.isEmpty
    | c :: rest =>
      match step now c rest with
      | some (now, rest) => isWellFormedFrom room now rest
      | none => false

/-- Whether a text is a well-formed pattern. -/
def isWellFormed (cs : List Char) : Bool := isWellFormedFrom (cs.length + 1) {} cs

end CavityConsole.Pattern
