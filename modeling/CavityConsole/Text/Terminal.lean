/-!
# What a terminal would not print

Text that an operator typed may hold sequences by which a terminal is controlled. A message shows
such a text without them: a sequence starts with the escape character and ends by its own rules, and
of the control characters outside of sequences only white space is shown.

There are sequences of a few characters, control sequences that end with their first letter, and
strings of several kinds, which end with another escape. Two control characters end everything, and
white space within a sequence that is no string breaks the sequence off and is shown.
-/

namespace CavityConsole.Text.Terminal

/-- What a terminal is in the middle of. -/
inductive State where
  /-- Text. -/
  | text
  /-- A sequence of which only the escape has come. -/
  | escape
  /-- A sequence that has a mark behind the escape. -/
  | marked
  /-- A control sequence. -/
  | control
  /-- The head of a device string, before any parameter. -/
  | deviceStart
  /-- The head of a device string, among its parameters. -/
  | deviceParameters
  /-- The head of a device string, among the marks behind its parameters. -/
  | deviceMarks
  /-- A string that may end with a terminator of eight bits. -/
  | device
  /-- A string that ends with a bell. -/
  | title
deriving DecidableEq, Repr

/-- Whether the number of a character lies between two others. -/
def isBetween (first last : Nat) (c : Char) : Bool := first ≤ c.toNat && c.toNat ≤ last

/-- Whether a character is a mark within a sequence. -/
def isMark : Char → Bool := isBetween 0x20 0x2f

/-- Whether a character is a parameter of a sequence. -/
def isParameter : Char → Bool := isBetween 0x30 0x3f

/-- Whether a character may end a control sequence. -/
def isFinal : Char → Bool := isBetween 0x40 0x7e

/-- White space among the control characters. -/
def isControlGap (c : Char) : Bool := c == '\t' || c == '\n' || c == '\x0c' || c == '\r'

/-- Whether a character is shown outside of sequences. -/
def isShown (c : Char) : Bool := isControlGap c || (0x20 ≤ c.toNat && c.toNat != 0x7f)

/-- Whether the bytes of a character hold the terminator of eight bits. -/
def holdsTerminator (c : Char) : Bool := (String.singleton c).toUTF8.toList.contains 0x9c

/-- What follows the first character behind an escape. -/
def behindEscape (c : Char) : State :=
  if c = '[' then .control
  else if c = ']' then .title
  else if c = 'P' then .deviceStart
  else if c = 'X' ∨ c = '^' ∨ c = '_' then .device
  else if isMark c then .marked
  else if isBetween 0x30 0x7e c then .text
  else .escape

/-- What follows a character that is neither shown nor ends or starts everything. -/
def inside (state : State) (c : Char) : State :=
  match state with
  | .text => .text
  | .escape => behindEscape c
  | .marked => if isBetween 0x30 0x7e c then .text else .marked
  | .control => if isFinal c then .text else .control
  | .deviceStart =>
    if isMark c then .deviceMarks
    else if isParameter c then .deviceParameters
    else if isFinal c then .device
    else .deviceStart
  | .deviceParameters =>
    if isMark c then .deviceMarks
    else if isBetween 0x3c 0x7e c then .device
    else .deviceParameters
  | .deviceMarks => if isBetween 0x30 0x7e c then .device else .deviceMarks
  | .device => if holdsTerminator c then .text else .device
  | .title => if c = '\x07' then .text else .title

/-- Whether a character is shown. -/
def shows (state : State) (c : Char) : Bool :=
  match state with
  | .text => isShown c
  | .escape | .marked | .control => isControlGap c
  | _ => false

/-- The characters that are shown. -/
def shownFrom : State → List Char → List Char
  | _, [] => []
  | state, c :: rest =>
    if c = '\x1b' then shownFrom .escape rest
    else if c = '\x18' ∨ c = '\x1a' then shownFrom .text rest
    else if shows state c then c :: shownFrom .text rest
    else shownFrom (inside state c) rest

/-- A text without what a terminal would not print. -/
def shown (text : String) : String := String.ofList (shownFrom .text text.toList)

end CavityConsole.Text.Terminal
