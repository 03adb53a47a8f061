import CavityConsole.Json.Token

/-!
# Values that nobody asks for

The value of an unknown member is passed over without being kept. Less is checked on the way than
when a value is read: lists and objects may nest without a limit, a number may be of any size, and
an escape by number may be half of a surrogate pair. After a comma another element or member is due,
and a bracket or brace in its place is reported like any other character that cannot stand there.
-/

namespace CavityConsole.Json

/-- The text behind a character of an escape, from behind its backslash. -/
def skipEscape : List Char → Except Fault (List Char)
  | [] => .error .endInString
  | c :: rest =>
    if c = 'u' then (hexEscape rest).map (·.2)
    else if ['"', '\\', '/', 'b', 'f', 'n', 'r', 't'].contains c then .ok rest
    else .error .invalidEscape

/-- The text behind a string, from behind its opening quote. -/
def skipString : (room : Nat) → List Char → Except Fault (List Char)
  | 0, _ => .error .endInString
  | _ + 1, [] => .error .endInString
  | room + 1, c :: rest =>
    if c = '"' then .ok rest
    else if c = '\\' then (skipEscape rest).bind (skipString room)
    else if c.toNat < 0x20 then .error .controlCharacter
    else skipString room rest

/-- The text behind at least one digit. -/
def skipDigits (cs : List Char) : Except Fault (List Char) :=
  match cs with
  | [] => .error .invalidNumber
  | c :: rest => if c.isDigit then .ok (rest.dropWhile Char.isDigit) else .error .invalidNumber

/-- The text behind an exponent, if there is one. -/
def skipExponent : List Char → Except Fault (List Char)
  | [] => .ok []
  | c :: rest =>
    if isExponentMark c then
      match rest with
      | '+' :: digits => skipDigits digits
      | '-' :: digits => skipDigits digits
      | digits => skipDigits digits
    else .ok (c :: rest)

/-- The text behind the fraction and the exponent of a number, as far as they are there. -/
def skipNumberTail : List Char → Except Fault (List Char)
  | '.' :: rest => (skipDigits rest).bind skipExponent
  | rest => skipExponent rest

/-- The text behind a number, from behind its sign. -/
def skipNumber (cs : List Char) : Except Fault (List Char) :=
  match cs with
  | [] => .error .invalidNumber
  | c :: rest =>
    if c = '0' then
      if (rest.head?.map Char.isDigit).getD false then .error .invalidNumber
      else skipNumberTail rest
    else (skipDigits (c :: rest)).bind skipNumberTail

/-- The text behind a value that is neither a list nor an object. -/
def skipScalar (room : Nat) (c : Char) (rest : List Char) : Except Fault (List Char) :=
  if c = 'n' then literal ['u', 'l', 'l'] rest
  else if c = 't' then literal ['r', 'u', 'e'] rest
  else if c = 'f' then literal ['a', 'l', 's', 'e'] rest
  else if c = '"' then skipString room rest
  else if c = '-' then skipNumber rest
  else if c.isDigit then skipNumber (c :: rest)
  else .error .valueExpected

/-- The text behind a list, from an element on. -/
def skipElements (item : List Char → Except Fault (List Char)) :
    (room : Nat) → List Char → Except Fault (List Char)
  | 0, _ => .error .endInList
  | room + 1, cs =>
    match item cs with
    | .error fault => .error fault
    | .ok rest =>
      match skipBlank rest with
      | [] => .error .endInList
      | c :: rest =>
        if c = ']' then .ok rest
        else if c = ',' then skipElements item room rest
        else .error .elementEndExpected

/-- The text behind the key of a member and its colon. -/
def skipKey (room : Nat) (cs : List Char) : Except Fault (List Char) :=
  match skipBlank cs with
  | [] => .error .endInObject
  | c :: rest =>
    if c = '"' then (skipString room rest).bind colon else .error .keyExpected

/-- The text behind an object, from a member on. -/
def skipMembers (item : List Char → Except Fault (List Char)) :
    (room : Nat) → List Char → Except Fault (List Char)
  | 0, _ => .error .endInObject
  | room + 1, cs =>
    match (skipKey room cs).bind item with
    | .error fault => .error fault
    | .ok rest =>
      match skipBlank rest with
      | [] => .error .endInObject
      | c :: rest =>
        if c = '\x7d' then .ok rest
        else if c = ',' then skipMembers item room rest
        else .error .memberEndExpected

/-- The text behind a value within which `depth` containers may be opened. The length of the text is
always enough, for either bound. -/
def skipValue (room : Nat) : (depth : Nat) → List Char → Except Fault (List Char)
  | 0, _ => .error .endInValue
  | depth + 1, cs =>
    match skipBlank cs with
    | [] => .error .endInValue
    | c :: rest =>
      if c = '[' then
        match skipBlank rest with
        | [] => .error .endInList
        | d :: rest =>
          if d = ']' then .ok rest
          else skipElements (skipValue room depth) room (d :: rest)
      else if c = '\x7b' then
        match skipBlank rest with
        | [] => .error .endInObject
        | d :: rest =>
          if d = '\x7d' then .ok rest
          else skipMembers (skipValue room depth) room (d :: rest)
      else skipScalar room c rest

end CavityConsole.Json
