import CavityConsole.Json.Token

/-!
# Reading JSON text

`parse` reads one value with white space around it and nothing else. A value within `depth` lists
and objects is read by recursion on the containers that may still be opened; the elements of a list
and the members of an object are read one after the other by loops that are given the reader of
their items. Of members with the same key the last one counts, at every depth.

A text may nest at most `maxDepth` containers.
-/

namespace CavityConsole.Json

/-- How many lists and objects may stand within one another. -/
def maxDepth : Nat := 127

/-- A member from behind the quote of its key. -/
def member (item : List Char → Scan Json) (room : Nat) (cs : List Char) : Scan (String × Json) :=
  match stringBody room [] cs with
  | .error fault => .error fault
  | .ok (name, rest) =>
    match colon rest with
    | .error fault => .error fault
    | .ok rest => (item rest).map fun (value, rest) => ((name, value), rest)

/-- The elements of a list from the first one on, after those that are done in reverse. -/
def elements (item : List Char → Scan Json) :
    (room : Nat) → (done : List Json) → List Char → Scan (List Json)
  | 0, _, _ => .error .endInList
  | room + 1, done, cs =>
    match item cs with
    | .error fault => .error fault
    | .ok (element, rest) =>
      match skipBlank rest with
      | [] => .error .endInList
      | c :: rest =>
        if c = ']' then .ok ((element :: done).reverse, rest)
        else if c = ',' then
          match skipBlank rest with
          | [] => .error .endInValue
          | d :: rest =>
            if d = ']' then .error .trailingComma
            else elements item room (element :: done) (d :: rest)
        else .error .elementEndExpected

/-- The members of an object from behind the quote of the first key on, added to those that are
done. -/
def members (one : List Char → Scan (String × Json)) :
    (room : Nat) → (done : Members) → List Char → Scan Members
  | 0, _, _ => .error .endInObject
  | room + 1, done, cs =>
    match one cs with
    | .error fault => .error fault
    | .ok ((name, value), rest) =>
      match skipBlank rest with
      | [] => .error .endInObject
      | c :: rest =>
        if c = '\x7d' then .ok (done.insert name value, rest)
        else if c = ',' then
          match skipBlank rest with
          | [] => .error .endInValue
          | d :: rest =>
            if d = '"' then members one room (done.insert name value) rest
            else if d = '\x7d' then .error .trailingComma
            else .error .keyExpected
        else .error .memberEndExpected

/-- A list from behind its opening bracket. -/
def arrayBody (item : List Char → Scan Json) (room : Nat) (cs : List Char) : Scan Json :=
  match skipBlank cs with
  | [] => .error .endInList
  | c :: rest =>
    if c = ']' then .ok (.array [], rest)
    else (elements item room [] (c :: rest)).map fun (list, rest) => (.array list, rest)

/-- An object from behind its opening brace. -/
def objectBody (item : List Char → Scan Json) (room : Nat) (cs : List Char) : Scan Json :=
  match skipBlank cs with
  | [] => .error .endInObject
  | c :: rest =>
    if c = '\x7d' then .ok (.object [], rest)
    else if c = '"' then
      (members (member item room) room [] rest).map fun (done, rest) => (.object done, rest)
    else .error .keyExpected

/-- A value that is neither a list nor an object, from its first character on. -/
def scalar (room : Nat) (c : Char) (rest : List Char) : Scan Json :=
  if c = 'n' then (literal ['u', 'l', 'l'] rest).map fun rest => (.null, rest)
  else if c = 't' then (literal ['r', 'u', 'e'] rest).map fun rest => (.boolean true, rest)
  else if c = 'f' then (literal ['a', 'l', 's', 'e'] rest).map fun rest => (.boolean false, rest)
  else if c = '"' then (stringBody room [] rest).map fun (s, rest) => (.string s, rest)
  else if c = '-' then (numberBody true rest).map fun (n, rest) => (.number n, rest)
  else if c.isDigit then (numberBody false (c :: rest)).map fun (n, rest) => (.number n, rest)
  else .error .valueExpected

/-- A value within which `depth` containers may still be opened. -/
def value (room : Nat) : (depth : Nat) → List Char → Scan Json
  | depth, cs =>
    match skipBlank cs with
    | [] => .error .endInValue
    | c :: rest =>
      if c = '[' then
        match depth with
        | 0 => .error .tooDeep
        | inner + 1 => arrayBody (value room inner) room rest
      else if c = '\x7b' then
        match depth with
        | 0 => .error .tooDeep
        | inner + 1 => objectBody (value room inner) room rest
      else scalar room c rest

/-- Reads a whole text as one value. -/
def parse (text : String) : Except Fault Json :=
  let cs := text.toList
  match value (cs.length + 1) maxDepth cs with
  | .error fault => .error fault
  | .ok (result, rest) =>
    match skipBlank rest with
    | [] => .ok result
    | _ :: _ => .error .trailingCharacters

end CavityConsole.Json
