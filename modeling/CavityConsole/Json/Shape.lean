import CavityConsole.Json.Mismatch
import CavityConsole.Json.Parser
import CavityConsole.Json.Skipped

/-!
# Reading text as a value of a known shape

A text can be read straight into the value that it should hold. The text is read from the left, and
the first problem is the one reported, whether the text is malformed there or holds something else
than the shape asks for; what follows is not looked at.

A record is an object whose members set its fields, in any order and each at most once; members of
other names are passed over. A record may also be a list of its fields in their order, and such a
list may end early. Of a name from a fixed choice there are two forms, the string and an object with
the name as its one key and `null` as its value.
-/

namespace CavityConsole.Json

/-- Why a text does not hold a value of the shape asked for. -/
inductive Problem where
  /-- The text is malformed. -/
  | fault (fault : Fault)
  /-- The text holds something else. -/
  | mismatch (mismatch : Mismatch)
deriving DecidableEq

/-- The wording of a problem. -/
def Problem.message : Problem → String
  | .fault f => f.message
  | .mismatch m => m.message

/-- A reader of values of one shape. -/
abbrev Shape (α : Type) := List Char → Except Problem (α × List Char)

/-- The outcome of a reader that knows no shapes. -/
def orFault {α : Type} (outcome : Except Fault α) : Except Problem α := outcome.mapError .fault

/-- The outcome of a check. -/
def orMismatch {α : Type} (outcome : Except Mismatch α) : Except Problem α :=
  outcome.mapError .mismatch

/-- What stands at a place of a text, read as far as its name in a message needs it: of a list or an
object only the first character. -/
def peek (room : Nat) (cs : List Char) : Scan Found :=
  match skipBlank cs with
  | [] => .error .endInValue
  | c :: rest =>
    if c = '[' then .ok (.sequence, rest)
    else if c = '\x7b' then .ok (.map, rest)
    else (scalar room c rest).map fun (value, rest) => (value.found, rest)

/-! ## Single values -/

/-- A whole number from zero up to a bound. -/
def Found.requireNatural (bound : Nat) (expected : String) : Found → Except Mismatch Nat
  | .integer i =>
    if 0 ≤ i ∧ i ≤ bound then .ok i.toNat else .error (.outOfRange i expected)
  | other => .error (.wrongType other expected)

/-- A string. -/
def Found.requireText (expected : String) : Found → Except Mismatch String
  | .string s => .ok s
  | other => .error (.wrongType other expected)

/-- Nothing but `null`. -/
def Found.requireNull : Found → Except Mismatch Unit
  | .null => .ok ()
  | other => .error (.wrongType other "unit")

/-- A value that is neither a list nor an object and passes a check. -/
def Shape.checked {α : Type} (room : Nat) (check : Found → Except Mismatch α) : Shape α :=
  fun cs => do
    let (found, rest) ← orFault (peek room cs)
    return (← orMismatch (check found), rest)

/-- The names of a choice as a message lists them. -/
def alternatives {α : Type} (choice : List (String × α)) : String :=
  " or ".intercalate (choice.map fun c => "`" ++ c.1 ++ "`")

/-- What a name of a choice stands for. -/
def chosen {α : Type} (choice : List (String × α)) (name : String) : Except Mismatch α :=
  match choice.lookup name with
  | some a => .ok a
  | none => .error (.unknownName name (alternatives choice))

/-- The first key of an object; there has to be one. -/
def firstKey (room : Nat) (cs : List Char) : Scan String :=
  match skipBlank cs with
  | [] => .error .endInObject
  | c :: rest => if c = '"' then stringBody room [] rest else .error .keyExpected

/-- A name from a choice. -/
def Shape.name {α : Type} (room : Nat) (choice : List (String × α)) : Shape α :=
  fun cs => do
    match skipBlank cs with
    | [] => throw (.fault .endInValue)
    | c :: rest =>
      if c = '"' then
        Shape.checked room (fun found => found.requireText "a string" >>= chosen choice) (c :: rest)
      else if c = '\x7b' then
        let (key, rest) ← orFault (firstKey room rest)
        let a ← orMismatch (chosen choice key)
        let rest ← orFault (colon rest)
        let (_, rest) ← Shape.checked room Found.requireNull rest
        match skipBlank rest with
        | [] => throw (.fault .endInObject)
        | d :: rest => if d = '\x7d' then return (a, rest) else throw (.fault .valueExpected)
      else throw (.fault .valueExpected)

/-! ## Records -/

/-- A field of a record: its name, and the reader that sets it. -/
structure FieldShape (σ : Type) where
  /-- The name of the field. -/
  name : String
  /-- Reads the value of the field into the record. -/
  read : σ → Shape σ

/-- A member of a record from behind the quote of its key; also gives the names of the fields that
are set. -/
def fieldMember {σ : Type} (room : Nat) (fields : List (FieldShape σ)) (set : List String)
    (record : σ) (cs : List Char) : Except Problem ((List String × σ) × List Char) := do
  let (name, rest) ← orFault (stringBody room [] cs)
  match fields.find? (·.name == name) with
  | none =>
    let rest ← orFault (colon rest)
    return ((set, record), ← orFault (skipValue room room rest))
  | some field =>
    if set.contains name then throw (.mismatch (.duplicateField name))
    let rest ← orFault (colon rest)
    let (record, rest) ← field.read record rest
    return ((name :: set, record), rest)

/-- The members of a record from behind the quote of the first key on. -/
def fieldMembers {σ : Type} (fields : List (FieldShape σ)) :
    (room : Nat) → (set : List String) → σ → Shape σ
  | 0, _, _, _ => .error (.fault .endInObject)
  | room + 1, set, record, cs =>
    match fieldMember room fields set record cs with
    | .error problem => .error problem
    | .ok ((set, record), rest) =>
      match skipBlank rest with
      | [] => .error (.fault .endInObject)
      | c :: rest =>
        if c = '\x7d' then .ok (record, rest)
        else if c = ',' then
          match skipBlank rest with
          | [] => .error (.fault .endInValue)
          | d :: rest =>
            if d = '"' then fieldMembers fields room set record rest
            else if d = '\x7d' then .error (.fault .trailingComma)
            else .error (.fault .keyExpected)
        else .error (.fault .memberEndExpected)

/-- The end of a list behind the last field of a record. -/
def listEnd (cs : List Char) : Except Fault (List Char) :=
  match skipBlank cs with
  | [] => .error .endInList
  | c :: rest =>
    if c = ']' then .ok rest
    else if c = ',' ∧ (skipBlank rest).head? = some ']' then .error .trailingComma
    else .error .trailingCharacters

/-- The fields of a record as elements of a list. -/
def fieldElements {σ : Type} : (first : Bool) → List (FieldShape σ) → σ → Shape σ
  | _, [], record, cs => (orFault (listEnd cs)).map fun rest => (record, rest)
  | first, field :: fields, record, cs =>
    match skipBlank cs with
    | [] => .error (.fault .endInList)
    | c :: rest => do
      if c = ']' then return (record, rest)
      if first then
        let (record, rest) ← field.read record (c :: rest)
        fieldElements false fields record rest
      else if c = ',' then
        match skipBlank rest with
        | [] => throw (.fault .endInValue)
        | d :: rest =>
          if d = ']' then throw (.fault .trailingComma)
          let (record, rest) ← field.read record (d :: rest)
          fieldElements false fields record rest
      else throw (.fault .elementEndExpected)

/-- A record; fields that are not set stay as they are at first. -/
def Shape.record {σ : Type} (room : Nat) (expected : String) (fields : List (FieldShape σ))
    (initial : σ) : Shape σ :=
  fun cs =>
    match skipBlank cs with
    | [] => .error (.fault .endInValue)
    | c :: rest =>
      if c = '[' then fieldElements true fields initial rest
      else if c = '\x7b' then
        match skipBlank rest with
        | [] => .error (.fault .endInObject)
        | d :: rest =>
          if d = '\x7d' then .ok (initial, rest)
          else if d = '"' then fieldMembers fields room [] initial rest
          else .error (.fault .keyExpected)
      else do
        let (found, _) ← orFault (peek room (c :: rest))
        throw (.mismatch (.wrongType found expected))

/-- Reads a whole text as one value of a shape; the shape is given a bound for the steps that it
takes. -/
def readAs {α : Type} (shape : (room : Nat) → Shape α) (text : String) : Except Problem α := do
  let cs := text.toList
  let (value, rest) ← shape (cs.length + 1) cs
  match skipBlank rest with
  | [] => return value
  | _ :: _ => throw (.fault .trailingCharacters)

end CavityConsole.Json
