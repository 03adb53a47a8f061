import CavityConsole.Json.Parser
import CavityConsole.Proofs.Json.Members
import CavityConsole.Proofs.Json.Numeral

/-!
# The language of JSON texts

A text is a list of tokens with white space in front of each (`Spaced`) and behind the last one. The
tokens of a value are told in two steps: words, strings and numbers stand for themselves (`Scalar`),
and lists and objects are made of the tokens of their items (`Container`). `Denotes` says which
tokens stand for which value within so many nested containers; it is defined by recursion on that
number.

A string stands for characters (`Quoted`): an escape by number is one character or a surrogate pair,
and no half of a pair stands alone. A number (`Numeral`) stands for an integer when it is written as
one that fits 64 bits, and otherwise for a real number, unless that is too large
(`Numeral.Reads`). An object stands for what its members settle.

White space is no part of the tokens, so it cannot matter to the value. The order of members is,
and where it does not matter is said by `Rearranged`.
-/

namespace CavityConsole.Json

/-! ## Strings -/

/-- The letter of an escape, and the character that it stands for. -/
inductive ShortEscape : Char → Char → Prop where
  | quote : ShortEscape '"' '"'
  | backslash : ShortEscape '\\' '\\'
  | slash : ShortEscape '/' '/'
  | backspace : ShortEscape 'b' '\x08'
  | formFeed : ShortEscape 'f' '\x0c'
  | newline : ShortEscape 'n' '\n'
  | carriageReturn : ShortEscape 'r' '\r'
  | tab : ShortEscape 't' '\t'

/-- Four hexadecimal digits of either case, and their number. -/
inductive FourDigits : List Char → Nat → Prop where
  | intro {a b c d : Char} {w x y z : Nat} (first : hexValue? a = some w)
    (second : hexValue? b = some x) (third : hexValue? c = some y)
    (fourth : hexValue? d = some z) :
    FourDigits [a, b, c, d] (((w * 16 + x) * 16 + y) * 16 + z)

/-- What stands behind the backslash of an escape, and its character. -/
inductive Escape : List Char → Char → Prop where
  | short {letter c : Char} (h : ShortEscape letter c) : Escape [letter] c
  /-- A character by its number, which is half of no pair. -/
  | single {digits : List Char} {n : Nat} (number : FourDigits digits n)
    (high : isHighSurrogate n = false) (low : isLowSurrogate n = false) :
    Escape ('u' :: digits) (Char.ofNat n)
  /-- A character by the two numbers of its surrogate pair. -/
  | pair {first second : List Char} {m n : Nat} (highNumber : FourDigits first m)
    (lowNumber : FourDigits second n) (high : isHighSurrogate m = true)
    (low : isLowSurrogate n = true) :
    Escape ('u' :: (first ++ '\\' :: 'u' :: second)) (surrogatePair m n)

/-- What stands between two quotes, and the characters that it stands for. -/
inductive Quoted : List Char → List Char → Prop where
  | nil : Quoted [] []
  /-- A character stands for itself. -/
  | plain {c : Char} {raw chars : List Char} (quote : c ≠ '"') (backslash : c ≠ '\\')
    (visible : 0x20 ≤ c.toNat) (rest : Quoted raw chars) : Quoted (c :: raw) (c :: chars)
  | escape {written raw chars : List Char} {c : Char} (h : Escape written c)
    (rest : Quoted raw chars) : Quoted ('\\' :: (written ++ raw)) (c :: chars)

/-! ## Numbers -/

/-- A number as it is written. -/
structure Numeral where
  /-- There is a minus sign in front. -/
  negative : Bool
  /-- The digits in front of the point. -/
  whole : List Char
  /-- The digits behind the point, if there is one. -/
  fraction : Option (List Char)
  /-- The exponent, if there is one. -/
  exponent : Option Exponent

namespace Numeral

/-- The text of a number without its sign. -/
def magnitude (n : Numeral) : List Char :=
  n.whole ++ ((n.fraction.map ('.' :: ·)).getD [] ++ (n.exponent.map Exponent.text).getD [])

/-- The text of a number. -/
def text (n : Numeral) : List Char := if n.negative then '-' :: n.magnitude else n.magnitude

/-- A number has digits wherever some are due, and no zero in front of another digit. -/
structure WellFormed (n : Numeral) : Prop where
  whole : WholeDigits n.whole
  fraction : ∀ digits ∈ n.fraction, digits ≠ [] ∧ ∀ c ∈ digits, c.isDigit = true
  exponent : ∀ e ∈ n.exponent, e.WellFormed

/-- The integer in front of the point. -/
def integer (n : Numeral) : Int :=
  if n.negative then -(Nat.ofDigitChars 10 n.whole 0 : Int) else Nat.ofDigitChars 10 n.whole 0

/-- The number is an integer that fits 64 bits, with a sign or without one. A zero with a minus sign
is none: it is the real number that keeps the sign. -/
structure IsInteger (n : Numeral) : Prop where
  fraction : n.fraction = none
  exponent : n.exponent = none
  least : -(2 ^ 63 : Int) ≤ n.integer
  greatest : n.integer < (2 ^ 64 : Int)
  sign : n.negative = true → n.integer ≠ 0

/-- The digits of a number as a significand and a power of ten. Digits are taken while the
significand fits 64 bits, the others are left out. -/
def scientific (n : Numeral) : Nat × Int :=
  let (significand, dropped) := gather 0 n.whole
  let (significand, exponent) : Nat × Int :=
    match n.fraction with
    | none => (significand, dropped)
    | some digits => ((gather significand digits).1, fractionExponent dropped significand digits)
  (significand, exponent + (n.exponent.map Exponent.shift).getD 0)

/-- What a number is read as. A number whose digits are scaled beyond the 64-bit values is read as
nothing. -/
inductive Reads (n : Numeral) : Number → Prop where
  | integer (h : n.IsInteger) : Reads n (.integer n.integer)
  | real {x : Double} (h : ¬ n.IsInteger)
    (finite : Decimal.scaled n.scientific.1 n.scientific.2 = some x) :
    Reads n (.real (if n.negative then -x else x))

end Numeral

/-! ## Tokens -/

/-- A token of a text. -/
inductive Token where
  | openList
  | closeList
  | openObject
  | closeObject
  | comma
  | colon
  | null
  | boolean (value : Bool)
  | string (raw : List Char)
  | number (n : Numeral)

/-- The text of a token. -/
def Token.text : Token → List Char
  | .openList => ['[']
  | .closeList => [']']
  | .openObject => ['\x7b']
  | .closeObject => ['\x7d']
  | .comma => [',']
  | .colon => [':']
  | .null => ['n', 'u', 'l', 'l']
  | .boolean true => ['t', 'r', 'u', 'e']
  | .boolean false => ['f', 'a', 'l', 's', 'e']
  | .string raw => '"' :: (raw ++ ['"'])
  | .number n => n.text

/-- A text of white space. -/
def Blank (text : List Char) : Prop := ∀ c ∈ text, isBlank c = true

/-- A text of tokens with white space in front of each. -/
inductive Spaced : List Token → List Char → Prop where
  | nil : Spaced [] []
  | cons {blanks : List Char} {token : Token} {tokens : List Token} {text : List Char}
    (blank : Blank blanks) (rest : Spaced tokens text) :
    Spaced (token :: tokens) (blanks ++ (token.text ++ text))

/-! ## Values -/

/-- The tokens of items with commas between them. -/
def separated (items : List (List Token)) : List Token := List.intercalate [.comma] items

/-- The tokens of a list of items. -/
def listTokens (items : List (List Token)) : List Token :=
  .openList :: (separated items ++ [.closeList])

/-- A member as it is written: what stands between the quotes of its key, and the tokens of its
value. -/
abbrev Entry := List Char × List Token

/-- The tokens of a member. -/
def Entry.tokens (entry : Entry) : List Token := .string entry.1 :: .colon :: entry.2

/-- The tokens of an object. -/
def objectTokens (entries : List Entry) : List Token :=
  .openObject :: (separated (entries.map Entry.tokens) ++ [.closeObject])

/-- Values of one token. -/
inductive Scalar : List Token → Json → Prop where
  | null : Scalar [.null] .null
  | boolean (b : Bool) : Scalar [.boolean b] (.boolean b)
  | string {raw chars : List Char} (quoted : Quoted raw chars) :
    Scalar [.string raw] (.string (String.ofList chars))
  | number {n : Numeral} {x : Number} (wellFormed : n.WellFormed) (read : n.Reads x) :
    Scalar [.number n] (.number x)

/-- A member as it is written and as it is read, its value read as told. -/
def EntryOf (inner : List Token → Json → Prop) (entry : Entry) (member : String × Json) : Prop :=
  (∃ chars, Quoted entry.1 chars ∧ member.1 = String.ofList chars) ∧ inner entry.2 member.2

/-- Lists and objects whose items are read as told. -/
inductive Container (inner : List Token → Json → Prop) : List Token → Json → Prop where
  | list {items : List (List Token)} {elements : List Json}
    (read : List.Forall₂ inner items elements) :
    Container inner (listTokens items) (.array elements)
  | object {entries : List Entry} {written : List (String × Json)} {members : Members}
    (read : List.Forall₂ (EntryOf inner) entries written)
    (settled : Members.Settles written members) :
    Container inner (objectTokens entries) (.object members)

/-- **The tokens of a value with at most so many containers within one another.** -/
def Denotes : (depth : Nat) → List Token → Json → Prop
  | 0, tokens, v => Scalar tokens v
  | depth + 1, tokens, v => Scalar tokens v ∨ Container (Denotes depth) tokens v

/-- A text of tokens with white space in front of each and behind the last one. -/
def LaidOut (tokens : List Token) (text : List Char) : Prop :=
  ∃ front back, text = front ++ back ∧ Spaced tokens front ∧ Blank back

/-- **A text stands for a value**: it is the tokens of the value with white space wherever it may
stand. -/
def StandsFor (text : List Char) (v : Json) : Prop :=
  ∃ tokens, LaidOut tokens text ∧ Denotes maxDepth tokens v

/-! ## What a text may be changed to -/

/-- Two keys as they are written are no spellings of one key. -/
def KeysDiffer (first second : List Char) : Prop :=
  ∀ chars, Quoted first chars → ¬ Quoted second chars

/-- Members in another order, in which those of one key still come in the same order. -/
inductive Reordered : List Entry → List Entry → Prop where
  | nil : Reordered [] []
  | cons (entry : Entry) {entries others : List Entry} (rest : Reordered entries others) :
    Reordered (entry :: entries) (entry :: others)
  | swap {first second : Entry} (differ : KeysDiffer first.1 second.1) (entries : List Entry) :
    Reordered (first :: second :: entries) (second :: first :: entries)
  | trans {entries between others : List Entry} (before : Reordered entries between)
    (behind : Reordered between others) : Reordered entries others

/-- A member of a rearranged object: its key is a string, and its value is rearranged as told. -/
def EntryArranged (inner : List Token → List Token → Prop) (entry other : Entry) : Prop :=
  entry.1 = other.1 ∧ (∃ chars, Quoted entry.1 chars) ∧ inner entry.2 other.2

/-- Lists and objects with rearranged items; the members of an object may also change places. -/
inductive Arranged (inner : List Token → List Token → Prop) : List Token → List Token → Prop where
  | list {items changed : List (List Token)} (h : List.Forall₂ inner items changed) :
    Arranged inner (listTokens items) (listTokens changed)
  | object {entries changed reordered : List Entry}
    (h : List.Forall₂ (EntryArranged inner) entries changed)
    (order : Reordered changed reordered) :
    Arranged inner (objectTokens entries) (objectTokens reordered)

/-- The tokens of a value within so many containers, and the same with the members of objects in
another order. -/
def Rearranged : (depth : Nat) → List Token → List Token → Prop
  | 0, tokens, others => tokens = others ∧ ∃ v, Scalar tokens v
  | depth + 1, tokens, others =>
    (tokens = others ∧ ∃ v, Scalar tokens v) ∨ Arranged (Rearranged depth) tokens others

end CavityConsole.Json
