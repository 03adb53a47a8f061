/-!
# Showing bytes as text

Bytes that need not be UTF-8 are shown as text all the same. Every character that is there is shown,
and each longest run of bytes that could have become a character and did not is shown as one
replacement character.
-/

namespace CavityConsole.Text

/-- The bytes that may follow a first byte: how many, and the range of the next one. The bytes after
that are in the full range. -/
def continuation (first : UInt8) : Option (Nat × UInt8 × UInt8) :=
  if first < 0x80 then some (0, 0x80, 0xBF)
  else if first < 0xC2 then none
  else if first < 0xE0 then some (1, 0x80, 0xBF)
  else if first = 0xE0 then some (2, 0xA0, 0xBF)
  else if first = 0xED then some (2, 0x80, 0x9F)
  else if first < 0xF0 then some (2, 0x80, 0xBF)
  else if first = 0xF0 then some (3, 0x90, 0xBF)
  else if first < 0xF4 then some (3, 0x80, 0xBF)
  else if first = 0xF4 then some (3, 0x80, 0x8F)
  else none

/-- How many of the next bytes continue a character, up to `count` of them. -/
def continuing : (count : Nat) → (least most : UInt8) → List UInt8 → Nat
  | 0, _, _, _ => 0
  | _ + 1, _, _, [] => 0
  | count + 1, least, most, b :: rest =>
    if least ≤ b ∧ b ≤ most then continuing count 0x80 0xBF rest + 1 else 0

/-- How many bytes the first character takes up, and the character if it is one. -/
def firstChar (first : UInt8) (rest : List UInt8) : Nat × Char :=
  match continuation first with
  | none => (1, '\uFFFD')
  | some (count, least, most) =>
    let n := continuing count least most rest
    match String.fromUTF8? ⟨(first :: rest.take n).toArray⟩ with
    | some s => (n + 1, s.toList.headD '\uFFFD')
    | none => (n + 1, '\uFFFD')

/-- The characters that bytes are shown as. -/
def lossyChars : List UInt8 → List Char
  | [] => []
  | first :: rest =>
    let (size, c) := firstChar first rest
    c :: lossyChars (rest.drop (size - 1))
termination_by bytes => bytes.length
decreasing_by simp only [List.length_drop, List.length_cons]; omega

/-- The text that bytes are shown as. -/
def lossy (bytes : List UInt8) : String := String.ofList (lossyChars bytes)

end CavityConsole.Text
