/-!
# Texts cut by bytes

The characters of a text fill one to four bytes each. A text that is cut at a number of bytes may be
cut within a character, and then no text is left.
-/

namespace CavityConsole.Text

/-- The text behind so many bytes; nothing if they end within a character. -/
def dropBytes : List Char → (count : Nat) → Option (List Char)
  | [], _ => some []
  | c :: rest, count =>
    if count = 0 then some (c :: rest)
    else if count < c.utf8Size then none
    else dropBytes rest (count - c.utf8Size)

/-- The first so many bytes of a text; nothing if they end within a character. -/
def takeBytes : List Char → (count : Nat) → Option (List Char)
  | [], _ => some []
  | c :: rest, count =>
    if count = 0 then some []
    else if count < c.utf8Size then none
    else (takeBytes rest (count - c.utf8Size)).map (c :: ·)

/-- The part of a text between two numbers of bytes. -/
def cutBytes (cs : List Char) (first last : Nat) : Option (List Char) :=
  (dropBytes cs first).bind (takeBytes · (last - first))

/-- What is taken and what is dropped make up the text. -/
theorem takeBytes_append_dropBytes {cs front behind : List Char} {count : Nat}
    (hf : takeBytes cs count = some front) (hb : dropBytes cs count = some behind) :
    front ++ behind = cs := by
  induction cs generalizing count front with
  | nil => simp_all [takeBytes, dropBytes]
  | cons c rest ih =>
    by_cases h0 : count = 0
    · simp_all [takeBytes, dropBytes]
    · by_cases h1 : count < c.utf8Size
      · simp [takeBytes, h0, h1] at hf
      · rw [takeBytes, if_neg h0, if_neg h1] at hf
        rw [dropBytes, if_neg h0, if_neg h1] at hb
        obtain ⟨taken, ht, rfl⟩ := Option.map_eq_some_iff.1 hf
        rw [List.cons_append, ih ht hb]

end CavityConsole.Text
