import CavityConsole.Json.Token

/-!
# Strings of TOML files

A string stands between double quotes, where a backslash starts an escape, or between single quotes,
where every character stands for itself. With three quotes at either end it may run over several
lines; a newline right behind the opening quotes is left aside, and so is the white space behind a
backslash at the end of a line.

Readers give what they read and the characters that follow it, or nothing when the text is not well
formed.
-/

namespace CavityConsole.Toml

/-- White space within a line. -/
def isBlank (c : Char) : Bool := c == ' ' || c == '\t'

/-- The text from the next character on that is no white space. -/
def skipBlank (cs : List Char) : List Char := cs.dropWhile isBlank

/-- The text behind a line end. -/
def lineEnd : List Char → Option (List Char)
  | '\n' :: rest => some rest
  | '\r' :: '\n' :: rest => some rest
  | _ => none

/-- Whether a character may stand in a string or a comment as it is. -/
def isPlain (c : Char) : Bool := c == '\t' || (0x20 ≤ c.toNat && c.toNat != 0x7f)

/-- The character with a number of so many hexadecimal digits. -/
def codeEscape (count : Nat) (cs : List Char) : Option (Char × List Char) :=
  match (cs.take count).mapM Json.hexValue? with
  | none => none
  | some digits =>
    let code := digits.foldl (fun n d => 16 * n + d) 0
    if digits.length = count ∧ code.isValidChar then some (Char.ofNat code, cs.drop count)
    else none

/-- The character that an escape stands for, from behind its backslash. -/
def escape : List Char → Option (Char × List Char)
  | 'b' :: rest => some ('\x08', rest)
  | 't' :: rest => some ('\t', rest)
  | 'n' :: rest => some ('\n', rest)
  | 'f' :: rest => some ('\x0c', rest)
  | 'r' :: rest => some ('\r', rest)
  | '"' :: rest => some ('"', rest)
  | '\\' :: rest => some ('\\', rest)
  | 'u' :: rest => codeEscape 4 rest
  | 'U' :: rest => codeEscape 8 rest
  | _ => none

/-- A string of one line between `mark`s, from behind the opening one; the characters before are
done in reverse. -/
def shortBody (mark : Char) : (room : Nat) → (done : List Char) → List Char →
    Option (String × List Char)
  | 0, _, _ => none
  | _ + 1, _, [] => none
  | room + 1, done, c :: rest =>
    if c = mark then some (String.ofList done.reverse, rest)
    else if c = '\\' ∧ mark = '"' then do
      let (e, rest) ← escape rest
      shortBody mark room (e :: done) rest
    else if isPlain c then shortBody mark room (c :: done) rest
    else none

/-- The text behind a backslash at the end of a line and all white space behind it. -/
def joinLines (cs : List Char) : Option (List Char) :=
  (lineEnd (skipBlank cs)).map fun rest =>
    rest.dropWhile fun c => isBlank c || c == '\n' || c == '\r'

/-- A string of several lines between three `mark`s each. Of five marks at its end the first two
belong to it. -/
def longBody (mark : Char) : (room : Nat) → (done : List Char) → List Char →
    Option (String × List Char)
  | 0, _, _ => none
  | room + 1, done, cs =>
    match cs with
    | [] => none
    | c :: rest =>
      let marks := (cs.takeWhile (· == mark)).length
      if 3 ≤ marks then
        let inside := min (marks - 3) 2
        some (String.ofList (done.reverse ++ List.replicate inside mark), cs.drop (inside + 3))
      else if c = '\\' ∧ mark = '"' then
        match joinLines rest with
        | some rest => longBody mark room done rest
        | none => do
          let (e, rest) ← escape rest
          longBody mark room (e :: done) rest
      else
        match lineEnd cs with
        | some rest => longBody mark room ('\n' :: done) rest
        | none => if isPlain c then longBody mark room (c :: done) rest else none

/-- A string from behind its first `mark`. -/
def string (mark : Char) (cs : List Char) : Option (String × List Char) :=
  match cs with
  | a :: b :: rest =>
    if a = mark ∧ b = mark then
      let body := (lineEnd rest).getD rest
      longBody mark (body.length + 1) [] body
    else shortBody mark (cs.length + 1) [] cs
  | _ => shortBody mark (cs.length + 1) [] cs

end CavityConsole.Toml
