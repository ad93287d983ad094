import ShellDoc.Text.Basic

/-!
# TOML characters

The characters that end a line or a word, and the characters of bare keys. A reader takes the text
and gives what it read with the rest.
-/

namespace ShellDoc.Toml

/-- A reader: what it read and what is left, unless the text is not what it reads. -/
abbrev Reader (α : Type) := Text → Option (α × Text)

/-- A space or a tab. -/
def isSpace (c : Char) : Bool := c == ' ' || c == '\t'

/-- A space, a tab or a character that ends a line. -/
def isSpaceOrBreak (c : Char) : Bool := isSpace c || c == '\n' || c == '\r'

/-- Without the spaces and tabs in front. -/
def skipSpace (text : Text) : Text := text.dropWhile isSpace

/-- Nothing more of a word follows. -/
def atWordEnd : Text → Bool
  | [] => true
  | c :: _ => isSpaceOrBreak c || c == '#'

/-- A character of a bare key. -/
def isBareKeyChar (c : Char) : Bool := c.isAlphanum || c == '_' || c == '-'

/-- A control character that no string may hold as it is. -/
def isControl (c : Char) : Bool := (c.toNat < 0x20 && c != '\t') || c.toNat == 0x7F

/-- The number that a hexadecimal digit stands for. -/
def digitValue? (c : Char) : Option Nat :=
  if c.isDigit then some (c.toNat - 48)
  else if 'a' ≤ c ∧ c ≤ 'f' then some (c.toNat - 87)
  else if 'A' ≤ c ∧ c ≤ 'F' then some (c.toNat - 55)
  else none

/-- What is left behind a comment, its line feed included. -/
def skipComment : Text → Text
  | [] => []
  | c :: rest => if c = '\n' then rest else skipComment rest

/-- The end of a statement: blanks and a comment, up to the end of the line. -/
def endOfStatement? : Text → Option Text
  | [] => some []
  | c :: rest =>
    if c = '\n' then some rest
    else if isSpace c || c == '\r' then endOfStatement? rest
    else if c = '#' then some (skipComment rest)
    else none

/-- Without the blanks, line ends and comments in front. -/
def skipFiller (inComment : Bool) : Text → Text
  | [] => []
  | c :: rest =>
    if inComment then skipFiller (c != '\n') rest
    else if isSpaceOrBreak c then skipFiller false rest
    else if c = '#' then skipFiller true rest
    else c :: rest

end ShellDoc.Toml
