import ShellDoc.Text.Units

/-!
# Quoted text

How a text is shown inside a message: between quotes, with its control characters spelled out.
Single quotes are preferred, then double quotes, then backquotes; a text that holds all three is
put between single quotes with each of its own escaped.

* `Quoted.quote`: a text between quotes.
* `Quoted.quoteLines`: a long text, with the quotes of each line for themselves.
* `Quoted.quoteShort`: a text in a message, cut short.
-/

namespace ShellDoc.Quoted

/-- Two hexadecimal digits in capitals. -/
def hexByte (n : Nat) : Text :=
  let digit (d : Nat) : Char := if d < 10 then Char.ofNat (48 + d) else Char.ofNat (55 + d)
  [digit (n / 16), digit (n % 16)]

/-- The quote to put around the text. -/
def quoteFor (text : Text) : Char :=
  if !text.contains '\'' then '\''
  else if !text.contains '"' then '"'
  else if !text.contains (Char.ofNat 0x60) && !Text.containsText ['$', '\x7b'] text then
    Char.ofNat 0x60
  else '\''

/-- One character between quotes `quote`. -/
def escape (quote c : Char) : Text :=
  let n := c.toNat
  if n = 0x08 then ['\\', 'b']
  else if n = 0x09 then ['\\', 't']
  else if n = 0x0A then ['\\', 'n']
  else if n = 0x0C then ['\\', 'f']
  else if n = 0x0D then ['\\', 'r']
  else if n < 0x20 ∨ (0x7F ≤ n ∧ n ≤ 0x9F) then ['\\', 'x'] ++ hexByte n
  else if c = '\\' then ['\\', '\\']
  else if c = '\'' ∧ quote = '\'' then ['\\', '\'']
  else [c]

/-- The text between quotes. -/
def quote (text : Text) : Text :=
  let q := quoteFor text
  [q] ++ text.flatMap (escape q) ++ [q]

/-- The lines of a text, each with the line feed that ends it. -/
def linesKept : Text → List Text
  | [] => []
  | c :: rest =>
    if c = '\n' then [c] :: linesKept rest
    else
      match linesKept rest with
      | [] => [[c]]
      | line :: lines => (c :: line) :: lines

/-- The widest text that is quoted as one. -/
def maxWidth : Nat := 124

/-- The text between quotes. When it is wide, each of its lines has quotes of its own. -/
def quoteLines (text : Text) : Text :=
  if Text.width text ≤ maxWidth then quote text
  else (" +\n  " : Text).intercalate ((linesKept text).map quote)

/-- How many units of a text are looked at. -/
def maxUnits : Nat := 10000

/-- The text between quotes, cut short when that is wider than 128 units. -/
def quoteShort (text : Text) : Text :=
  let whole := quoteLines (Text.takeUnits maxUnits text)
  if Text.width whole ≤ 128 then whole else Text.takeUnits 128 whole ++ "..."

end ShellDoc.Quoted
