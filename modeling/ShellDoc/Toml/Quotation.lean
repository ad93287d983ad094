import ShellDoc.Toml.Word

/-!
# TOML strings

Basic strings stand between double quotes and have escapes; literal strings stand between single
quotes and have none. Between three quotes either may run over lines.

Each reader starts behind the opening quotes and keeps what it has read so far, last character
first.
-/

namespace ShellDoc.Toml

/-- The number that hexadecimal digits stand for. -/
def hexValue? (digits : Text) : Option Nat :=
  digits.foldl (fun acc c => do
    let n ← acc
    let d ← digitValue? c
    return 16 * n + d) (some 0)

/-- The character with the number that hexadecimal digits stand for, if there is one. -/
def hexChar? (digits : Text) : Option Char := do
  let n ← hexValue? digits
  if n.isValidChar then return Char.ofNat n else none

/-- The character that a letter behind a backslash stands for. -/
def escaped? : Char → Option Char
  | 'b' => some '\x08'
  | 't' => some '\t'
  | 'n' => some '\n'
  | 'f' => some '\x0c'
  | 'r' => some '\r'
  | '"' => some '"'
  | '\\' => some '\\'
  | _ => none

/-- The rest of a basic string on one line. -/
def basicString (acc : Text) : Reader Text
  | [] => none
  | '"' :: rest => some (acc.reverse, rest)
  | '\\' :: 'u' :: a :: b :: c :: d :: rest =>
    match hexChar? [a, b, c, d] with
    | some char => basicString (char :: acc) rest
    | none => none
  | '\\' :: 'U' :: a :: b :: c :: d :: e :: f :: g :: h :: rest =>
    match hexChar? [a, b, c, d, e, f, g, h] with
    | some char => basicString (char :: acc) rest
    | none => none
  | '\\' :: c :: rest =>
    match escaped? c with
    | some char => basicString (char :: acc) rest
    | none => none
  | c :: rest => if isControl c || c == '\\' then none else basicString (c :: acc) rest

/-- The rest of a literal string on one line. -/
def literalString (acc : Text) : Reader Text
  | [] => none
  | c :: rest =>
    if c = '\'' then some (acc.reverse, rest)
    else if isControl c then none
    else literalString (c :: acc) rest

/-- Where the reader of a basic string over lines is.

* `inText`: in the text;
* `beforeBreak`: behind a backslash and blanks, where the line has to end;
* `trimming`: behind such a line end, where blanks and line ends do not count. -/
inductive Trim where
  | inText
  | beforeBreak
  | trimming
deriving DecidableEq

/-- A control character that a string over lines may not hold as it is. -/
def isControlInLines (c : Char) : Bool := isControl c && c != '\n' && c != '\r'

/-- The rest of a basic string over lines. The first three quotes end it. -/
def basicLines (mode : Trim) (acc : Text) : Reader Text
  | [] => none
  | c :: rest =>
    if mode = .trimming ∧ isSpaceOrBreak c then basicLines .trimming acc rest
    else if mode = .beforeBreak then
      if isSpace c then basicLines .beforeBreak acc rest
      else if isSpaceOrBreak c then basicLines .trimming acc rest
      else none
    else if c = '"' then
      match rest with
      | '"' :: '"' :: after => some (acc.reverse, after)
      | _ => basicLines .inText (c :: acc) rest
    else if c = '\\' then
      match rest with
      | 'u' :: a :: b :: c :: d :: after =>
        match hexChar? [a, b, c, d] with
        | some char => basicLines .inText (char :: acc) after
        | none => none
      | 'U' :: a :: b :: c :: d :: e :: f :: g :: h :: after =>
        match hexChar? [a, b, c, d, e, f, g, h] with
        | some char => basicLines .inText (char :: acc) after
        | none => none
      | e :: after =>
        if isSpace e then basicLines .beforeBreak acc after
        else if isSpaceOrBreak e then basicLines .trimming acc after
        else
          match escaped? e with
          | some char => basicLines .inText (char :: acc) after
          | none => none
      | [] => none
    else if isControlInLines c then none
    else basicLines .inText (c :: acc) rest

/-- The rest of a literal string over lines. The first three quotes end it. -/
def literalLines (acc : Text) : Reader Text
  | [] => none
  | '\'' :: '\'' :: '\'' :: rest => some (acc.reverse, rest)
  | c :: rest => if isControlInLines c then none else literalLines (c :: acc) rest

/-- Without the line end directly behind the opening quotes. -/
def skipFirstBreak (text : Text) : Text :=
  match text.dropWhile (· == '\r') with
  | '\n' :: rest => rest
  | rest => rest

/-- A string of any form, from its opening quotes on. -/
def quotation : Reader Text
  | '"' :: '"' :: '"' :: rest => basicLines .inText [] (skipFirstBreak rest)
  | '"' :: rest => basicString [] rest
  | '\'' :: '\'' :: '\'' :: rest => literalLines [] (skipFirstBreak rest)
  | '\'' :: rest => literalString [] rest
  | _ => none

end ShellDoc.Toml
