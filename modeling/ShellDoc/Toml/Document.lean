import ShellDoc.Toml.Builtins
import ShellDoc.Toml.Number
import ShellDoc.Toml.Quotation

/-!
# TOML documents

A document is a list of statements: assignments, headers that name a table, and headers in double
brackets that begin a table of a list. Assignments go into the table of the last header.

* `Toml.value`: a value of any kind.
* `Toml.parse?`: a whole document as the fields of its root table.

Values nest, so their readers take a bound on the steps they may make. A reader makes at most three
steps for a character, and the bound of a statement is above the length of the text that is left, so
the bounds are never reached.
-/

namespace ShellDoc.Toml

/-- One part of a key: quoted or bare. -/
def keyPart : Reader Text
  | '"' :: rest => basicString [] rest
  | '\'' :: rest => literalString [] rest
  | text =>
    let part := text.takeWhile isBareKeyChar
    if part.isEmpty then none else some (part, text.dropWhile isBareKeyChar)

/-- A dotted key: its parts, with spaces and tabs around the points. -/
def dottedKey (steps : Nat) (text : Text) : Option (List Text × Text) :=
  match steps with
  | 0 => none
  | steps + 1 => do
    let (part, rest) ← keyPart text
    match skipSpace rest with
    | '.' :: after => do
      let (parts, rest) ← dottedKey steps (skipSpace after)
      return (part :: parts, rest)
    | rest => return ([part], rest)

/-- The reader of a value that is not made up of others. -/
def simpleValue : Reader Value
  | 't' :: 'r' :: 'u' :: 'e' :: rest => some (.boolean true, rest)
  | 'f' :: 'a' :: 'l' :: 's' :: 'e' :: rest => some (.boolean false, rest)
  | 'i' :: 'n' :: 'f' :: rest => some (.infinity, rest)
  | 'n' :: 'a' :: 'n' :: rest => some (.nan, rest)
  | [] => none
  | c :: rest =>
    if c = '+' ∨ c = '-' then Number.signed c rest
    else if c.isDigit then Number.unsigned (c :: rest)
    else (quotation (c :: rest)).map fun (t, rest) => (.text t, rest)

mutual

/-- A value, and what is in the built-in entries behind it. -/
def value (steps : Nat) (b : Builtins) (text : Text) : Option (Value × Builtins × Text) :=
  match steps with
  | 0 => none
  | steps + 1 =>
    match text with
    | '[' :: rest => items steps [] b (skipFiller false rest)
    | '\x7b' :: rest => fields steps [] b (skipSpace rest)
    | _ => (simpleValue text).map fun (item, rest) => (item, b, rest)

/-- The rest of an array, at its end or in front of an item; the items so far, last one first. -/
def items (steps : Nat) (acc : List Value) (b : Builtins) (text : Text) :
    Option (Value × Builtins × Text) :=
  match steps with
  | 0 => none
  | steps + 1 =>
    match text with
    | ']' :: rest => some (.array acc.reverse, b, rest)
    | _ => do
      let (item, b, rest) ← value steps b text
      if acc.head?.any fun other => other.toClass ≠ item.toClass then none
      match skipFiller false rest with
      | ',' :: rest => items steps (item :: acc) b (skipFiller false rest)
      | ']' :: rest => return (.array (item :: acc).reverse, b, rest)
      | _ => none

/-- The rest of an inline table, at its end or in front of a key; the fields so far. -/
def fields (steps : Nat) (acc : Fields) (b : Builtins) (text : Text) :
    Option (Value × Builtins × Text) :=
  match steps with
  | 0 => none
  | steps + 1 =>
    match text with
    | '\x7d' :: rest => some (.inlineTable acc, b, rest)
    | _ => do
      let (keys, item, b, rest) ← assignment steps b text
      let (acc, b) ← b.assign acc keys item
      match skipSpace rest with
      | ',' :: rest => fields steps acc b (skipSpace rest)
      | '\x7d' :: rest => return (.inlineTable acc, b, rest)
      | _ => none

/-- A key and its value. -/
def assignment (steps : Nat) (b : Builtins) (text : Text) :
    Option (List Text × Value × Builtins × Text) :=
  match steps with
  | 0 => none
  | steps + 1 => do
    let (keys, rest) ← dottedKey steps text
    match rest with
    | '=' :: rest => do
      let (item, b, rest) ← value steps b (skipSpace rest)
      return (keys, item, b, rest)
    | _ => none

end

/-- Where assignments go: into the table that a list of keys leads to, or into a built-in entry. -/
inductive Place where
  | table (keys : List Text)
  | entry (entry : Reserved)

/-- A document that is being read: the root table so far, what is in the built-in entries, and the
place that the last header named. -/
structure Draft where
  root : Fields
  builtins : Builtins
  place : Place

namespace Draft

/-- An empty document. -/
def empty : Draft := ⟨[], [], .table []⟩

/-- Go to the place that a header names, where `change` says what the header does with its last
key. -/
def enter (d : Draft) (keys : List Text)
    (change : Text → Fields → Option (Fields × Option Reserved)) : Option Draft := do
  let last ← keys.getLast?
  let (root, opened) ← d.root.within keys.dropLast (change last)
  match opened with
  | none => return { d with root, place := .table keys }
  | some entry => return { d with root, place := .entry entry }

/-- Name a table. -/
def header (d : Draft) (keys : List Text) : Option Draft := d.enter keys Fields.declare

/-- Begin a table of a list. -/
def listHeader (d : Draft) (keys : List Text) : Option Draft := d.enter keys Fields.extend

/-- Put a value into the place that the last header named. -/
def assign (d : Draft) (keys : List Text) (item : Value) : Option Draft :=
  match d.place with
  | .table place => do
    let (root, builtins) ← d.root.within place fun table => d.builtins.assign table keys item
    return { d with root, builtins }
  | .entry entry => do
    let builtins ← d.builtins.run ⟨entry, keys⟩ item
    return { d with builtins }

end Draft

/-- One statement up to the end of its line, with a bound on the length of the text. -/
def statement (steps : Nat) (d : Draft) (text : Text) : Option (Draft × Text) :=
  match text with
  | '[' :: '[' :: rest => do
    let (keys, rest) ← dottedKey steps (skipSpace rest)
    match rest with
    | ']' :: ']' :: rest => do
      let rest ← endOfStatement? rest
      let d ← d.listHeader keys
      return (d, rest)
    | _ => none
  | '[' :: rest => do
    let (keys, rest) ← dottedKey steps (skipSpace rest)
    match rest with
    | ']' :: rest => do
      let rest ← endOfStatement? rest
      let d ← d.header keys
      return (d, rest)
    | _ => none
  | _ => do
    let (keys, item, builtins, rest) ← assignment (4 * steps) d.builtins text
    let rest ← endOfStatement? rest
    let d ← { d with builtins }.assign keys item
    return (d, rest)

/-- The statements up to the end of the text. -/
def statements (steps : Nat) (d : Draft) (text : Text) : Option Draft :=
  match steps with
  | 0 => none
  | steps + 1 =>
    match skipFiller false text with
    | [] => some d
    | rest => do
      let (d, rest) ← statement (steps + 1) d rest
      statements steps d rest

/-- The fields of the root table of a document, if the text is one. -/
def parse? (text : Text) : Option Fields :=
  (statements (text.length + 1) .empty text).map Draft.root

end ShellDoc.Toml
