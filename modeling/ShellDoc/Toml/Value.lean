import ShellDoc.Keyed
import ShellDoc.Toml.Reserved

/-!
# TOML values

The values of a TOML document, version 0.5. Tables that are written out with headers and dotted keys
can still grow while the document is read; inline values are closed.
-/

namespace ShellDoc.Toml

/-- A value.

* `float`: a finite decimal fraction, by its digits;
* `moment`: a date, a time or both, by its text;
* `array`: an array written in brackets;
* `inlineTable`: a table written in braces;
* `table`: a table that headers or dotted keys made; `declared` when a header named it;
* `tables`: a list of tables, one for each header in double brackets;
* `reserved`: a built-in entry that was opened. -/
inductive Value where
  | text (t : Text)
  | boolean (b : Bool)
  | integer (n : Int)
  | float (digits : Text)
  | infinity
  | nan
  | moment (t : Text)
  | array (items : List Value)
  | inlineTable (fields : List (Text × Value))
  | table (declared : Bool) (fields : List (Text × Value))
  | tables (elements : List (List (Text × Value)))
  | reserved (entry : Reserved)

/-- The keys of a table with their values, in the order in which they came. -/
abbrev Fields := List (Text × Value)

/-- The classes of values. All items of an array are of one class. -/
inductive Class where
  | text
  | boolean
  | integer
  | float
  | special
  | moment
  | array
  | table
deriving DecidableEq, Repr

/-- The class of a value. -/
def Value.toClass : Value → Class
  | .text _ => .text
  | .boolean _ => .boolean
  | .integer _ => .integer
  | .float _ => .float
  | .infinity | .nan => .special
  | .moment _ => .moment
  | .array _ | .tables _ => .array
  | .inlineTable _ | .table _ _ | .reserved _ => .table

/-- An assignment that goes on inside a built-in entry, with the keys that are left. -/
structure Errand where
  entry : Reserved
  keys : List Text
deriving DecidableEq, Repr

namespace Fields

/-- The value under a key. -/
def find? (fields : Fields) (key : Text) : Option Value :=
  (List.find? (fun e => e.1 == key) fields).map Prod.snd

/-- Put a value under a dotted key, in a table or in the built-in entry `owner`. Tables on the way
are made as needed; one that a header named, or anything but a table, is in the way, and so is a
value that is there already. If a built-in entry is opened on the way, the rest is left to do. -/
def assign (owner : Option Reserved) (keys : List Text) (value : Value) (fields : Fields) :
    Option (Fields × Option Errand) :=
  match keys with
  | [] => none
  | [key] =>
    if Reserved.isClosed owner key || (fields.find? key).isSome then none
    else some (Keyed.insertEntry key value fields, none)
  | key :: rest =>
    if Reserved.isClosed owner key then none
    else
      match fields.find? key with
      | none =>
        match Reserved.under? owner key with
        | some entry => some (Keyed.insertEntry key (.reserved entry) fields, some ⟨entry, rest⟩)
        | none => do
          let (inner, errand) ← assign none rest value []
          return (Keyed.insertEntry key (.table false inner) fields, errand)
      | some (.table false old) => do
        let (inner, errand) ← assign none rest value old
        return (Keyed.insertEntry key (.table false inner) fields, errand)
      | some _ => none

/-- Change the table that a list of keys leads to. Tables on the way are made as needed, and a list
of tables leads to its last one. -/
def within {α : Type} (keys : List Text) (change : Fields → Option (Fields × α))
    (fields : Fields) : Option (Fields × α) :=
  match keys with
  | [] => change fields
  | key :: rest =>
    match fields.find? key with
    | none => do
      let (inner, result) ← within rest change []
      return (Keyed.insertEntry key (.table false inner) fields, result)
    | some (.table declared old) => do
      let (inner, result) ← within rest change old
      return (Keyed.insertEntry key (.table declared inner) fields, result)
    | some (.tables elements) =>
      match elements.getLast? with
      | none => none
      | some last => do
        let (inner, result) ← within rest change last
        return (Keyed.insertEntry key (.tables (elements.dropLast ++ [inner])) fields, result)
    | some _ => none

/-- Name a table in a header. It must not have been named before. If a built-in entry is opened in
its place, that is the second result. -/
def declare (key : Text) (fields : Fields) : Option (Fields × Option Reserved) :=
  match fields.find? key with
  | none =>
    match Reserved.under? none key with
    | some entry => some (Keyed.insertEntry key (.reserved entry) fields, some entry)
    | none => some (Keyed.insertEntry key (.table true []) fields, none)
  | some (.table false old) => some (Keyed.insertEntry key (.table true old) fields, none)
  | some _ => none

/-- Begin a table of a list in a header with double brackets. -/
def extend (key : Text) (fields : Fields) : Option (Fields × Option Reserved) :=
  match fields.find? key with
  | none => some (Keyed.insertEntry key (.tables [[]]) fields, none)
  | some (.tables elements) =>
    some (Keyed.insertEntry key (.tables (elements ++ [[]])) fields, none)
  | some _ => none

end Fields

end ShellDoc.Toml
