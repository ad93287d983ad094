import ShellDoc.Toml.Value

/-!
# Built-in entries

Built-in entries are shared by all tables of a document, so what a document puts into them is kept
beside its tables.

* `Builtins.assign`: an assignment in a table, with all that it does inside built-in entries.
-/

namespace ShellDoc.Toml

/-- What was put into built-in entries. The first record of an entry counts. -/
abbrev Builtins := List (Reserved × Fields)

namespace Builtins

/-- What was put into an entry. -/
def fields (b : Builtins) (entry : Reserved) : Fields := (b.lookup entry).getD []

/-- Go on with an assignment inside built-in entries, for at most some entries. -/
def settle (value : Value) : Nat → Errand → Builtins → Option Builtins
  | 0, _, _ => none
  | entries + 1, errand, b => do
    let (inner, next) ← (b.fields errand.entry).assign (some errand.entry) errand.keys value
    let b := (errand.entry, inner) :: b
    match next with
    | none => return b
    | some errand => settle value entries errand b

/-- Run an errand. Each entry that it opens takes at least one of its keys. -/
def run (b : Builtins) (errand : Errand) (value : Value) : Option Builtins :=
  b.settle value errand.keys.length errand

/-- Put a value under a dotted key in a table. -/
def assign (b : Builtins) (table : Fields) (keys : List Text) (value : Value) :
    Option (Fields × Builtins) := do
  let (table, errand) ← table.assign none keys value
  match errand with
  | none => return (table, b)
  | some errand =>
    let b ← b.run errand value
    return (table, b)

end Builtins

end ShellDoc.Toml
