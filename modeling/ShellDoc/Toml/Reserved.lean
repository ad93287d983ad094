import ShellDoc.Text.Basic

/-!
# Reserved names

A table answers to a few names before anything is put under them. Where a table would be opened
under such a name, a built-in entry is opened in its place. A built-in entry is an operation or a
maker; it has members that cannot be replaced, and it answers to names of its own. All tables that
answer to a name share one entry.

* `Reserved.under?`: the built-in entry under a name.
* `Reserved.isClosed`: nothing can be put under a name.
-/

namespace ShellDoc.Toml

/-- The built-in entries.

* `tableOperation`, `entryOperation`: an operation on tables, or on built-in entries, by its name;
* `tableMaker`, `entryMaker`: what tables, or built-in entries, are made with. -/
inductive Reserved where
  | tableOperation (name : Text)
  | entryOperation (name : Text)
  | tableMaker
  | entryMaker
deriving DecidableEq, Repr

namespace Reserved

/-- The name of the maker. -/
def makerName : Text := "constructor"

/-- The operations on tables. Built-in entries have them as well. -/
def tableOperations : List Text :=
  ["__defineGetter__", "__defineSetter__", "__lookupGetter__", "__lookupSetter__",
    "hasOwnProperty", "isPrototypeOf", "propertyIsEnumerable", "toLocaleString", "toString",
    "valueOf"]

/-- The operations on built-in entries. -/
def entryOperations : List Text := ["apply", "bind", "call", "toString"]

/-- The names of a built-in entry that may be neither read nor replaced. -/
def guarded : List Text := ["arguments", "caller"]

/-- The members of a built-in entry. -/
def members : Reserved → List Text
  | .tableOperation _ | .entryOperation _ => ["length", "name"]
  | .entryMaker => ["length", "name", "prototype"]
  | .tableMaker =>
    ["length", "name", "prototype", "assign", "create", "defineProperties", "defineProperty",
      "entries", "freeze", "fromEntries", "getOwnPropertyDescriptor",
      "getOwnPropertyDescriptors", "getOwnPropertyNames", "getOwnPropertySymbols",
      "getPrototypeOf", "groupBy", "hasOwn", "is", "isExtensible", "isFrozen", "isSealed", "keys",
      "preventExtensions", "seal", "setPrototypeOf", "values"]

/-- The built-in entry that a table has under a name, or that the built-in entry `owner` has. -/
def under? (owner : Option Reserved) (key : Text) : Option Reserved :=
  match owner with
  | none =>
    if key = makerName then some .tableMaker
    else if tableOperations.contains key then some (.tableOperation key)
    else none
  | some _ =>
    if key = makerName then some .entryMaker
    else if entryOperations.contains key then some (.entryOperation key)
    else if tableOperations.contains key then some (.tableOperation key)
    else none

/-- Nothing can be put under the name. A table closes none. -/
def isClosed (owner : Option Reserved) (key : Text) : Bool :=
  match owner with
  | none => false
  | some entry => entry.members.contains key || guarded.contains key

end Reserved

end ShellDoc.Toml
