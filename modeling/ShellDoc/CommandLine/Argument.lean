import ShellDoc.Text.Basic

/-!
# Command line arguments

A command line is a list of positionals, long options and short options. A long option is written
with two dashes, and its value behind an equals sign or as the next argument. Short options are
single characters behind one dash, several of them together if need be; only the last may have a
value. Two dashes alone make positionals of all that follows. Empty arguments do not count. A dash
with an equals sign directly behind it has no key, and then the command line cannot be read.
-/

namespace ShellDoc.CommandLine

/-- One element of a command line.

* `divider`: two dashes alone;
* `long`, `short`: an option with its value, if one was given. -/
inductive Argument where
  | positional (text : Text)
  | divider
  | long (key : Text) (value : Option Text)
  | short (key : Char) (value : Option Text)
deriving DecidableEq, Repr

/-- Why a command line cannot be read. -/
inductive ArgumentError where
  | missingKey
deriving DecidableEq, Repr

/-- The wording of an argument error. -/
def ArgumentError.message : ArgumentError → Text
  | .missingKey => "TypeError: Cannot read properties of undefined (reading 'raw')"

/-- How the value of an option is found when no equals sign gives it.

* `standsAlone`: it has none;
* `takesNext`: it is the next argument, whatever that is;
* `mayTakeNext`: it is the next argument unless that begins with a dash or is empty. -/
inductive Habit where
  | standsAlone
  | takesNext
  | mayTakeNext
deriving DecidableEq, Repr

/-- The habits of the long options of the program. -/
def longHabit (key : Text) : Habit :=
  if key = "verbose" ∨ key = "help" ∨ key = "version" then .standsAlone
  else if key = "prefix" ∨ key = "description" then .takesNext
  else .mayTakeNext

/-- The habits of its short options. -/
def shortHabit (key : Char) : Habit :=
  if key = 'v' ∨ key = 'h' then .standsAlone
  else if key = 'p' ∨ key = 'd' then .takesNext
  else .mayTakeNext

/-- The next argument serves as the value. An empty one at the very end does not. -/
def Habit.takes (habit : Habit) (next : Text) (isLast : Bool) : Bool :=
  match habit with
  | .standsAlone => false
  | .takesNext => !(next.isEmpty && isLast)
  | .mayTakeNext => !(next.isEmpty || next.head? == some '-')

/-- The value behind an equals sign. An empty one at the very end counts as none. -/
def valueAfterEquals (value : Text) (isLast : Bool) : Option Text :=
  if value.isEmpty && isLast then none else some value

/-- The text in front of the first equals sign, and the text behind it, if there is one. -/
def splitEquals (text : Text) : Text × Option Text :=
  match text.dropWhile (· != '=') with
  | [] => (text, none)
  | _ :: value => (text.takeWhile (· != '='), some value)

/-- The options of a cluster of short ones, of which the last has the value. -/
def cluster (keys : Text) (value : Option Text) : List Argument :=
  match keys.getLast? with
  | none => []
  | some last => keys.dropLast.map (.short · none) ++ [.short last value]

/-- An option before its value is known: what to make of the value, its habit, and the value behind
its equals sign, if it has one. -/
structure Opening where
  build : Option Text → List Argument
  habit : Habit
  value : Option Text

/-- The option that an argument opens, if it is one. -/
def opening? : Text → Option Opening
  | '-' :: '-' :: body =>
    let (key, value) := splitEquals body
    some ⟨fun v => [.long key v], longHabit key, value⟩
  | '-' :: body =>
    let (keys, value) := splitEquals body
    some ⟨cluster keys, shortHabit (keys.getLastD '-'), value⟩
  | _ => none

/-- The argument is a dash with an equals sign directly behind it. -/
def lacksKey (arg : Text) : Bool := (['-', '='] : Text).isPrefixOf arg

/-- Read a command line. Behind a divider everything is a positional. -/
def readArguments (divided : Bool) : List Text → Except ArgumentError (List Argument)
  | [] => return []
  | arg :: rest =>
    if arg.isEmpty then readArguments divided rest
    else if divided || arg == ['-'] then
      return .positional arg :: (← readArguments divided rest)
    else if arg = ['-', '-'] then return .divider :: (← readArguments true rest)
    else if lacksKey arg then throw .missingKey
    else
      match opening? arg with
      | none => return .positional arg :: (← readArguments divided rest)
      | some option =>
        match option.value with
        | some value =>
          return option.build (valueAfterEquals value rest.isEmpty) ++
            (← readArguments divided rest)
        | none =>
          match rest with
          | [] => return option.build none
          | next :: others =>
            if option.habit.takes next others.isEmpty then
              return option.build (some next) ++ (← readArguments divided others)
            else return option.build none ++ (← readArguments divided (next :: others))

end ShellDoc.CommandLine
