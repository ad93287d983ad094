import ShellDoc.CommandLine.Argument

/-!
# Invocations

What a command line asks for: to run a subcommand, to show help or the version, or nothing that
makes sense.
-/

namespace ShellDoc.CommandLine

/-- What the program can do. -/
inductive Subcommand where
  | doc
  | list
  | usage
deriving DecidableEq, Repr

namespace Subcommand

/-- All subcommands, in the order in which they are listed. -/
def all : List Subcommand := [.doc, .list, .usage]

/-- The name of a subcommand. -/
def name : Subcommand → Text
  | .doc => "doc"
  | .list => "list"
  | .usage => "usage"

/-- The subcommand of a name. -/
def ofName? (name : Text) : Option Subcommand := all.find? fun s => s.name == name

/-- How many positionals a subcommand takes. -/
def operandLimit : Subcommand → Nat
  | .doc => 2
  | .list | .usage => 1

/-- A subcommand knows an option. -/
def knows (s : Subcommand) : Argument → Bool
  | .positional _ | .divider => true
  | .long key _ =>
    key == "help" || key == "prefix" || key == "verbose" || (s == .usage && key == "description")
  | .short key _ => key == 'h' || key == 'p' || key == 'v' || (s == .usage && key == 'd')

end Subcommand

/-- A subcommand with all it was given. -/
structure Settings where
  subcommand : Subcommand
  script : Option Text := none
  command : Option Text := none
  namePrefix : Option Text := none
  description : Option Text := none
  verbose : Bool := false
deriving DecidableEq, Repr

/-- What a command line asks for. One that is `rejected` can be read and makes no sense. -/
inductive Invocation where
  | programHelp
  | version
  | commandHelp (s : Subcommand)
  | rejected
  | unreadable (e : ArgumentError)
  | run (settings : Settings)
deriving DecidableEq, Repr

/-- The positionals of a command line. -/
def positionals (args : List Argument) : List Text :=
  args.filterMap fun
    | .positional text => some text
    | _ => none

/-- The values with which an option occurs, under its long key or its short one. -/
def occurrences (long : Text) (short : Char) (args : List Argument) : List (Option Text) :=
  args.filterMap fun
    | .long key value => if key = long then some value else none
    | .short key value => if key = short then some value else none
    | .positional _ | .divider => none

/-- Whether a flag is set, if it is used right: at most once, and with no value but a truth
value. -/
def flag? (long : Text) (short : Char) (args : List Argument) : Option Bool :=
  match occurrences long short args with
  | [] => some false
  | [none] => some true
  | [some value] =>
    if value = "true" then some true else if value = "false" then some false else none
  | _ => none

/-- The value of an option, if it is used right: at most once, and then with a value. -/
def value? (long : Text) (short : Char) (args : List Argument) : Option (Option Text) :=
  match occurrences long short args with
  | [] => some none
  | [some value] => some (some value)
  | _ => none

/-- The settings of a subcommand with its positionals, if it is used right. -/
def settings? (s : Subcommand) (operands : List Text) (args : List Argument) : Option Settings := do
  let namePrefix ← value? "prefix" 'p' args
  let verbose ← flag? "verbose" 'v' args
  let description ← if s = .usage then value? "description" 'd' args else some none
  if operands.length ≤ s.operandLimit ∧ args.all s.knows then
    return {
      subcommand := s, script := operands.head?, command := operands[1]?
      namePrefix, description, verbose }
  else none

/-- What to do without a subcommand: help or the version if asked for. -/
def withoutSubcommand (args : List Argument) : Invocation :=
  match flag? "help" 'h' args, flag? "version" 'v' args with
  | some true, some _ => .programHelp
  | some false, some true => .version
  | _, _ => .rejected

/-- What a list of arguments asks for. Help for a subcommand comes before anything else about it. -/
def Invocation.ofArguments (args : List Argument) : Invocation :=
  if args.isEmpty then .programHelp
  else
    match positionals args with
    | [] => withoutSubcommand args
    | name :: operands =>
      match Subcommand.ofName? name with
      | none => withoutSubcommand args
      | some s =>
        if flag? "help" 'h' args = some true then .commandHelp s
        else
          match settings? s operands args with
          | none => .rejected
          | some settings => .run settings

/-- What a command line asks for. -/
def invocation (argv : List Text) : Invocation :=
  match readArguments false argv with
  | .error e => .unreadable e
  | .ok args => .ofArguments args

end ShellDoc.CommandLine
