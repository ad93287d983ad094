import ShellDoc.Usage

/-!
# Dispatch

Runs a script's commands: options are read first, `--help` is answered from the script's own
comments, and otherwise the first positional names the command to run.

* `Dispatch.help`: the documentation of one command or of all.
* `Dispatch.run`: a whole command line.
-/

namespace ShellDoc

/-- What a command answers. -/
inductive Reply where
  /-- An exit status. -/
  | status (n : Number)
  /-- Anything that is no status. -/
  | done
  /-- An error of its own. -/
  | raised (message : Text)
deriving DecidableEq, Repr

/-- A command takes the positionals behind its name, and the options. -/
abbrev Command := List Text → ParsedOptions → Reply

/-- A script: what its usage is made from, and its commands by full name. -/
structure ScriptDefinition extends UsageDefinition where
  commands : Keyed Command

/-- A command that was run, with what it was given. -/
structure Call where
  name : Text
  arguments : List Text
  options : ParsedOptions

/-- What a run wrote and called, and how it ended. -/
structure ScriptRun where
  stdout : List Text := []
  stderr : List Text := []
  calls : List Call := []
  result : Except Failure Number

namespace Dispatch

/-- The key of `command` among the commands of a script. -/
def fullName (namePrefix : Option Text) (command : Text) : Text := namePrefix.getD [] ++ command

/-- What to show for `command`, or for all when none is named. -/
def helpCriterion (command namePrefix : Option Text) : Criterion where
  target := (Text.given command).map (fullName namePrefix)
  namePrefix := namePrefix

/-- `help`: write the documentation of `command`, or of all commands when none is named. -/
def help (h : Host) (verbose : Bool) (script : Text) (command namePrefix : Option Text) :
    Journaled SourceError Output :=
  Extract.file h verbose script (helpCriterion command namePrefix)

/-- The wording for a command that does not exist. -/
def notRecognized (command : Text) : Text :=
  "Error: Command " ++ command ++ " is not recognized.\n"

/-- Run a command that was found. -/
def call (name : Text) (command : Command) (args : List Text) (options : ParsedOptions) :
    ScriptRun where
  calls := [⟨name, args, options⟩]
  result :=
    match command args options with
    | .status n => .ok n
    | .done => .ok 0
    | .raised message => .error (.unexpected message)

/-- A run that ends as the step `x` does: as `f` says for its value, or with its error. What `x` has
written stays written. -/
def conclude {α : Type} (x : Journaled SourceError α) (f : α → List Text × Number) :
    List Message × ScriptRun :=
  match x.outcome with
  | .ok a => (x.log, { stdout := x.written, stderr := (f a).1, result := .ok (f a).2 })
  | .error e => (x.log, { stdout := x.written, result := .error (.source e) })

/-- `runScript`: answer a command line. The messages left, and the run. -/
def run (h : Host) (verbose : Bool) (d : ScriptDefinition) (argv : List Text) :
    List Message × ScriptRun :=
  match parseOptions d.options.withHelp argv with
  | .error e => ([], { stderr := [e.message ++ ['\n']], result := .ok 1 })
  | .ok parsed =>
    if parsed.options.isSet OptionTable.helpKey then
      conclude (help h verbose d.script parsed.positionals.head? d.namePrefix) fun _ => ([], 0)
    else
      match parsed.positionals with
      | [] => usage
      | [] :: _ => usage
      | command :: args =>
        match d.commands.find? (fullName d.namePrefix command) with
        | none => ([], { stderr := [notRecognized command], result := .ok 1 })
        | some handler =>
          ([], call (fullName d.namePrefix command) handler args parsed.options)
where
  /-- Answer with the usage text. -/
  usage : List Message × ScriptRun :=
    conclude (Usage.render h verbose d.toUsageDefinition) fun text => ([text], 1)

end Dispatch

end ShellDoc
