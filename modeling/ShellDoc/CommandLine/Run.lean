import ShellDoc.CommandLine.Help
import ShellDoc.CommandLine.Target
import ShellDoc.Dispatch

/-!
# Running the program

* `CommandLine.perform`: a subcommand; what it writes, and the end of the program if it fails.
* `CommandLine.run`: a whole command line; the exit status, the output and the messages.
-/

namespace ShellDoc

/-- Go on from the error of `x`, if there is one. -/
def Journaled.recover {ε ε' α : Type} (x : Journaled ε α) (f : ε → Journaled ε' α) :
    Journaled ε' α :=
  match x.outcome with
  | .ok a => ⟨x.log, x.written, .ok a⟩
  | .error e => ⟨x.log ++ (f e).log, x.written ++ (f e).written, (f e).outcome⟩

namespace CommandLine

/-- What a run of the program shows. -/
structure Report where
  exit : Int
  stdout : Text
  log : List Message
  rejected : Bool := false
deriving DecidableEq, Repr

/-- Do what the subcommand of `s` asks for. -/
def produce (h : Host) (s : Settings) : Journaled Failure Unit := do
  let target ← Target.resolve h s.verbose s.script s.namePrefix []
  match s.subcommand with
  | .doc => do
    let output ← (Dispatch.help h s.verbose target.script s.command target.namePrefix).mapError
      .source
    if output.count = 0 then
      Journaled.debug s.verbose ("Nothing documented in " ++ shortenPath h.home target.script)
  | .list => do
    let names ← (Journaled.ofExcept
      (Extract.functionNames h target.script target.namePrefix)).mapError Failure.source
    unless names.isEmpty do
      Journaled.emit [['\n'].intercalate names ++ ['\n']]
  | .usage => do
    let text ← (Usage.render h s.verbose {
      script := target.script
      namePrefix := target.namePrefix
      description := s.description
      options := .standard }).mapError Failure.source
    Journaled.emit [text]

/-- Run the subcommand of `s`. Failures of the library are reported and end the program. -/
def perform (h : Host) (s : Settings) : Journaled Failure Unit :=
  (produce h s).recover Failure.report

/-- `argv` holds a word that asks for help, in whatever role. -/
def mentionsHelp (argv : List Text) : Bool := argv.contains "--help" || argv.contains "-h"

/-- The status with which the program ends when it is told to end with `status`: a command line that
mentions help always ends well. -/
def exitStatus (argv : List Text) (status : Int) : Int := if mentionsHelp argv then 0 else status

/-- Run the command line `argv`. -/
def run (h : Host) (argv : List Text) : Report :=
  match invocation argv with
  | .programHelp => ⟨exitStatus argv 1, programHelp, [], false⟩
  | .version => ⟨0, programVersion ++ "\n", [], false⟩
  | .commandHelp s => ⟨exitStatus argv 1, s.help, [], false⟩
  | .rejected => ⟨exitStatus argv 1, [], [], true⟩
  | .unreadable e => ⟨exitStatus argv 1, [], [⟨.error, e.message⟩], false⟩
  | .run settings =>
    let result := perform h settings
    let stdout := result.written.flatten
    match result.outcome with
    | .ok () => ⟨0, stdout, result.log, false⟩
    | .error (.exit status) => ⟨exitStatus argv status, stdout, result.log, false⟩
    | .error failure =>
      ⟨exitStatus argv 1, stdout, result.log ++ [⟨.error, "Error: " ++ failure.message⟩], false⟩

end CommandLine

end ShellDoc
