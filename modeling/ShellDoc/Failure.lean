import ShellDoc.Host
import ShellDoc.Options.Parse
import ShellDoc.Datum

/-!
# Failures

Why a run fails. The library's own failures are reported to the user; anything else is unexpected.

* `SourceError`: a script cannot be read.
* `ConfigError`: a config file cannot be read or does not say what it should.
* `Failure`: any of these, an error of a script's own, or the end of the program.
-/

namespace ShellDoc

/-- What made a script unreadable. -/
inductive Cause where
  /-- The file itself. -/
  | read (fault : ReadFault)
  /-- An error, known by its message. -/
  | error (message : Text)
  /-- A value that is no error. -/
  | value (datum : Datum)
  /-- Nothing is known. -/
  | unknown

/-- `describeCause`: the wording of a cause. -/
def Cause.message : Cause → Text
  | .read fault => fault.message
  | .error message => message
  | .value datum => datum.toText
  | .unknown => "unknown error"

/-- `SourceReadError`: the path of the script as it was given, and why it cannot be read. -/
structure SourceError where
  file : Text
  cause : Cause

/-- The wording of a source error. -/
def SourceError.message (e : SourceError) : Text :=
  "Cannot read script source " ++ e.file ++ ": " ++ e.cause.message

/-- `ConfigError`: the path of a config file and everything that is wrong with it. -/
structure ConfigError where
  path : Text
  issues : List Text
deriving DecidableEq, Repr

/-- The wording of a config error. -/
def ConfigError.message (e : ConfigError) : Text := "Invalid config in " ++ e.path

/-- Why a run ends early. -/
inductive Failure where
  | source (e : SourceError)
  | option (e : OptionError)
  | config (e : ConfigError)
  /-- Another failure that is reported under one of the codes. -/
  | other (message code : Text)
  /-- An error that the library does not know. -/
  | unexpected (message : Text)
  /-- The program was told to end with this status. -/
  | exit (status : Int)

namespace Failure

/-- The wording of a failure. -/
def message : Failure → Text
  | .source e => e.message
  | .option e => e.message
  | .config e => e.message
  | .other message _ => message
  | .unexpected message => message
  | .exit status =>
    "exit " ++ (if status < 0 then '-' :: Text.ofNat status.natAbs else Text.ofNat status.natAbs)

/-- The code under which the library reports a failure. Others have none. -/
def code? : Failure → Option Text
  | .source _ => some "SOURCE_UNREADABLE"
  | .option _ => some "INVALID_OPTION"
  | .config _ => some "INVALID_CONFIG"
  | .other _ code => some code
  | .unexpected _ => none
  | .exit _ => none

end Failure

end ShellDoc
