import ShellDoc.Config

/-!
# What to work on

The script and the prefix of a run: from the command line, or else from the nearest config.
-/

namespace ShellDoc

/-- The script to read, and the prefix of its commands. -/
structure Target where
  script : Text
  namePrefix : Option Text
deriving DecidableEq, Repr

/-- `path` with `home` in front of it written as a tilde. -/
def shortenPath (home path : Text) : Text :=
  match Text.stripPrefix? home path with
  | some rest => '~' :: rest
  | none => path

namespace Target

/-- Say that there is no script, and how to give one; then end. -/
def missing {α : Type} : Journaled Failure α where
  log := [
    ⟨.fail, "No script given"⟩,
    ⟨.info, "Pass a script path, or set script in fndoc.toml"⟩]
  written := []
  outcome := .error (.exit 1)

/-- `resolveScriptTarget`: the target of a run. What the command line gives comes before the config;
a config that cannot be used stops the run in any case. -/
def resolve (h : Host) (verbose : Bool) (script namePrefix : Option Text) (start : Text) :
    Journaled Failure Target := do
  let loaded ← (Config.load h verbose start).mapError .config
  let chosen := script <|> loaded.config.script
  match Text.given script, Text.given chosen, loaded.path with
  | none, some s, some path =>
    Journaled.debug verbose
      ("Script " ++ shortenPath h.home s ++ " taken from " ++ shortenPath h.home path)
  | _, _, _ => pure ()
  match Text.given chosen with
  | none => missing
  | some s => return ⟨s, namePrefix <|> loaded.config.namePrefix⟩

end Target

/-- `exitWithError`: report the failure `f` and end. One that the library does not know goes on as
it is. -/
def Failure.report {α : Type} (f : Failure) : Journaled Failure α :=
  match f.code? with
  | some _ => ⟨[⟨.fail, f.message⟩], [], .error (.exit 1)⟩
  | none => .raise f

end ShellDoc
