import ShellDoc.Proofs.ConfigSearch
import ShellDoc.Proofs.ExitStatus

/-!
# The target of a run

What the command line gives comes before what the config says, and nothing else matters.

* `Config.isAbsolute_of_load`: a script from a config is an absolute path.
* `Config.load_of_isAbsolute`, `Target.resolve_of_isAbsolute`: for a search from an absolute path
  the working directory is of no account.
* `Target.Lacks`: there is no script. `Target.resolve_of_lacks` and `Target.resolve_of_not_lacks`
  say what the target is.
-/

namespace ShellDoc

namespace Text

variable {t : Option Text} {s : Text}

theorem given_eq_some_iff : given t = some s ↔ t = some s ∧ s ≠ [] := by
  simp [given, Option.filter_eq_some_iff]

theorem given_eq_none_iff : given t = none ↔ t = none ∨ t = some [] := by
  cases t with
  | none => simp [given]
  | some s => simp [given, Option.filter]

end Text

namespace Config

variable {h : Host} {verbose : Bool} {path start s : Text} {config : Config} {loaded : Loaded}

/-! ## Loading -/

theorem isAbsolute_of_read (hr : (read h path).outcome = .ok config)
    (hs : config.script = some s) : Path.isAbsolute s = true := by
  unfold read at hr
  split at hr
  · cases hr
  · split at hr
    · cases hr
    · cases hr
      obtain ⟨given, -, rfl⟩ := Option.map_eq_some_iff.1 hs
      exact AbsPath.isAbsolute_render _

theorem outcome_load_of_none (hf : findFile h start = none) :
    (load h verbose start).outcome = .ok ⟨{}, none⟩ := by
  simp only [load, hf, Journaled.outcome_bind, Journaled.outcome_debug]
  rfl

theorem outcome_load_of_some (hf : findFile h start = some path) :
    (load h verbose start).outcome =
      (read h path).outcome.map fun config => ⟨config, some path⟩ := by
  simp only [load, hf, Journaled.outcome_bind, Journaled.outcome_debug]
  cases (read h path).outcome <;> rfl

/-- `load` gives an absolute path for a script. -/
theorem isAbsolute_of_load (hl : (load h verbose start).outcome = .ok loaded)
    (hs : loaded.config.script = some s) : Path.isAbsolute s = true := by
  cases hf : findFile h start with
  | none =>
    rw [outcome_load_of_none hf] at hl
    cases hl
    cases hs
  | some path =>
    rw [outcome_load_of_some hf] at hl
    cases hr : (read h path).outcome with
    | error e =>
      rw [hr] at hl
      cases hl
    | ok config =>
      rw [hr] at hl
      cases hl
      exact isAbsolute_of_read hr hs

theorem read_of_isAbsolute (hp : Path.isAbsolute path = true) (h : Host) (cwd : AbsPath) :
    read { h with cwd } path = read h path := by
  simp only [read, readDocument, Host.readText_of_isAbsolute hp,
    AbsPath.resolve_of_isAbsolute (Path.isAbsolute_dirname hp) cwd h.cwd]

/-- `load` from an absolute path is the same in every working directory. -/
theorem load_of_isAbsolute (hs : Path.isAbsolute start = true) (h : Host) (verbose : Bool)
    (cwd : AbsPath) : load { h with cwd } verbose start = load h verbose start := by
  unfold load
  rw [findFile_of_isAbsolute hs h cwd]
  cases hf : findFile h start with
  | none => rfl
  | some path => simp only [read_of_isAbsolute (isAbsolute_of_findFile hf) h cwd]

end Config

namespace Target

variable {h : Host} {verbose : Bool} {script namePrefix : Option Text} {start s : Text}
  {loaded : Config.Loaded}

/-- There is no script: the command line gives an empty one, or neither it nor the config gives
any. -/
def Lacks (script : Option Text) (loaded : Config.Loaded) : Prop :=
  script = some [] ∨ script = none ∧ loaded.config.script = none

/-! ## The choice of a script -/

/-- `given` drops only an empty script of the command line, for an absolute path is not empty. -/
theorem given_eq_none_iff_lacks (hl : (Config.load h verbose start).outcome = .ok loaded) :
    Text.given (script <|> loaded.config.script) = none ↔ Lacks script loaded := by
  rw [Text.given_eq_none_iff, Lacks]
  cases script with
  | some s => simp
  | none =>
    have hne : loaded.config.script ≠ some [] := fun e =>
      absurd (Config.isAbsolute_of_load hl e) (by decide)
    simp [hne]

theorem choose_of_lacks (hl : (Config.load h verbose start).outcome = .ok loaded)
    (hn : Lacks script loaded) : choose script namePrefix loaded = missing := by
  simp only [choose, (given_eq_none_iff_lacks hl).2 hn]

theorem note_of_lacks (hl : (Config.load h verbose start).outcome = .ok loaded)
    (hn : Lacks script loaded) : note h verbose script loaded = pure () := by
  unfold note
  rw [(given_eq_none_iff_lacks hl).2 hn]
  split
  · next hsome _ => cases hsome
  · rfl

/-- `resolve` without a script says so and ends. -/
theorem resolve_of_lacks (hl : (Config.load h verbose start).outcome = .ok loaded)
    (hn : Lacks script loaded) :
    (resolve h verbose script namePrefix start).outcome = .error (.exit 1) ∧
      (resolve h verbose script namePrefix start).log =
        (Config.load h verbose start).log ++ (missing : Journaled Failure Target).log := by
  obtain ⟨houtcome, hlog⟩ := resolve_of_load_ok hl script namePrefix
  rw [houtcome, hlog, note_of_lacks hl hn, choose_of_lacks hl hn]
  exact ⟨rfl, rfl⟩

/-- `resolve` with a script gives a target. What the command line gives comes first. -/
theorem resolve_of_not_lacks (hl : (Config.load h verbose start).outcome = .ok loaded)
    (hn : ¬Lacks script loaded) (namePrefix : Option Text) :
    ∃ s, (script <|> loaded.config.script) = some s ∧
      (resolve h verbose script namePrefix start).outcome =
        .ok ⟨s, namePrefix <|> loaded.config.namePrefix⟩ := by
  rw [← given_eq_none_iff_lacks hl] at hn
  obtain ⟨s, hs⟩ := Option.ne_none_iff_exists'.1 hn
  refine ⟨s, (Text.given_eq_some_iff.1 hs).1, ?_⟩
  rw [(resolve_of_load_ok hl ..).1]
  simp only [choose, hs]
  rfl

theorem resolve_eq_config_error_iff {e : ConfigError} :
    (resolve h verbose script namePrefix start).outcome = .error (.config e) ↔
      (Config.load h verbose start).outcome = .error e := by
  constructor
  · intro hr
    cases hl : (Config.load h verbose start).outcome with
    | error e' =>
      rw [(resolve_of_load_error hl).1] at hr
      cases hr
      rfl
    | ok loaded =>
      by_cases hn : Lacks script loaded
      · rw [(resolve_of_lacks hl hn).1] at hr
        cases hr
      · obtain ⟨s, -, hok⟩ := resolve_of_not_lacks hl hn namePrefix
        rw [hok] at hr
        cases hr
  · exact fun he => (resolve_of_load_error he).1

theorem resolve_eq_exit_iff (hl : (Config.load h verbose start).outcome = .ok loaded) :
    (resolve h verbose script namePrefix start).outcome = .error (.exit 1) ↔
      Lacks script loaded := by
  refine ⟨fun hr => ?_, fun hn => (resolve_of_lacks hl hn).1⟩
  by_contra hn
  obtain ⟨s, -, hok⟩ := resolve_of_not_lacks hl hn namePrefix
  rw [hok] at hr
  cases hr

theorem resolve_of_isAbsolute (hs : Path.isAbsolute start = true) (h : Host) (verbose : Bool)
    (script namePrefix : Option Text) (cwd : AbsPath) :
    resolve { h with cwd } verbose script namePrefix start =
      resolve h verbose script namePrefix start := by
  simp only [resolve_eq, Config.load_of_isAbsolute hs]
  rfl

/-- `resolve` with both given on the command line does not look at a config that can be used. -/
theorem resolve_of_given {p : Text} (hs : s ≠ [])
    (hl : (Config.load h verbose start).outcome = .ok loaded) :
    (resolve h verbose (some s) (some p) start).outcome = .ok ⟨s, some p⟩ := by
  have hn : ¬Lacks (some s) loaded := by simp [Lacks, hs]
  obtain ⟨s', hs', hok⟩ := resolve_of_not_lacks hl hn (some p)
  cases hs'
  exact hok

/-- `resolve` takes what the command line gives before what the config says, and nothing else
matters. A config that cannot be used stops it, whatever is given. Otherwise it ends the run, after
saying so, exactly if there is no script (`Lacks`); else the target is the script of the command
line or that of the config, an absolute path, and the prefix likewise, also when it is given as
empty. For a search from an absolute path the working directory is of no account. With a script and
a prefix given, `resolve` is the same on any two hosts on which `load` does not fail. -/
theorem resolve_prefers_arguments (h : Host) (verbose : Bool) (script namePrefix : Option Text)
    (start : Text) :
    (∀ e, (resolve h verbose script namePrefix start).outcome = .error (.config e) ↔
        (Config.load h verbose start).outcome = .error e) ∧
      (∀ loaded, (Config.load h verbose start).outcome = .ok loaded →
        ((resolve h verbose script namePrefix start).outcome = .error (.exit 1) ↔
          Lacks script loaded) ∧
        (Lacks script loaded →
          (resolve h verbose script namePrefix start).log = (Config.load h verbose start).log ++
            [⟨.fail, ("No script given" : String)⟩,
              ⟨.info, ("Pass a script path, or set script in fndoc.toml" : String)⟩]) ∧
        (¬Lacks script loaded → ∃ s, (script <|> loaded.config.script) = some s ∧
          (resolve h verbose script namePrefix start).outcome =
            .ok ⟨s, namePrefix <|> loaded.config.namePrefix⟩) ∧
        ∀ s, loaded.config.script = some s → Path.isAbsolute s = true) ∧
      (Path.isAbsolute start = true → ∀ cwd,
        Config.load { h with cwd } verbose start = Config.load h verbose start ∧
          resolve { h with cwd } verbose script namePrefix start =
            resolve h verbose script namePrefix start) ∧
      ∀ s p, s ≠ [] → script = some s → namePrefix = some p →
        ∀ other : Host, ∀ loaded loaded', (Config.load h verbose start).outcome = .ok loaded →
          (Config.load other verbose start).outcome = .ok loaded' →
          (resolve h verbose script namePrefix start).outcome =
            (resolve other verbose script namePrefix start).outcome := by
  refine ⟨fun e => resolve_eq_config_error_iff, fun loaded hl => ?_, fun hs cwd => ?_, ?_⟩
  · exact ⟨resolve_eq_exit_iff hl, fun hn => (resolve_of_lacks hl hn).2,
      fun hn => resolve_of_not_lacks hl hn namePrefix, fun s => Config.isAbsolute_of_load hl⟩
  · exact ⟨Config.load_of_isAbsolute hs h verbose cwd,
      resolve_of_isAbsolute hs h verbose script namePrefix cwd⟩
  · rintro s p hs rfl rfl other loaded loaded' hl hl'
    rw [resolve_of_given hs hl, resolve_of_given hs hl']

end Target

end ShellDoc
