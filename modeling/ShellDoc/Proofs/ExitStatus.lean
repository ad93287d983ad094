import ShellDoc.Proofs.FunctionNames
import ShellDoc.Proofs.Verbosity

/-!
# Exit status

A subcommand that cannot be done reports one failure and ends the program with status 1; any other
reports none and ends well. But a command line that mentions help always ends with status 0, also
when the mention is not taken for a request.

* `failures`: what a log reports as failures.
* `CommandLine.obstacle?`: what keeps a subcommand from being done.
* `CommandLine.perform_eq_obstacle`: an obstacle is reported and ends the program, and without one
  the subcommand is done. `CommandLine.run_eq_obstacle` is the same for a command line.
* `CommandLine.ExitsAsReported`: the exit status tells whether a failure was reported.
-/

namespace ShellDoc

/-- The failures that `log` reports. -/
def failures (log : List Message) : List Text :=
  (log.filter fun m => m.severity = .fail).map Message.text

theorem mem_failures_iff {log : List Message} {text : Text} :
    text ∈ failures log ↔ ⟨.fail, text⟩ ∈ log := by
  simp only [failures, List.mem_map, List.mem_filter, decide_eq_true_eq]
  constructor
  · rintro ⟨⟨severity, text⟩, ⟨hm, rfl⟩, rfl⟩
    exact hm
  · intro hm
    exact ⟨_, ⟨hm, rfl⟩, rfl⟩

theorem failures_append (log log' : List Message) :
    failures (log ++ log') = failures log ++ failures log' := by
  simp [failures]

namespace Journaled

variable {ε α β : Type} {x : Journaled ε α}

theorem failures_quiet (x : Journaled ε α) : failures x.quiet.log = failures x.log := by
  simp only [failures, quiet, withoutDebug, List.filter_filter]
  congr 1
  refine List.filter_congr fun m _ => ?_
  cases m.severity <;> decide

/-- If neither `x` nor any `f a` reports failures, `x >>= f` reports none. -/
theorem failures_bind_eq_nil {f : α → Journaled ε β} (hx : failures x.log = [])
    (hf : ∀ a, failures (f a).log = []) : failures (x >>= f).log = [] := by
  cases ho : x.outcome with
  | error e => rw [log_bind_error ho, hx]
  | ok a => rw [log_bind_ok ho, failures_append, hx, hf]; rfl

end Journaled

/-! ## The parts of a subcommand -/

theorem Config.failures_load (h : Host) (verbose : Bool) (start : Text) :
    failures (load h verbose start).log = [] := by
  have hreject : ∀ path found,
      failures (reject path found : Journaled ConfigError Config).log = [] := by
    intro path found
    simp [failures, reject]
  have hread : ∀ path, failures (read h path).log = [] := by
    intro path
    unfold read
    split
    · exact hreject path _
    · split
      · exact hreject path _
      · rfl
  rw [← Journaled.failures_quiet, quiet_load]
  unfold load
  split
  · rfl
  · exact Journaled.failures_bind_eq_nil rfl fun _ =>
      Journaled.failures_bind_eq_nil (hread _) fun _ => rfl

theorem Extract.failures_file (h : Host) (verbose : Bool) (path : Text) (c : Criterion) :
    failures (file h verbose path c).log = [] := by
  rw [← Journaled.failures_quiet, quiet_file]
  exact Journaled.failures_bind_eq_nil rfl fun _ => Journaled.failures_bind_eq_nil rfl fun _ =>
    Journaled.failures_bind_eq_nil rfl fun _ => rfl

theorem Usage.failures_render (h : Host) (verbose : Bool) (d : UsageDefinition) :
    failures (render h verbose d).log = [] :=
  Journaled.failures_bind_eq_nil (Extract.failures_file ..) fun _ => rfl

namespace Target

variable {h : Host} {verbose : Bool} {script namePrefix : Option Text} {start : Text}

theorem failures_note (loaded : Config.Loaded) :
    failures (note h verbose script loaded).log = [] := by
  rw [← Journaled.failures_quiet, quiet_note]
  unfold note
  split <;> rfl

theorem outcome_note (loaded : Config.Loaded) :
    (note h verbose script loaded).outcome = .ok () := by
  unfold note
  split
  · exact Journaled.outcome_debug ..
  · rfl

/-- `resolve` fails with a config that cannot be used. -/
theorem resolve_of_load_error {e : ConfigError}
    (he : (Config.load h verbose start).outcome = .error e) :
    (resolve h verbose script namePrefix start).outcome = .error (.config e) ∧
      failures (resolve h verbose script namePrefix start).log = [] := by
  have hload : ((Config.load h verbose start).mapError Failure.config).outcome =
      .error (.config e) := by
    simp only [Journaled.mapError, he, Except.mapError]
  rw [resolve_eq]
  constructor
  · rw [Journaled.outcome_bind, hload]
    rfl
  · rw [Journaled.log_bind_error hload]
    exact Config.failures_load ..

/-- With a config that can be used, the rest of `resolve` is `choose`. -/
theorem resolve_of_load_ok {loaded : Config.Loaded}
    (hl : (Config.load h verbose start).outcome = .ok loaded) (script namePrefix : Option Text) :
    (resolve h verbose script namePrefix start).outcome =
        (choose script namePrefix loaded).outcome ∧
      (resolve h verbose script namePrefix start).log = (Config.load h verbose start).log ++
        ((note h verbose script loaded).log ++ (choose script namePrefix loaded).log) := by
  simp only [resolve_eq, bind, Journaled.bind, Journaled.mapError, hl, Except.mapError,
    outcome_note, and_self]

/-- With a config that can be used, only `choose` can have a failure to report. -/
theorem failures_resolve_of_load_ok {loaded : Config.Loaded}
    (hl : (Config.load h verbose start).outcome = .ok loaded) (script namePrefix : Option Text) :
    failures (resolve h verbose script namePrefix start).log =
      failures (choose script namePrefix loaded).log := by
  rw [(resolve_of_load_ok hl ..).2, failures_append, failures_append, failures_note,
    Config.failures_load, List.nil_append, List.nil_append]

end Target

namespace CommandLine

variable {h : Host} {s : Settings} {target : Target}

/-! ## Subcommands -/

/-- What keeps a subcommand from being done: a config that cannot be used, no script, or a script
that cannot be read. -/
def obstacle? (h : Host) (s : Settings) : Option Text :=
  match (Config.load h s.verbose []).outcome with
  | .error e => some e.message
  | .ok loaded =>
    match Text.given (s.script <|> loaded.config.script) with
    | none => some "No script given"
    | some script =>
      match Extract.sourceLines h script with
      | .error e => some e.message
      | .ok _ => none

/-- With its target known, `produce` fails only with `sourceLines`. -/
theorem outcome_produce
    (ht : (Target.resolve h s.verbose s.script s.namePrefix []).outcome = .ok target) :
    (produce h s).outcome =
      ((Extract.sourceLines h target.script).mapError Failure.source).map fun _ => () := by
  unfold produce
  rw [Journaled.outcome_bind, ht]
  simp only [Except.bind]
  cases s.subcommand with
  | doc =>
    simp only [Journaled.outcome_bind, Journaled.mapError, Dispatch.outcome_help]
    cases Extract.sourceLines h target.script with
    | error e => rfl
    | ok lines =>
      simp only [Except.mapError, Except.map, Except.bind]
      split
      · exact Journaled.outcome_debug ..
      · rfl
  | list =>
    simp only [Journaled.outcome_bind, Journaled.mapError, Journaled.ofExcept,
      Extract.functionNames_eq_map]
    cases Extract.sourceLines h target.script with
    | error e => rfl
    | ok lines =>
      simp only [Except.mapError, Except.map, Except.bind]
      split <;> rfl
  | usage =>
    simp only [Journaled.outcome_bind, Journaled.mapError, Usage.outcome_render]
    cases Extract.sourceLines h target.script <;> rfl

/-- Without a target, `produce` fails as `resolve` does. -/
theorem produce_of_resolve_error {f : Failure}
    (ht : (Target.resolve h s.verbose s.script s.namePrefix []).outcome = .error f) :
    (produce h s).outcome = .error f ∧
      (produce h s).log = (Target.resolve h s.verbose s.script s.namePrefix []).log := by
  unfold produce
  rw [Journaled.outcome_bind, Journaled.log_bind_error ht, ht]
  exact ⟨rfl, rfl⟩

/-- With its target known, `produce` reports only the failures of `resolve`. -/
theorem failures_produce
    (ht : (Target.resolve h s.verbose s.script s.namePrefix []).outcome = .ok target) :
    failures (produce h s).log =
      failures (Target.resolve h s.verbose s.script s.namePrefix []).log := by
  unfold produce
  rw [Journaled.log_bind_ok ht, failures_append]
  -- what comes after the target is found has nothing to report
  refine List.append_right_eq_self.2 ?_
  cases s.subcommand with
  | doc =>
    refine Journaled.failures_bind_eq_nil (Extract.failures_file ..) fun output => ?_
    split
    · cases s.verbose <;> rfl
    · rfl
  | list =>
    refine Journaled.failures_bind_eq_nil rfl fun names => ?_
    split <;> rfl
  | usage => exact Journaled.failures_bind_eq_nil (Usage.failures_render ..) fun _ => rfl

theorem perform_of_ok (hp : (produce h s).outcome = .ok ()) :
    perform h s = ⟨(produce h s).log, (produce h s).written, .ok ()⟩ := by
  simp only [perform, Journaled.recover, hp]

/-- `perform` reports a failure that has a `code?` and ends the program. -/
theorem perform_of_failure {f : Failure} {code : Text} (hp : (produce h s).outcome = .error f)
    (hc : f.code? = some code) :
    perform h s =
      ⟨(produce h s).log ++ [⟨.fail, f.message⟩], (produce h s).written, .error (.exit 1)⟩ := by
  simp only [perform, Journaled.recover, hp, Failure.report, hc, List.append_nil]

theorem perform_of_exit {status : Int} (hp : (produce h s).outcome = .error (.exit status)) :
    perform h s = ⟨(produce h s).log, (produce h s).written, .error (.exit status)⟩ := by
  simp only [perform, Journaled.recover, hp, Failure.report, Failure.code?, Journaled.raise,
    List.append_nil]

section Causes

variable {loaded : Config.Loaded} {script : Text}

theorem perform_of_config_error {e : ConfigError}
    (he : (Config.load h s.verbose []).outcome = .error e) :
    (perform h s).outcome = .error (.exit 1) ∧ failures (perform h s).log = [e.message] := by
  obtain ⟨ht, hfail⟩ := Target.resolve_of_load_error he
  obtain ⟨hp, hlog⟩ := produce_of_resolve_error ht
  rw [perform_of_failure hp rfl, hlog, failures_append, hfail]
  exact ⟨rfl, rfl⟩

theorem perform_of_no_script (hl : (Config.load h s.verbose []).outcome = .ok loaded)
    (hs : Text.given (s.script <|> loaded.config.script) = none) :
    (perform h s).outcome = .error (.exit 1) ∧
      failures (perform h s).log = [("No script given" : String)] := by
  have hchoose : Target.choose s.script s.namePrefix loaded = Target.missing := by
    simp only [Target.choose, hs]
  have ht := (Target.resolve_of_load_ok hl s.script s.namePrefix).1
  have hfail := Target.failures_resolve_of_load_ok hl s.script s.namePrefix
  rw [hchoose] at ht hfail
  obtain ⟨hp, hlog⟩ := produce_of_resolve_error ht
  rw [perform_of_exit hp, hlog, hfail]
  exact ⟨rfl, rfl⟩

/-- `resolve` succeeds if there is a script. -/
theorem resolve_of_script (hl : (Config.load h s.verbose []).outcome = .ok loaded)
    (hs : Text.given (s.script <|> loaded.config.script) = some script) :
    (Target.resolve h s.verbose s.script s.namePrefix []).outcome =
        .ok ⟨script, s.namePrefix <|> loaded.config.namePrefix⟩ ∧
      failures (Target.resolve h s.verbose s.script s.namePrefix []).log = [] := by
  have hchoose : Target.choose s.script s.namePrefix loaded =
      pure ⟨script, s.namePrefix <|> loaded.config.namePrefix⟩ := by
    simp only [Target.choose, hs]
  have ht := (Target.resolve_of_load_ok hl s.script s.namePrefix).1
  have hfail := Target.failures_resolve_of_load_ok hl s.script s.namePrefix
  rw [hchoose] at ht hfail
  exact ⟨ht, hfail⟩

theorem perform_of_source_error {e : SourceError}
    (hl : (Config.load h s.verbose []).outcome = .ok loaded)
    (hs : Text.given (s.script <|> loaded.config.script) = some script)
    (he : Extract.sourceLines h script = .error e) :
    (perform h s).outcome = .error (.exit 1) ∧ failures (perform h s).log = [e.message] := by
  obtain ⟨ht, hfail⟩ := resolve_of_script hl hs
  have hp : (produce h s).outcome = .error (.source e) := by
    rw [outcome_produce ht, he]
    rfl
  rw [perform_of_failure hp rfl, failures_append, failures_produce ht, hfail]
  exact ⟨rfl, rfl⟩

theorem perform_of_lines {lines : List Text}
    (hl : (Config.load h s.verbose []).outcome = .ok loaded)
    (hs : Text.given (s.script <|> loaded.config.script) = some script)
    (hlines : Extract.sourceLines h script = .ok lines) :
    (perform h s).outcome = .ok () ∧ failures (perform h s).log = [] := by
  obtain ⟨ht, hfail⟩ := resolve_of_script hl hs
  have hp := outcome_produce ht
  rw [hlines] at hp
  rw [perform_of_ok hp, failures_produce ht]
  exact ⟨rfl, hfail⟩

end Causes

/-- `perform` reports an `obstacle?`, and nothing else, and ends the program with status 1; without
an obstacle it reports nothing and succeeds. -/
theorem perform_eq_obstacle (h : Host) (s : Settings) :
    failures (perform h s).log = (obstacle? h s).toList ∧
      ((∃ text, obstacle? h s = some text) ∧ (perform h s).outcome = .error (.exit 1) ∨
        obstacle? h s = none ∧ (perform h s).outcome = .ok ()) := by
  unfold obstacle?
  cases hl : (Config.load h s.verbose []).outcome with
  | error e =>
    obtain ⟨ho, hf⟩ := perform_of_config_error hl
    exact ⟨hf, .inl ⟨⟨_, rfl⟩, ho⟩⟩
  | ok loaded =>
    cases hs : Text.given (s.script <|> loaded.config.script) with
    | none =>
      obtain ⟨ho, hf⟩ := perform_of_no_script hl hs
      simp only [hs]
      exact ⟨hf, .inl ⟨⟨_, rfl⟩, ho⟩⟩
    | some script =>
      cases hlines : Extract.sourceLines h script with
      | error e =>
        obtain ⟨ho, hf⟩ := perform_of_source_error hl hs hlines
        simp only [hs, hlines]
        exact ⟨hf, .inl ⟨⟨_, rfl⟩, ho⟩⟩
      | ok lines =>
        obtain ⟨ho, hf⟩ := perform_of_lines hl hs hlines
        simp only [hs, hlines]
        exact ⟨hf, .inr ⟨trivial, ho⟩⟩

/-! ## Command lines -/

variable {argv : List Text}

/-- `run` reports a failure. -/
def ReportsFailure (h : Host) (argv : List Text) : Prop :=
  ∃ text, ⟨.fail, text⟩ ∈ (run h argv).log

/-- The exit status of `run` tells whether a failure was reported: it is 1 if one was, and 0 if a
subcommand was run and none was. -/
def ExitsAsReported (h : Host) (argv : List Text) : Prop :=
  (ReportsFailure h argv → (run h argv).exit = 1) ∧
    ∀ s, invocation argv = .run s → ¬ReportsFailure h argv → (run h argv).exit = 0

/-- If `argv` asks for a subcommand, `run` shows what `perform` reports; it ends with `exitStatus`
if there is an `obstacle?`, and well otherwise. -/
theorem run_eq_obstacle (hi : invocation argv = .run s) :
    (run h argv).log = (perform h s).log ∧
      (run h argv).exit = if (obstacle? h s).isSome then exitStatus argv 1 else 0 := by
  rcases (perform_eq_obstacle h s).2 with ⟨⟨text, ho⟩, hp⟩ | ⟨ho, hp⟩
  · simp [run, hi, hp, ho]
  · simp [run, hi, hp, ho]

/-- The failures that `run` reports are the obstacles to the subcommand that it is asked for. -/
theorem fail_mem_log_run_iff {text : Text} :
    ⟨.fail, text⟩ ∈ (run h argv).log ↔
      ∃ s, invocation argv = .run s ∧ obstacle? h s = some text := by
  constructor
  · intro hm
    cases hi : invocation argv with
    | run s =>
      rw [(run_eq_obstacle hi).1, ← mem_failures_iff, (perform_eq_obstacle h s).1] at hm
      exact ⟨s, rfl, by simpa using hm⟩
    | programHelp => simp [run, hi] at hm
    | version => simp [run, hi] at hm
    | commandHelp s => simp [run, hi] at hm
    | rejected => simp [run, hi] at hm
    | unreadable e => simp [run, hi] at hm
  · rintro ⟨s, hi, ho⟩
    rw [(run_eq_obstacle hi).1, ← mem_failures_iff, (perform_eq_obstacle h s).1, ho]
    simp

theorem exit_of_reportsFailure (hr : ReportsFailure h argv) :
    (run h argv).exit = exitStatus argv 1 := by
  obtain ⟨text, hm⟩ := hr
  obtain ⟨s, hi, ho⟩ := fail_mem_log_run_iff.1 hm
  rw [(run_eq_obstacle hi).2, ho]
  rfl

theorem exit_of_not_reportsFailure (hi : invocation argv = .run s)
    (hr : ¬ReportsFailure h argv) : (run h argv).exit = 0 := by
  cases ho : obstacle? h s with
  | none =>
    rw [(run_eq_obstacle hi).2, ho]
    rfl
  | some text => exact absurd ⟨text, fail_mem_log_run_iff.2 ⟨s, hi, ho⟩⟩ hr

/-- `run` reports the failures of a subcommand that was to be run: a config that cannot be used, no
script, or a script that cannot be read. The program then ends with status 1 unless
`mentionsHelp argv`, and it ends with status 0 if a subcommand was run and none is reported. So
`ExitsAsReported` holds, except when a failure was reported and help is mentioned. -/
theorem exit_status_unless_help_mentioned (h : Host) (argv : List Text) :
    (∀ text, ⟨.fail, text⟩ ∈ (run h argv).log ↔
        ∃ s, invocation argv = .run s ∧ obstacle? h s = some text) ∧
      (ReportsFailure h argv → (run h argv).exit = if mentionsHelp argv then 0 else 1) ∧
      (∀ s, invocation argv = .run s → ¬ReportsFailure h argv → (run h argv).exit = 0) ∧
      (ExitsAsReported h argv ↔ ¬(mentionsHelp argv = true ∧ ReportsFailure h argv)) := by
  refine ⟨fun _ => fail_mem_log_run_iff, exit_of_reportsFailure,
    fun _ => exit_of_not_reportsFailure, ?_⟩
  constructor
  · rintro ⟨hfail, -⟩ ⟨hm, hr⟩
    have hexit := hfail hr
    rw [exit_of_reportsFailure hr, exitStatus, if_pos hm] at hexit
    cases hexit
  · intro hn
    refine ⟨fun hr => ?_, fun _ => exit_of_not_reportsFailure⟩
    have hm : ¬mentionsHelp argv = true := fun hm => hn ⟨hm, hr⟩
    rw [exit_of_reportsFailure hr, exitStatus, if_neg hm]

/-- Documentation is asked for of a script that is named `--help`. -/
def dividedArguments : List Text := [("doc" : String), ['-', '-'], ("--help" : String)]

/-- There is no script `--help`, which is reported, and yet the program ends well. -/
theorem unreadable_script_exits_well :
    (run Dispatch.bareHost dividedArguments).exit = 0 ∧
      (run Dispatch.bareHost dividedArguments).log =
        [⟨.fail, SourceError.message
          ⟨("--help" : String), .read (.path .noEntry ("--help" : String))⟩⟩] ∧
      ¬ExitsAsReported Dispatch.bareHost dividedArguments := by
  have hexit : (run Dispatch.bareHost dividedArguments).exit = 0 := by decide
  refine ⟨hexit, rfl, fun ⟨hfail, _⟩ => ?_⟩
  have hreported : ReportsFailure Dispatch.bareHost dividedArguments :=
    ⟨_, List.mem_singleton_self _⟩
  have hone := hfail hreported
  rw [hexit] at hone
  cases hone

end CommandLine

end ShellDoc
