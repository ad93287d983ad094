import ShellDoc.CommandLine.Run
import ShellDoc.Proofs.Answer

/-!
# Verbosity

A verbose run does what the same run does quietly, and leaves debug messages on the way.

* `withoutDebug`, `Journaled.quiet`: a log and a run without debug messages. What is taken out of a
  sequence of runs is taken out of each (`Journaled.quiet_bind`), so a run that is put together from
  others is quiet if they are.
* `Config.quiet_load`, `Target.quiet_resolve`, `Extract.quiet_file`, `Usage.quiet_render`,
  `CommandLine.quiet_perform`: without debug messages, a run is the one that is not verbose.
-/

namespace ShellDoc

/-- The messages of `log` that are no debug messages. -/
def withoutDebug (log : List Message) : List Message := log.filter fun m => m.severity ≠ .debug

theorem mem_withoutDebug_iff {log : List Message} {m : Message} :
    m ∈ withoutDebug log ↔ m ∈ log ∧ m.severity ≠ .debug := by
  simp [withoutDebug]

namespace Journaled

variable {ε ε' α β : Type}

/-- The run `x` without its debug messages. -/
def quiet (x : Journaled ε α) : Journaled ε α := { x with log := withoutDebug x.log }

/-- `quiet` leaves a run without debug messages as it was. -/
theorem quiet_eq_self {x : Journaled ε α} (h : ∀ m ∈ x.log, m.severity ≠ .debug) : x.quiet = x := by
  obtain ⟨log, written, outcome⟩ := x
  have hlog : withoutDebug log = log :=
    List.filter_eq_self.2 fun m hm => by simpa using h m hm
  rw [quiet, hlog]

@[simp] theorem quiet_pure (a : α) : (pure a : Journaled ε α).quiet = pure a := rfl

@[simp] theorem quiet_ofExcept (x : Except ε α) : (ofExcept x).quiet = ofExcept x := rfl

@[simp] theorem quiet_emit (chunks : List Text) :
    (emit chunks : Journaled ε Unit).quiet = emit chunks := rfl

@[simp] theorem quiet_debug (verbose : Bool) (text : Text) :
    (debug verbose text : Journaled ε Unit).quiet = debug false text := by
  cases verbose <;> rfl

@[simp] theorem quiet_mapError (f : ε → ε') (x : Journaled ε α) :
    (x.mapError f).quiet = x.quiet.mapError f := rfl

@[simp] theorem quiet_captured (x : Journaled ε α) : x.captured.quiet = x.quiet.captured := rfl

@[simp] theorem quiet_bind (x : Journaled ε α) (f : α → Journaled ε β) :
    (x >>= f).quiet = x.quiet >>= fun a => (f a).quiet := by
  obtain ⟨log, written, outcome⟩ := x
  cases outcome with
  | error e => rfl
  | ok a => exact congrArg (Journaled.mk · _ _) (List.filter_append ..)

theorem quiet_recover (x : Journaled ε α) (f : ε → Journaled ε' α) :
    (x.recover f).quiet = x.quiet.recover fun e => (f e).quiet := by
  obtain ⟨log, written, outcome⟩ := x
  cases outcome with
  | error e => exact congrArg (Journaled.mk · _ _) (List.filter_append ..)
  | ok a => rfl

end Journaled

/-! ## Runs of the library -/

theorem Config.quiet_read (h : Host) (path : Text) : (read h path).quiet = read h path := by
  apply Journaled.quiet_eq_self
  have hreject : ∀ found, ∀ m ∈ (reject path found : Journaled ConfigError Config).log,
      m.severity ≠ .debug := by
    intro found m hm
    rcases List.mem_cons.1 hm with rfl | hm
    · simp
    · obtain ⟨issue, -, rfl⟩ := List.mem_map.1 hm
      simp
  unfold read
  split
  · exact hreject _
  · split
    · exact hreject _
    · rintro m ⟨⟩

theorem Config.quiet_load (h : Host) (verbose : Bool) (start : Text) :
    (load h verbose start).quiet = load h false start := by
  unfold load
  cases findFile h start with
  | none => simp only [Journaled.quiet_bind, Journaled.quiet_debug, Journaled.quiet_pure]
  | some path =>
    simp only [Journaled.quiet_bind, Journaled.quiet_debug, Journaled.quiet_pure, quiet_read]

namespace Target

/-- The second step of `Target.resolve`: say where the script is from, if the config gives it. -/
def note (h : Host) (verbose : Bool) (script : Option Text) (loaded : Config.Loaded) :
    Journaled Failure Unit :=
  match Text.given script, Text.given (script <|> loaded.config.script), loaded.path with
  | none, some s, some path =>
    Journaled.debug verbose
      ("Script " ++ shortenPath h.home s ++ " taken from " ++ shortenPath h.home path)
  | _, _, _ => pure ()

/-- The last step of `Target.resolve`: the target that a command line and a config give together, if
there is a script. -/
def choose (script namePrefix : Option Text) (loaded : Config.Loaded) : Journaled Failure Target :=
  match Text.given (script <|> loaded.config.script) with
  | none => missing
  | some s => pure ⟨s, namePrefix <|> loaded.config.namePrefix⟩

/-- `resolve` is `Config.load`, `note` and `choose`, of which `note` only leaves a message. -/
theorem resolve_eq (h : Host) (verbose : Bool) (script namePrefix : Option Text) (start : Text) :
    resolve h verbose script namePrefix start = (do
      let loaded ← (Config.load h verbose start).mapError .config
      note h verbose script loaded
      choose script namePrefix loaded) := by
  unfold resolve
  refine congrArg _ (funext fun loaded => ?_)
  dsimp only [note, choose]
  -- with or without the note, the choice is the same
  cases Text.given script <;> cases Text.given (script <|> loaded.config.script) <;>
    cases loaded.path <;> rfl

theorem quiet_note (h : Host) (verbose : Bool) (script : Option Text) (loaded : Config.Loaded) :
    (note h verbose script loaded).quiet = note h false script loaded := by
  unfold note
  split
  · exact Journaled.quiet_debug ..
  · rfl

theorem quiet_choose (script namePrefix : Option Text) (loaded : Config.Loaded) :
    (choose script namePrefix loaded).quiet = choose script namePrefix loaded := by
  unfold choose
  split <;> rfl

theorem quiet_resolve (h : Host) (verbose : Bool) (script namePrefix : Option Text)
    (start : Text) :
    (resolve h verbose script namePrefix start).quiet =
      resolve h false script namePrefix start := by
  simp only [resolve_eq, Journaled.quiet_bind, Journaled.quiet_mapError, Config.quiet_load,
    quiet_note, quiet_choose]

end Target

theorem Extract.quiet_file (h : Host) (verbose : Bool) (path : Text) (c : Criterion) :
    (file h verbose path c).quiet = file h false path c := by
  simp only [file, Journaled.quiet_bind, Journaled.quiet_debug, Journaled.quiet_emit,
    Journaled.quiet_ofExcept, Journaled.quiet_pure]

theorem Usage.quiet_render (h : Host) (verbose : Bool) (d : UsageDefinition) :
    (render h verbose d).quiet = render h false d := by
  simp only [render, Journaled.quiet_bind, Journaled.quiet_captured, Extract.quiet_file,
    Journaled.quiet_pure]

theorem CommandLine.quiet_produce (h : Host) (s : Settings) :
    (produce h s).quiet = produce h { s with verbose := false } := by
  unfold produce
  rw [Journaled.quiet_bind, Target.quiet_resolve]
  refine congrArg _ (funext fun target => ?_)
  cases s.subcommand with
  | doc =>
    simp only [Dispatch.help, Journaled.quiet_bind, Journaled.quiet_mapError, Extract.quiet_file]
    refine congrArg _ (funext fun output => ?_)
    split
    · exact Journaled.quiet_debug ..
    · rfl
  | list =>
    simp only [Journaled.quiet_bind, Journaled.quiet_mapError, Journaled.quiet_ofExcept]
    refine congrArg _ (funext fun names => ?_)
    split <;> rfl
  | usage =>
    simp only [Journaled.quiet_bind, Journaled.quiet_mapError, Usage.quiet_render,
      Journaled.quiet_emit]

theorem CommandLine.quiet_perform (h : Host) (s : Settings) :
    (perform h s).quiet = perform h { s with verbose := false } := by
  have hreport : ∀ f : Failure, (f.report : Journaled Failure Unit).quiet = f.report := by
    intro f
    unfold Failure.report
    split <;> rfl
  simp only [perform, Journaled.quiet_recover, quiet_produce, hreport]

/-! ## Scripts -/

namespace Dispatch

variable {α : Type}

theorem conclude_quiet (x : Journaled SourceError α) (f : α → List Text × Number) :
    conclude x.quiet f = (withoutDebug (conclude x f).1, (conclude x f).2) := by
  obtain ⟨log, written, outcome⟩ := x
  cases outcome <;> rfl

theorem Answer.perform_false (h : Host) (verbose : Bool) (d : ScriptDefinition) (a : Answer) :
    a.perform h false d = (withoutDebug (a.perform h verbose d).1, (a.perform h verbose d).2) := by
  cases a with
  | fault e => rfl
  | unknown command => rfl
  | command name handler args options => rfl
  | help command =>
    simp only [perform, Dispatch.help, ← conclude_quiet, Extract.quiet_file]
  | usage => simp only [perform, ← conclude_quiet, Usage.quiet_render]

end Dispatch

/-! ## Verbose and quiet runs side by side -/

/-- The run `x` is `y` with debug messages added: it ends in the same way and writes the same, the
messages are the same but for debug messages, and `y` has none of these. -/
structure Journaled.AddsDebug {ε α : Type} (x y : Journaled ε α) : Prop where
  outcome : x.outcome = y.outcome
  written : x.written = y.written
  log : withoutDebug x.log = withoutDebug y.log
  silent : ∀ m ∈ y.log, m.severity ≠ .debug

theorem Journaled.AddsDebug.of_quiet {ε α : Type} {x y : Journaled ε α} (h : x.quiet = y) :
    x.AddsDebug y := by
  subst h
  refine ⟨rfl, rfl, ?_, fun m hm => (mem_withoutDebug_iff.1 hm).2⟩
  simp [quiet, withoutDebug]

/-- A verbose run only adds debug messages. `Config.load`, `Target.resolve`, `Extract.file`, `help`,
`Usage.render` and a whole subcommand end in the same way and write the same with and without them,
and leave the same messages otherwise; a run that is not verbose leaves no debug messages. So
`Dispatch.run` writes the same to both outputs, too. -/
theorem verbose_adds_only_debug (h : Host) :
    (∀ start, (Config.load h true start).AddsDebug (Config.load h false start)) ∧
      (∀ script namePrefix start,
        (Target.resolve h true script namePrefix start).AddsDebug
          (Target.resolve h false script namePrefix start)) ∧
      (∀ path c, (Extract.file h true path c).AddsDebug (Extract.file h false path c)) ∧
      (∀ script command namePrefix,
        (Dispatch.help h true script command namePrefix).AddsDebug
          (Dispatch.help h false script command namePrefix)) ∧
      (∀ d, (Usage.render h true d).AddsDebug (Usage.render h false d)) ∧
      (∀ s : CommandLine.Settings,
        (CommandLine.perform h { s with verbose := true }).AddsDebug
          (CommandLine.perform h { s with verbose := false })) ∧
      ∀ d argv, (Dispatch.run h true d argv).2 = (Dispatch.run h false d argv).2 ∧
        withoutDebug (Dispatch.run h true d argv).1 = (Dispatch.run h false d argv).1 := by
  refine ⟨fun start => .of_quiet (Config.quiet_load h true start),
    fun script namePrefix start => .of_quiet (Target.quiet_resolve h true script namePrefix start),
    fun path c => .of_quiet (Extract.quiet_file h true path c),
    fun script command namePrefix => .of_quiet (Extract.quiet_file h true script _),
    fun d => .of_quiet (Usage.quiet_render h true d),
    fun s => .of_quiet (CommandLine.quiet_perform h { s with verbose := true }), ?_⟩
  intro d argv
  rw [Dispatch.run_eq_perform_answer, Dispatch.run_eq_perform_answer,
    Dispatch.Answer.perform_false h true]
  exact ⟨rfl, rfl⟩

-- what a verbose run adds
example : (Config.load Dispatch.bareHost true []).log =
    [⟨.debug, ("No fndoc.toml found" : String)⟩] := by decide

end ShellDoc
