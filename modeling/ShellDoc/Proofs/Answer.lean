import ShellDoc.Dispatch
import ShellDoc.Proofs.Extraction

/-!
# What a command line is answered

Every command line of a script gets one of five answers.

* `Dispatch.Answers`: which one, rule by rule. `Dispatch.answer` finds it, and no other rule applies
  (`Answers.eq_answer`).
* `Dispatch.Ends`: what an answer writes and calls, and how it ends. Help and usage are made from
  the script and fail with the reading of it; the other answers do not look at a file.
* `Dispatch.run_eq_perform_answer`: a run finds its `answer` and performs it, and `Ends` says what
  comes of that (`ends_iff`).
-/

namespace ShellDoc

/-- How a run ends with a reply: with the status, with zero if there is none, or with the error that
the command has raised. -/
def Reply.ending : Reply → Except Failure Number
  | .status n => .ok n
  | .done => .ok 0
  | .raised message => .error (.unexpected message)

namespace Usage

/-- The text of `render`, given the lines of the script. -/
def ofLines (h : Host) (d : UsageDefinition) (lines : List Text) : Text :=
  assemble (sections h.cwd d
    (commandsText (Extract.write (scan { namePrefix := d.namePrefix } lines))))

variable {h : Host} {d : UsageDefinition}

theorem outcome_render (h : Host) (verbose : Bool) (d : UsageDefinition) :
    (render h verbose d).outcome = (Extract.sourceLines h d.script).map (ofLines h d) := by
  unfold render Journaled.captured
  rw [Journaled.outcome_bind, Extract.outcome_file]
  cases Extract.sourceLines h d.script <;> rfl

theorem outcome_render_of_ok {lines : List Text} (hl : Extract.sourceLines h d.script = .ok lines)
    (verbose : Bool) : (render h verbose d).outcome = .ok (ofLines h d lines) := by
  rw [outcome_render, hl]
  rfl

theorem outcome_render_of_error {e : SourceError} (he : Extract.sourceLines h d.script = .error e)
    (verbose : Bool) : (render h verbose d).outcome = .error e := by
  rw [outcome_render, he]
  rfl

/-- `render` writes nothing, whether or not the script can be read. -/
theorem written_render (h : Host) (verbose : Bool) (d : UsageDefinition) :
    (render h verbose d).written = [] :=
  Journaled.written_bind_of_silent (fun _ => rfl) _

end Usage

namespace Dispatch

/-! ## Answers -/

/-- What a command line can be answered. -/
inductive Answer where
  /-- An argument has a fault. -/
  | fault (e : OptionError)
  /-- The documentation of the named command, or of all. -/
  | help (command : Option Text)
  /-- The usage text, when no command is named. -/
  | usage
  /-- There is no such command. -/
  | unknown (command : Text)
  /-- The command is run. -/
  | command (name : Text) (handler : Command) (args : List Text) (options : ParsedOptions)

/-- `parseOptions` reads `argv` as `p`, which does not ask for help. -/
structure ReadsPlain (d : ScriptDefinition) (argv : List Text) (p : ParsedArguments) : Prop where
  parse : parseOptions d.options.withHelp argv = .ok p
  noHelp : p.options.isSet ("help" : String) = false

/-- Which answer `argv` gets, rule by rule. -/
inductive Answers (d : ScriptDefinition) (argv : List Text) : Answer → Prop
  | fault {e : OptionError} (hp : parseOptions d.options.withHelp argv = .error e) :
      Answers d argv (.fault e)
  | help {p : ParsedArguments} (hp : parseOptions d.options.withHelp argv = .ok p)
      (hs : p.options.isSet ("help" : String) = true) : Answers d argv (.help p.positionals.head?)
  | usage {p : ParsedArguments} (hp : ReadsPlain d argv p) (hc : p.positionals.headD [] = []) :
      Answers d argv .usage
  | unknown {p : ParsedArguments} {command : Text} {args : List Text} (hp : ReadsPlain d argv p)
      (hpos : p.positionals = command :: args) (hc : command ≠ [])
      (hk : d.namePrefix.getD [] ++ command ∉ d.commands.keys) : Answers d argv (.unknown command)
  | command {p : ParsedArguments} {command : Text} {args : List Text} {handler : Command}
      (hp : ReadsPlain d argv p) (hpos : p.positionals = command :: args) (hc : command ≠ [])
      (hk : (d.namePrefix.getD [] ++ command, handler) ∈ d.commands.entries) :
      Answers d argv (.command (d.namePrefix.getD [] ++ command) handler args p.options)

/-- The answer to `argv`. -/
def answer (d : ScriptDefinition) (argv : List Text) : Answer :=
  match parseOptions d.options.withHelp argv with
  | .error e => .fault e
  | .ok p =>
    if p.options.isSet OptionTable.helpKey then .help p.positionals.head?
    else
      match p.positionals with
      | [] | [] :: _ => .usage
      | command :: args =>
        match d.commands.find? (fullName d.namePrefix command) with
        | none => .unknown command
        | some handler => .command (fullName d.namePrefix command) handler args p.options

variable {d : ScriptDefinition} {argv : List Text} {p : ParsedArguments} {a : Answer}
  {command : Text} {args : List Text}

theorem answer_of_command (hp : ReadsPlain d argv p) (hpos : p.positionals = command :: args)
    (hc : command ≠ []) :
    answer d argv =
      match d.commands.find? (fullName d.namePrefix command) with
      | none => .unknown command
      | some handler => .command (fullName d.namePrefix command) handler args p.options := by
  -- with a first character the name is told from the empty one
  obtain ⟨c, rest, rfl⟩ := List.exists_cons_of_ne_nil hc
  simp only [answer, hp.parse, OptionTable.helpKey, hp.noHelp, Bool.false_eq_true, ↓reduceIte,
    hpos]

theorem answer_of_no_command (hp : ReadsPlain d argv p) (hc : p.positionals.headD [] = []) :
    answer d argv = .usage := by
  simp only [answer, hp.parse, OptionTable.helpKey, hp.noHelp, Bool.false_eq_true, ↓reduceIte]
  cases hpos : p.positionals with
  | nil => rfl
  | cons command args =>
    rw [hpos] at hc
    obtain rfl : command = [] := hc
    rfl

/-- A rule of `Answers` that applies gives `answer`, so that no two rules apply. -/
theorem Answers.eq_answer (ha : Answers d argv a) : a = answer d argv := by
  cases ha with
  | fault hp => simp only [answer, hp]
  | help hp hs => simp only [answer, hp, OptionTable.helpKey, hs, ↓reduceIte]
  | usage hp hc => exact (answer_of_no_command hp hc).symm
  | unknown hp hpos hc hk =>
    rw [answer_of_command hp hpos hc, fullName, d.commands.find?_eq_none_iff.2 hk]
  | command hp hpos hc hk =>
    rw [answer_of_command hp hpos hc, fullName, d.commands.find?_eq_some_iff.2 hk]

/-- Some rule of `Answers` always applies. -/
theorem answers_answer (d : ScriptDefinition) (argv : List Text) :
    Answers d argv (answer d argv) := by
  obtain ⟨a, ha⟩ : ∃ a, Answers d argv a := by
    cases hparse : parseOptions d.options.withHelp argv with
    | error e => exact ⟨_, .fault hparse⟩
    | ok p =>
      cases hs : p.options.isSet OptionTable.helpKey with
      | true => exact ⟨_, .help hparse hs⟩
      | false =>
        by_cases hc : p.positionals.headD [] = []
        · exact ⟨_, .usage ⟨hparse, hs⟩ hc⟩
        · obtain ⟨command, args, hpos⟩ : ∃ command args, p.positionals = command :: args :=
            List.exists_cons_of_ne_nil fun hpos => hc (by rw [hpos]; rfl)
          rw [hpos] at hc
          cases hk : d.commands.find? (fullName d.namePrefix command) with
          | none =>
            exact ⟨_, .unknown ⟨hparse, hs⟩ hpos hc (d.commands.find?_eq_none_iff.1 hk)⟩
          | some handler =>
            exact ⟨_, .command ⟨hparse, hs⟩ hpos hc (d.commands.find?_eq_some_iff.1 hk)⟩
  rwa [← ha.eq_answer]

/-! ## Performing an answer -/

/-- The messages that an answer leaves, and the run. -/
def Answer.perform (h : Host) (verbose : Bool) (d : ScriptDefinition) :
    Answer → List Message × ScriptRun
  | .fault e => ([], { stderr := [e.message ++ ['\n']], result := .ok 1 })
  | .help command =>
    conclude (Dispatch.help h verbose d.script command d.namePrefix) fun _ => ([], 0)
  | .usage => conclude (Usage.render h verbose d.toUsageDefinition) fun text => ([text], 1)
  | .unknown command => ([], { stderr := [notRecognized command], result := .ok 1 })
  | .command name handler args options => ([], call name handler args options)

theorem run_eq_perform_answer (h : Host) (verbose : Bool) (d : ScriptDefinition)
    (argv : List Text) : run h verbose d argv = (answer d argv).perform h verbose d := by
  unfold run answer
  cases parseOptions d.options.withHelp argv with
  | error e => rfl
  | ok p =>
    cases hs : p.options.isSet OptionTable.helpKey with
    | true => simp only [hs, ↓reduceIte]; rfl
    | false =>
      simp only [hs, Bool.false_eq_true, ↓reduceIte]
      cases p.positionals with
      | nil => rfl
      | cons command args =>
        cases command with
        | nil => rfl
        | cons c rest =>
          cases hk : d.commands.find? (fullName d.namePrefix (c :: rest)) with
          | none => simp only [hk]; rfl
          | some handler => simp only [hk]; rfl

/-- `run` looks a command up under its `fullName`. -/
theorem run_of_command (hp : ReadsPlain d argv p) (hpos : p.positionals = command :: args)
    (hc : command ≠ []) (h : Host) (verbose : Bool) :
    run h verbose d argv =
      match d.commands.find? (fullName d.namePrefix command) with
      | none => ([], { stderr := [notRecognized command], result := .ok 1 })
      | some handler => ([], call (fullName d.namePrefix command) handler args p.options) := by
  rw [run_eq_perform_answer, answer_of_command hp hpos hc]
  cases d.commands.find? (fullName d.namePrefix command) <;> rfl

/-- The answer is made from the script. -/
def Answer.readsScript : Answer → Bool
  | .help _ | .usage => true
  | .fault _ | .unknown _ | .command .. => false

/-- `perform` of any other answer is the same for all hosts. -/
theorem Answer.perform_eq_of_not_readsScript (ha : a.readsScript = false) (h h' : Host)
    (verbose verbose' : Bool) : a.perform h' verbose' d = a.perform h verbose d := by
  cases a with
  | help command => cases ha
  | usage => cases ha
  | fault e => rfl
  | unknown command => rfl
  | command name handler args options => rfl

/-- What an answer writes to `stdout` and `stderr`, what it calls, and how it ends. Help and usage
end with the error of `sourceLines` if there is one. By then help has written the records of the
lines that came before the error, and usage has written nothing. -/
inductive Ends (h : Host) (verbose : Bool) (d : ScriptDefinition) : Answer → ScriptRun → Prop
  | fault (e : OptionError) : Ends h verbose d (.fault e) ⟨[], [e.message ++ ['\n']], [], .ok 1⟩
  | help {command : Option Text} {output : Output}
      (ho : (Dispatch.help h verbose d.script command d.namePrefix).outcome = .ok output) :
      Ends h verbose d (.help command) ⟨output.chunks, [], [], .ok 0⟩
  | usage {text : Text} (ht : (Usage.render h verbose d.toUsageDefinition).outcome = .ok text) :
      Ends h verbose d .usage ⟨[], [text], [], .ok 1⟩
  | helpBroken {command : Option Text} {e : SourceError}
      (he : Extract.sourceLines h d.script = .error e) :
      Ends h verbose d (.help command)
        ⟨(scan (helpCriterion command d.namePrefix) (Extract.source h d.script).lines).map
          Record.render, [], [], .error (.source e)⟩
  | usageBroken {e : SourceError} (he : Extract.sourceLines h d.script = .error e) :
      Ends h verbose d .usage ⟨[], [], [], .error (.source e)⟩
  | unknown (command : Text) :
      Ends h verbose d (.unknown command)
        ⟨[], ["Error: Command " ++ command ++ " is not recognized.\n"], [], .ok 1⟩
  | command (name : Text) (handler : Command) (args : List Text) (options : ParsedOptions) :
      Ends h verbose d (.command name handler args options)
        ⟨[], [], [⟨name, args, options⟩], (handler args options).ending⟩

theorem outcome_help (h : Host) (verbose : Bool) (script : Text)
    (command namePrefix : Option Text) :
    (help h verbose script command namePrefix).outcome =
      (Extract.sourceLines h script).map fun lines =>
        Extract.write (scan (helpCriterion command namePrefix) lines) :=
  Extract.outcome_file h verbose script _

theorem outcome_help_of_ok {h : Host} {script : Text} {lines : List Text}
    (hl : Extract.sourceLines h script = .ok lines) (verbose : Bool)
    (command namePrefix : Option Text) :
    (help h verbose script command namePrefix).outcome =
      .ok (Extract.write (scan (helpCriterion command namePrefix) lines)) := by
  rw [outcome_help, hl]
  rfl

theorem outcome_help_of_error {h : Host} {script : Text} {e : SourceError}
    (he : Extract.sourceLines h script = .error e) (verbose : Bool)
    (command namePrefix : Option Text) :
    (help h verbose script command namePrefix).outcome = .error e := by
  rw [outcome_help, he]
  rfl

theorem written_help (h : Host) (verbose : Bool) (script : Text)
    (command namePrefix : Option Text) :
    (help h verbose script command namePrefix).written =
      (scan (helpCriterion command namePrefix) (Extract.source h script).lines).map
        Record.render :=
  Extract.written_file h verbose script _

section Conclude

variable {α : Type} {x : Journaled SourceError α} {f : α → List Text × Number}

theorem conclude_of_ok {value : α} (hx : x.outcome = .ok value) :
    (conclude x f).2 = ⟨x.written, (f value).1, [], .ok (f value).2⟩ := by
  simp only [conclude, hx]

theorem conclude_of_error {e : SourceError} (hx : x.outcome = .error e) :
    (conclude x f).2 = ⟨x.written, [], [], .error (.source e)⟩ := by
  simp only [conclude, hx]

theorem stdout_conclude : (conclude x f).2.stdout = x.written := by
  unfold conclude
  cases x.outcome <;> rfl

end Conclude

theorem call_eq (name : Text) (handler : Command) (args : List Text) (options : ParsedOptions) :
    call name handler args options =
      ⟨[], [], [⟨name, args, options⟩], (handler args options).ending⟩ := by
  unfold call Reply.ending
  cases handler args options <;> rfl

/-- `perform` is the only way for an answer to end. -/
theorem Ends.eq_perform {h : Host} {verbose : Bool} {r : ScriptRun} (hr : Ends h verbose d a r) :
    r = (a.perform h verbose d).2 := by
  cases hr with
  | fault e => rfl
  | unknown command => rfl
  | command name handler args options => exact (call_eq name handler args options).symm
  | help ho => rw [Answer.perform, conclude_of_ok ho, Dispatch.help, Extract.written_file_of_ok ho]
  | helpBroken he =>
    rw [Answer.perform, conclude_of_error (outcome_help_of_error he ..), written_help]
  | usage ht => rw [Answer.perform, conclude_of_ok ht, Usage.written_render]
  | usageBroken he =>
    rw [Answer.perform, conclude_of_error (Usage.outcome_render_of_error he _),
      Usage.written_render]

/-- Every answer ends in some way: if the script cannot be read, with the error of the reading. -/
theorem exists_ends (h : Host) (verbose : Bool) (d : ScriptDefinition) (a : Answer) :
    ∃ r, Ends h verbose d a r := by
  cases a with
  | fault e => exact ⟨_, .fault e⟩
  | unknown command => exact ⟨_, .unknown command⟩
  | command name handler args options => exact ⟨_, .command name handler args options⟩
  | help command =>
    cases hl : Extract.sourceLines h d.script with
    | error e => exact ⟨_, .helpBroken hl⟩
    | ok lines => exact ⟨_, .help (outcome_help_of_ok hl ..)⟩
  | usage =>
    cases hl : Extract.sourceLines h d.script with
    | error e => exact ⟨_, .usageBroken hl⟩
    | ok lines => exact ⟨_, .usage (Usage.outcome_render_of_ok hl _)⟩

theorem ends_iff {h : Host} {verbose : Bool} {r : ScriptRun} :
    Ends h verbose d a r ↔ r = (a.perform h verbose d).2 := by
  refine ⟨Ends.eq_perform, ?_⟩
  rintro rfl
  obtain ⟨r, hr⟩ := exists_ends h verbose d a
  rwa [← hr.eq_perform]

/-- Exactly one answer is due to `argv`, and `run` ends in the one way in which that answer `Ends`.
Unless the answer is made from the script, `run` is the same for all hosts. -/
theorem run_ends_as_answered (h : Host) (verbose : Bool) (d : ScriptDefinition)
    (argv : List Text) :
    ∃ a, Answers d argv a ∧ (∀ b, Answers d argv b → b = a) ∧
      (∀ r, Ends h verbose d a r ↔ r = (run h verbose d argv).2) ∧
      (a.readsScript = false →
        ∀ h' verbose', run h' verbose' d argv = run h verbose d argv) := by
  refine ⟨answer d argv, answers_answer d argv, fun b hb => hb.eq_answer, ?_, ?_⟩
  · intro r
    rw [run_eq_perform_answer]
    exact ends_iff
  · intro ha h' verbose'
    rw [run_eq_perform_answer, run_eq_perform_answer]
    exact Answer.perform_eq_of_not_readsScript ha h h' verbose verbose'

/-- A host without files. -/
def bareHost : Host := ⟨.empty, .root, []⟩

/-- A script that has neither options nor commands of its own. -/
def bareScript : ScriptDefinition where
  script := ("missing.sh" : String)
  options := .empty
  commands := .empty

/-- Help for a script that does not exist has no status, although it is what `--help` asks for. -/
theorem help_of_missing_script_has_no_status :
    Answers bareScript [("--help" : String)] (.help none) ∧
      ∀ n, (run bareHost false bareScript [("--help" : String)]).2.result ≠ .ok n := by
  refine ⟨answers_answer bareScript [("--help" : String)], ?_⟩
  intro n hn
  cases hn

-- help for a script that breaks off in its second line has written what the first one completes
example :
    let bytes := "f() \x7b\ng() \x7b".toList.map fun c => UInt8.ofNat c.toNat
    let h : Host := ⟨⟨[([['s']], .unreadable bytes)]⟩, .root, []⟩
    (run h false { bareScript with script := ['s'] } [("--help" : String)]).2.stdout =
      [[' ', ' ', 'f', '\n']] := by decide

end Dispatch

end ShellDoc
