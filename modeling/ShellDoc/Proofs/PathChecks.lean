import ShellDoc.Check.File
import ShellDoc.Proofs.Answer
import ShellDoc.Proofs.FunctionNames

/-!
# What the checks on paths foretell

Whether a path leads to a regular file decides whether a script can be read from it.

* `Check.all`: the checks. They answer also for paths that lead nowhere (`Check.eq_false_of_stat`).
* `Extract.source_of_not_isFile`, `Extract.source_of_isFile`: what is read of a script, by what
  `Check.isFile` says of its path.
* `Extract.AllFail`, `Extract.AllSucceed`: all that is made from a script stands and falls with the
  reading of it. `Extract.WritesNothing`: not even a beginning of it is written.
-/

namespace ShellDoc

namespace Check

variable {h : Host} {path : Text}

/-! ## The checks -/

/-- The checks that look at what a path leads to. -/
def all : List (Host → Text → Bool) :=
  [fileExists, isFile, isDir, isReadable, isWritable, isExecutable, fileNotEmpty, isReadableFile,
    isWritableDir, fileIsExecutable]

/-- A path that leads nowhere, for whatever reason, fails every check of `all`. -/
theorem eq_false_of_stat {fault : PathFault} (hs : h.stat path = .error fault)
    {check : Host → Text → Bool} (hc : check ∈ all) : check h path = false := by
  have hsat : ∀ p, statSatisfies h p path = false := by
    intro p
    simp only [statSatisfies, hs]
  have hexists : h.pathExists path = false := by simp only [Host.pathExists, hs]
  simp only [all, List.mem_cons, List.not_mem_nil, or_false] at hc
  rcases hc with rfl | rfl | rfl | rfl | rfl | rfl | rfl | rfl | rfl | rfl <;>
    simp [fileExists, isFile, isDir, isReadable, isWritable, isExecutable, fileNotEmpty,
      isReadableFile, isWritableDir, fileIsExecutable, hsat, hexists]

theorem isSymlink_eq_false_of_statLink {fault : PathFault} (hs : h.statLink path = .error fault) :
    isSymlink h path = false := by
  simp only [isSymlink, hs]

theorem fileExists_iff : fileExists h path = true ↔ ∃ entry, h.stat path = .ok entry := by
  unfold fileExists statSatisfies
  cases h.stat path <;> simp

theorem isFile_iff :
    isFile h path = true ↔
      (∃ bytes executable, h.stat path = .ok (.file bytes executable)) ∨
        ∃ before, h.stat path = .ok (.unreadable before) := by
  unfold isFile statSatisfies
  cases h.stat path with
  | error fault => simp
  | ok entry => cases entry <;> simp

theorem isDir_iff : isDir h path = true ↔ h.stat path = .ok .directory := by
  unfold isDir statSatisfies
  cases h.stat path <;> simp

theorem fileExists_of_isFile (hf : isFile h path = true) : fileExists h path = true := by
  rw [fileExists_iff]
  rcases isFile_iff.1 hf with ⟨bytes, executable, hs⟩ | ⟨before, hs⟩
  · exact ⟨_, hs⟩
  · exact ⟨_, hs⟩

theorem fileExists_of_isDir (hd : isDir h path = true) : fileExists h path = true :=
  fileExists_iff.2 ⟨_, isDir_iff.1 hd⟩

theorem not_isFile_and_isDir : ¬(isFile h path = true ∧ isDir h path = true) := by
  rintro ⟨hf, hd⟩
  rw [isFile_iff, isDir_iff.1 hd] at hf
  simp at hf

end Check

namespace Extract

variable {h : Host} {path : Text}

/-! ## The reading of a script -/

/-- If `path` leads to no regular file, it is refused before a line is read: because it leads
nowhere, or because of what it leads to. -/
theorem source_of_not_isFile (hf : Check.isFile h path = false) :
    ∃ fault, source h path = ⟨[], some ⟨path, .read fault⟩⟩ ∧
      ((∃ p, h.stat path = .error p ∧ fault = .path p path) ∨
        Check.fileExists h path = true ∧ fault = .notRegular) := by
  cases hs : h.stat path with
  | error p =>
    refine ⟨.path p path, ?_, .inl ⟨p, rfl, rfl⟩⟩
    simp only [source, Host.reading, hs]
  | ok entry =>
    refine ⟨.notRegular, ?_, .inr ⟨Check.fileExists_iff.2 ⟨entry, hs⟩, rfl⟩⟩
    cases entry with
    | file bytes executable =>
      rw [Check.isFile_iff.2 (.inl ⟨bytes, executable, hs⟩)] at hf
      cases hf
    | unreadable before =>
      rw [Check.isFile_iff.2 (.inr ⟨before, hs⟩)] at hf
      cases hf
    | directory => simp only [source, Host.reading, hs]
    | link target => simp only [source, Host.reading, hs]

/-- If `path` leads to a regular file, it is read to its end, or the reading itself goes wrong. -/
theorem source_of_isFile (hf : Check.isFile h path = true) :
    (∃ bytes executable, h.stat path = .ok (.file bytes executable) ∧
        source h path = ⟨Lines.read (Utf8.decode bytes), none⟩) ∨
      ∃ before, h.stat path = .ok (.unreadable before) ∧
        source h path =
          ⟨Lines.completed (Utf8.decode before), some ⟨path, .read .inputOutput⟩⟩ := by
  rcases Check.isFile_iff.1 hf with ⟨bytes, executable, hs⟩ | ⟨before, hs⟩
  · exact .inl ⟨bytes, executable, hs, source_of_file hs⟩
  · refine .inr ⟨before, hs, ?_⟩
    simp only [source, Host.reading, hs]

/-! ## What is made from a script -/

/-- All that is made from the script at `path` fails with the error `e`. A command line that has to
be answered from the script ends with `e`, too; it writes nothing to `stderr` and calls nothing. -/
structure AllFail (h : Host) (path : Text) (e : SourceError) : Prop where
  file : ∀ verbose c, (Extract.file h verbose path c).outcome = .error e
  functionNames : ∀ namePrefix, Extract.functionNames h path namePrefix = .error e
  help : ∀ verbose command namePrefix,
    (Dispatch.help h verbose path command namePrefix).outcome = .error e
  usage : ∀ verbose d, d.script = path → (Usage.render h verbose d).outcome = .error e
  run : ∀ verbose d argv, d.script = path → (Dispatch.answer d argv).readsScript = true →
    ∃ written, (Dispatch.run h verbose d argv).2 = ⟨written, [], [], .error (.source e)⟩

/-- Nothing that is made from the script at `path` writes to the output, and no run does. -/
structure WritesNothing (h : Host) (path : Text) : Prop where
  file : ∀ verbose c, (Extract.file h verbose path c).written = []
  help : ∀ verbose command namePrefix,
    (Dispatch.help h verbose path command namePrefix).written = []
  usage : ∀ verbose d, d.script = path → (Usage.render h verbose d).written = []
  run : ∀ verbose d argv, d.script = path → (Dispatch.run h verbose d argv).2.stdout = []

/-- All that is made from the script at `path` is there. -/
structure AllSucceed (h : Host) (path : Text) : Prop where
  file : ∀ verbose c, ∃ output, (Extract.file h verbose path c).outcome = .ok output
  functionNames : ∀ namePrefix, ∃ names, Extract.functionNames h path namePrefix = .ok names
  help : ∀ verbose command namePrefix, ∃ output,
    (Dispatch.help h verbose path command namePrefix).outcome = .ok output
  usage : ∀ verbose d, d.script = path → ∃ text, (Usage.render h verbose d).outcome = .ok text

theorem AllFail.of_sourceLines {e : SourceError} (he : sourceLines h path = .error e) :
    AllFail h path e where
  file verbose c := by rw [outcome_file, he]; rfl
  functionNames namePrefix := by rw [functionNames_eq_map, he]; rfl
  help verbose command namePrefix := Dispatch.outcome_help_of_error he ..
  usage := by
    rintro verbose d rfl
    exact Usage.outcome_render_of_error he verbose
  run := by
    rintro verbose d argv rfl ha
    rw [Dispatch.run_eq_perform_answer]
    cases hanswer : Dispatch.answer d argv with
    | help command => exact ⟨_, (Dispatch.Ends.helpBroken he).eq_perform.symm⟩
    | usage => exact ⟨_, (Dispatch.Ends.usageBroken he).eq_perform.symm⟩
    | fault e => rw [hanswer] at ha; cases ha
    | unknown command => rw [hanswer] at ha; cases ha
    | command name handler args options => rw [hanswer] at ha; cases ha

theorem WritesNothing.of_no_lines (hl : (source h path).lines = []) : WritesNothing h path where
  file verbose c := by rw [written_file, hl]; rfl
  help verbose command namePrefix := by rw [Dispatch.written_help, hl]; rfl
  usage verbose d _ := Usage.written_render h verbose d
  run := by
    rintro verbose d argv rfl
    rw [Dispatch.run_eq_perform_answer]
    cases Dispatch.answer d argv with
    | help command =>
      rw [Dispatch.Answer.perform, Dispatch.stdout_conclude, Dispatch.written_help, hl]
      rfl
    | usage => rw [Dispatch.Answer.perform, Dispatch.stdout_conclude, Usage.written_render]
    | fault e => rfl
    | unknown command => rfl
    | command name handler args options => rfl

theorem AllSucceed.of_sourceLines {lines : List Text} (hl : sourceLines h path = .ok lines) :
    AllSucceed h path where
  file verbose c := by rw [outcome_file, hl]; exact ⟨_, rfl⟩
  functionNames namePrefix := by rw [functionNames_eq_map, hl]; exact ⟨_, rfl⟩
  help verbose command namePrefix := ⟨_, Dispatch.outcome_help_of_ok hl ..⟩
  usage := by
    rintro verbose d rfl
    exact ⟨_, Usage.outcome_render_of_ok hl verbose⟩

end Extract

/-- `Check.isFile` foretells how reading a script ends. If it is `false`, all that is made from the
script at `path` fails with an error that names `path` as it was given, and nothing is written. If
it is `true`, all of it succeeds unless the reading itself goes wrong, and then the error names
`path` too. `Check.isFile` and `Check.isDir` exclude each other, each implies `Check.fileExists`,
and each check of `Check.all` is `false` for a path that leads nowhere. -/
theorem isFile_foretells_reading (h : Host) (path : Text) :
    (Check.isFile h path = false → ∃ fault,
        ((∃ p, h.stat path = .error p ∧ fault = .path p path) ∨
          Check.fileExists h path = true ∧ fault = .notRegular) ∧
        Extract.AllFail h path ⟨path, .read fault⟩ ∧ Extract.WritesNothing h path) ∧
      (Check.isFile h path = true →
        (∃ bytes executable, h.stat path = .ok (.file bytes executable)) ∧
            Extract.AllSucceed h path ∨
          (∃ before, h.stat path = .ok (.unreadable before)) ∧
            Extract.AllFail h path ⟨path, .read .inputOutput⟩) ∧
      ¬(Check.isFile h path = true ∧ Check.isDir h path = true) ∧
      (Check.isFile h path = true → Check.fileExists h path = true) ∧
      (Check.isDir h path = true → Check.fileExists h path = true) ∧
      (∀ fault, h.stat path = .error fault → ∀ check ∈ Check.all, check h path = false) ∧
      ∀ fault, h.statLink path = .error fault → Check.isSymlink h path = false := by
  refine ⟨?_, ?_, Check.not_isFile_and_isDir, Check.fileExists_of_isFile,
    Check.fileExists_of_isDir, fun _ hs _ hc => Check.eq_false_of_stat hs hc,
    fun _ hs => Check.isSymlink_eq_false_of_statLink hs⟩
  · intro hf
    obtain ⟨fault, hsource, hfault⟩ := Extract.source_of_not_isFile hf
    have he := Extract.sourceLines_eq_error_iff.2 (congrArg Source.error hsource)
    exact ⟨fault, hfault, .of_sourceLines he, .of_no_lines (congrArg Source.lines hsource)⟩
  · intro hf
    rcases Extract.source_of_isFile hf with
      ⟨bytes, executable, hs, hsource⟩ | ⟨before, hs, hsource⟩
    · have hl := Extract.sourceLines_eq_ok_iff.2 hsource
      exact .inl ⟨⟨bytes, executable, hs⟩, .of_sourceLines hl⟩
    · have he := Extract.sourceLines_eq_error_iff.2 (congrArg Source.error hsource)
      exact .inr ⟨⟨before, hs⟩, .of_sourceLines he⟩

-- a file, the same with a slash, a directory, a link to the file, a link to itself, a link to
-- nothing, and a way through the file
example :
    ([['s'], ['s', '/'], ['d'], ['a'], ['b'], ['c'], ['s', '/', 'x']] : List Text).map
        (Check.isFile ⟨⟨[([['s']], .file [] false), ([['d']], .directory), ([['a']], .link ['s']),
          ([['b']], .link ['b']), ([['c']], .link ['x'])]⟩, .root, []⟩) =
      [true, false, false, true, false, false, false] := by decide

end ShellDoc
