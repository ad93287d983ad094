import ShellDoc.Proofs.OptionEvents

/-!
# Faulty arguments

A command line is refused exactly if one of its arguments is faulty, and the first such argument
tells why.

* `OptionFault.inOrder`: what can be wrong with an option-like argument, in the order in which it is
  looked for. `OptionFault.Applies` says of each when it is the case, whatever else may be.
* `Event.HasFault`: the first of these that applies.
* `Event.read_eq_error_iff`: what one argument is refused for.
* `parseOptions_eq_error_iff`: what a command line is refused for.
-/

namespace ShellDoc

namespace OptionFault

/-- What can be wrong with an option-like argument of `key`, in the order in which it is looked
for. -/
def inOrder (key : Text) : List OptionFault :=
  [.malformed, .unknown key, .needsValue key, .takesNoValue key]

/-- The fault is there, with `rest` behind the key. -/
def Applies (table : OptionTable) (rest : Text) : OptionFault → Prop
  | .malformed => rest ≠ [] ∧ rest.head? ≠ some '='
  | .unknown key => key ∉ table.keys
  | .needsValue key => rest = [] ∧ table.kindOf? key ≠ some .flag
  | .takesNoValue key => rest.head? = some '=' ∧ table.kindOf? key ≠ some .value
  | .objection _ => False

instance (table : OptionTable) (rest : Text) : DecidablePred (Applies table rest)
  | .malformed => inferInstanceAs (Decidable (rest ≠ [] ∧ rest.head? ≠ some '='))
  | .unknown key => inferInstanceAs (Decidable (key ∉ table.keys))
  | .needsValue key => inferInstanceAs (Decidable (rest = [] ∧ table.kindOf? key ≠ some .flag))
  | .takesNoValue key =>
    inferInstanceAs (Decidable (rest.head? = some '=' ∧ table.kindOf? key ≠ some .value))
  | .objection _ => inferInstanceAs (Decidable False)

end OptionFault

namespace Event

variable {table : OptionTable} {arg key rest : Text} {fault : OptionFault} {e : OptionError}

/-! ## One argument -/

/-- `arg` is option-like: two dashes, `key` and `rest`, with no character at the front of `rest`
that could be one more of the key. -/
structure Parts (arg key rest : Text) : Prop where
  eq : arg = "--" ++ key ++ rest
  isKey : isKey key = true
  longest : ∀ c ∈ rest.head?, isKeyChar c = false

theorem parts_iff : Parts arg key rest ↔ splitKey? arg = some (key, rest) := by
  rw [splitKey?_eq_some_iff]
  exact ⟨fun h => ⟨h.eq, h.isKey, h.longest⟩, fun ⟨heq, hk, hr⟩ => ⟨heq, hk, hr⟩⟩

/-- `fault` is the first that `Applies` to `arg`. -/
def HasFault (table : OptionTable) (arg : Text) (fault : OptionFault) : Prop :=
  ∃ key rest, Parts arg key rest ∧
    (OptionFault.inOrder key).find? (fun f => f.Applies table rest) = some fault

/-- `arg` has a fault. -/
def IsFaulty (table : OptionTable) (arg : Text) : Prop := ∃ fault, HasFault table arg fault

/-- Whether it is a flag or a value that an argument gives, `read` refuses it if `key` is not
declared, and if it is declared for another `kind`. -/
theorem declared_eq_error_iff {kind : OptionKind} {given : Event} {mistyped : OptionFault} :
    (match table.find? key with
      | none => .error ⟨.unknown key, arg⟩
      | some d => if d.kind = kind then .ok given else .error ⟨mistyped, arg⟩) = Except.error e ↔
      e.argument = arg ∧
        (key ∉ table.keys ∧ e.fault = .unknown key ∨
          key ∈ table.keys ∧ table.kindOf? key ≠ some kind ∧ e.fault = mistyped) := by
  obtain ⟨fault, argument⟩ := e
  have hkeys : (table.find? key).isSome = true ↔ key ∈ table.keys := table.isSome_find?_iff
  unfold OptionTable.kindOf?
  cases hf : table.find? key with
  | none =>
    rw [hf] at hkeys
    have hk : key ∉ table.keys := by simpa using hkeys
    simp only [Except.error.injEq, OptionError.mk.injEq, hk]
    tauto
  | some d =>
    rw [hf] at hkeys
    have hk : key ∈ table.keys := by simpa using hkeys
    by_cases hd : d.kind = kind
    · simp [hk, hd]
    · have hkind : some d.kind ≠ some kind := fun h => hd (Option.some.inj h)
      simp only [hd, ↓reduceIte, Except.error.injEq, OptionError.mk.injEq, hk, Option.map_some]
      tauto

/-- The first fault of a `key` that stands alone or has a value. Only the `kind` with which it has
to be declared differs, and the fault `mistyped` if it is declared with another. -/
theorem find?_inOrder_iff {kind : OptionKind} {mistyped : OptionFault}
    (hr : rest = [] ∧ kind = .flag ∧ mistyped = .needsValue key ∨
      rest.head? = some '=' ∧ kind = .value ∧ mistyped = .takesNoValue key) :
    (OptionFault.inOrder key).find? (fun f => f.Applies table rest) = some fault ↔
      key ∉ table.keys ∧ fault = .unknown key ∨
        key ∈ table.keys ∧ table.kindOf? key ≠ some kind ∧ fault = mistyped := by
  rcases hr with ⟨rfl, rfl, rfl⟩ | ⟨hr, rfl, rfl⟩
  · by_cases hk : key ∈ table.keys <;> by_cases hd : table.kindOf? key = some .flag <;>
      simp [OptionFault.inOrder, OptionFault.Applies, hk, hd, eq_comm]
  · have hne : rest ≠ [] := by
      rintro rfl
      cases hr
    by_cases hk : key ∈ table.keys <;> by_cases hd : table.kindOf? key = some .value <;>
      simp [OptionFault.inOrder, OptionFault.Applies, hr, hne, hk, hd, eq_comm]

/-- `read` refuses an option-like argument for the first fault that `Applies` to its `key` and
`rest`. -/
theorem read_eq_error_of_parts (hp : Parts arg key rest) :
    read table arg = .error e ↔
      e.argument = arg ∧
        (OptionFault.inOrder key).find? (fun f => f.Applies table rest) = some e.fault := by
  have hs := parts_iff.1 hp
  cases rest with
  | nil =>
    rw [find?_inOrder_iff (.inl ⟨rfl, rfl, rfl⟩)]
    simp only [read, hs]
    exact declared_eq_error_iff
  | cons c text =>
    by_cases hc : c = '='
    · subst hc
      rw [find?_inOrder_iff (.inr ⟨rfl, rfl, rfl⟩)]
      simp only [read, hs]
      exact declared_eq_error_iff
    · -- anything else behind the key is a fault, whether the key is declared or not
      have hread : read table arg = .error ⟨.malformed, arg⟩ := by simp [read, hs, hc]
      have hfirst : (OptionFault.inOrder key).find? (fun f => f.Applies table (c :: text)) =
          some .malformed := by
        simp [OptionFault.inOrder, OptionFault.Applies, hc]
      rw [hread, hfirst]
      obtain ⟨fault, argument⟩ := e
      simp only [Except.error.injEq, OptionError.mk.injEq, Option.some.injEq]
      tauto

/-- `read` refuses `arg` for the first fault that applies to it, and names `arg`. -/
theorem read_eq_error_iff :
    read table arg = .error e ↔ e.argument = arg ∧ HasFault table arg e.fault := by
  constructor
  · intro h
    cases hs : splitKey? arg with
    | none => simp [read, hs] at h
    | some parts =>
      have hp : Parts arg parts.1 parts.2 := parts_iff.2 hs
      obtain ⟨ha, hf⟩ := (read_eq_error_of_parts hp).1 h
      exact ⟨ha, parts.1, parts.2, hp, hf⟩
  · rintro ⟨ha, key, rest, hp, hf⟩
    exact (read_eq_error_of_parts hp).2 ⟨ha, hf⟩

theorem isFaulty_iff : IsFaulty table arg ↔ ∃ e, read table arg = .error e := by
  constructor
  · rintro ⟨fault, hf⟩
    exact ⟨⟨fault, arg⟩, read_eq_error_iff.2 ⟨rfl, hf⟩⟩
  · rintro ⟨e, he⟩
    exact ⟨e.fault, (read_eq_error_iff.1 he).2⟩

end Event

/-! ## Command lines -/

variable {table : OptionTable} {argv : List Text} {arg : Text} {e : OptionError}

/-- `parseOptions` refuses `arg :: argv` for the fault of `arg`, or if `arg` has none for that of
`argv`. -/
theorem parseOptions_cons_eq_error_iff :
    parseOptions table (arg :: argv) = .error e ↔
      Event.read table arg = .error e ∨
        ¬Event.IsFaulty table arg ∧ parseOptions table argv = .error e := by
  rw [Event.isFaulty_iff]
  unfold parseOptions
  rw [List.mapM_cons]
  cases hr : Event.read table arg with
  | error fault => simp [Except.map, bind, Except.bind]
  | ok event =>
    cases argv.mapM (Event.read table) <;> simp [Except.map, bind, Except.bind, pure, Except.pure]

theorem parseOptions_eq_error_iff :
    parseOptions table argv = .error e ↔
      ∃ before after, argv = before ++ e.argument :: after ∧
        (∀ arg ∈ before, ¬Event.IsFaulty table arg) ∧
        Event.HasFault table e.argument e.fault := by
  induction argv with
  | nil => simp [parseOptions, Except.map, pure, Except.pure]
  | cons arg argv ih =>
    -- the first argument is the one that is refused, or it belongs in front of it
    rw [parseOptions_cons_eq_error_iff, Event.read_eq_error_iff, ih]
    constructor
    · rintro (⟨rfl, hf⟩ | ⟨hn, before, after, rfl, hb, hf⟩)
      · exact ⟨[], argv, rfl, by simp, hf⟩
      · refine ⟨arg :: before, after, rfl, ?_, hf⟩
        simpa using ⟨hn, hb⟩
    · rintro ⟨before, after, heq, hb, hf⟩
      cases before with
      | nil =>
        obtain ⟨rfl, rfl⟩ := List.cons.inj heq
        exact .inl ⟨rfl, hf⟩
      | cons first before =>
        obtain ⟨rfl, rfl⟩ := List.cons.inj heq
        obtain ⟨hn, hb⟩ := List.forall_mem_cons.1 hb
        exact .inr ⟨hn, before, after, rfl, hb, hf⟩

theorem exists_parseOptions_eq_error_iff :
    (∃ e, parseOptions table argv = .error e) ↔ ∃ arg ∈ argv, Event.IsFaulty table arg := by
  constructor
  · rintro ⟨e, he⟩
    obtain ⟨before, after, rfl, -, hf⟩ := parseOptions_eq_error_iff.1 he
    exact ⟨e.argument, by simp, e.fault, hf⟩
  · rintro ⟨arg, harg, hf⟩
    -- some argument is faulty, so there is a first one
    induction argv with
    | nil => cases harg
    | cons first argv ih =>
      by_cases hfirst : Event.IsFaulty table first
      · obtain ⟨e, he⟩ := Event.isFaulty_iff.1 hfirst
        exact ⟨e, parseOptions_cons_eq_error_iff.2 (.inl he)⟩
      · rcases List.mem_cons.1 harg with rfl | harg
        · exact absurd hf hfirst
        · obtain ⟨e, he⟩ := ih harg
          exact ⟨e, parseOptions_cons_eq_error_iff.2 (.inr ⟨hfirst, he⟩)⟩

/-- `parseOptions` refuses `argv` exactly if an argument is faulty. The error then names the first
faulty argument and the first fault that applies to it, whatever stands behind it; and this is how
the faults are worded. -/
theorem parseOptions_refuses_first_fault (table : OptionTable) (argv : List Text) :
    ((∃ e, parseOptions table argv = .error e) ↔ ∃ arg ∈ argv, Event.IsFaulty table arg) ∧
      (∀ e, parseOptions table argv = .error e ↔
        ∃ before after, argv = before ++ e.argument :: after ∧
          (∀ arg ∈ before, ¬Event.IsFaulty table arg) ∧
          Event.HasFault table e.argument e.fault) ∧
      ∀ arg key, (OptionFault.inOrder key).map (fun fault => OptionError.message ⟨fault, arg⟩) =
        [ "Invalid argument format: " ++ arg,
          "Unknown option: --" ++ key,
          "Option --" ++ key ++ " requires a value",
          "Option --" ++ key ++ " does not take a value" ] :=
  ⟨exists_parseOptions_eq_error_iff, fun _ => parseOptions_eq_error_iff, fun _ _ => rfl⟩

-- the key is not declared either, but the format is looked at first, and `--file` comes later
example :
    parseOptions .standard [("--verbose" : String), ("--no!" : String), ("--file" : String)] =
      .error ⟨.malformed, ("--no!" : String)⟩ := rfl

end ShellDoc
