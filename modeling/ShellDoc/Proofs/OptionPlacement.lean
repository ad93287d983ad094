import ShellDoc.Dispatch
import ShellDoc.Proofs.OptionEvents

/-!
# Options may stand anywhere

The option-like arguments of a command line decide the options and the fault, if there is one, and
the other arguments are its positionals. How the two are mixed does not matter.

* `optionArguments`, `plainArguments`: the two parts of a command line.
* `parseOptions_eq_map_optionArguments`: a command line is read as its options alone, with its other
  arguments for positionals.
-/

namespace ShellDoc

/-- The arguments that are `isOptionLike`, in order. -/
def optionArguments (argv : List Text) : List Text := argv.filter Event.isOptionLike

/-- The other arguments, in order. -/
def plainArguments (argv : List Text) : List Text := argv.filter fun arg => !Event.isOptionLike arg

namespace Event

variable {table : OptionTable} {arg : Text} {e : Event}

theorem read_of_not_isOptionLike (h : isOptionLike arg = false) :
    read table arg = .ok (.positional arg) := read_eq_ok_iff.2 ⟨h, rfl⟩

theorem positional?_eq_none_of_read (h : isOptionLike arg = true) (hr : read table arg = .ok e) :
    e.positional? = none := by
  obtain ⟨hf, rfl⟩ := read_eq_ok_iff.1 hr
  cases e with
  | positional text =>
    have hf' : isOptionLike text = false := hf
    rw [render, hf'] at h
    cases h
  | flag key => rfl
  | value key text => rfl

end Event

namespace ParsedArguments

/-- The options of `p` with other positionals. -/
def withPositionals (positionals : List Text) (p : ParsedArguments) : ParsedArguments :=
  { p with positionals }

variable (p : ParsedArguments) (positionals : List Text)

theorem add_withPositionals {e : Event} (he : e.positional? = none) :
    (p.withPositionals positionals).add e = (p.add e).withPositionals positionals := by
  cases e with
  | positional text => cases he
  | flag key => rfl
  | value key text => rfl

end ParsedArguments

/-- `parseOptions` reads `argv` as its `optionArguments` alone, with the `plainArguments` for
positionals. -/
theorem parseOptions_eq_map_optionArguments (table : OptionTable) (argv : List Text) :
    parseOptions table argv =
      (parseOptions table (optionArguments argv)).map
        (ParsedArguments.withPositionals (plainArguments argv)) := by
  induction argv using List.reverseRecOn with
  | nil => rfl
  | append_singleton argv arg ih =>
    rw [parseOptions_concat, ih]
    cases h : Event.isOptionLike arg with
    | false =>
      have hoptions : optionArguments (argv ++ [arg]) = optionArguments argv := by
        simp [optionArguments, h]
      have hplain : plainArguments (argv ++ [arg]) = plainArguments argv ++ [arg] := by
        simp [plainArguments, h]
      rw [hoptions, hplain, Event.read_of_not_isOptionLike h]
      cases parseOptions table (optionArguments argv) <;> rfl
    | true =>
      have hoptions : optionArguments (argv ++ [arg]) = optionArguments argv ++ [arg] := by
        simp [optionArguments, h]
      have hplain : plainArguments (argv ++ [arg]) = plainArguments argv := by
        simp [plainArguments, h]
      rw [hoptions, hplain, parseOptions_concat]
      cases parseOptions table (optionArguments argv) with
      | error fault => rfl
      | ok p =>
        -- an option changes no positionals, so these may as well be put in after it
        cases hr : Event.read table arg with
        | error fault => rfl
        | ok e =>
          have he := Event.positional?_eq_none_of_read h hr
          exact congrArg Except.ok (p.add_withPositionals _ he)

/-- Options may stand anywhere. If `argv'` has the `optionArguments` and the `plainArguments` of
`argv`, `parseOptions` is the same for both under every table, down to the fault if there is one; so
`run` answers both alike for every script. -/
theorem run_eq_of_same_parts {argv argv' : List Text}
    (ho : optionArguments argv' = optionArguments argv)
    (hp : plainArguments argv' = plainArguments argv) :
    (∀ table, parseOptions table argv' = parseOptions table argv) ∧
      ∀ h verbose d, Dispatch.run h verbose d argv' = Dispatch.run h verbose d argv := by
  have hparse : ∀ table, parseOptions table argv' = parseOptions table argv := by
    intro table
    rw [parseOptions_eq_map_optionArguments table argv', ho, hp,
      ← parseOptions_eq_map_optionArguments]
  refine ⟨hparse, fun h verbose d => ?_⟩
  unfold Dispatch.run
  rw [hparse]

/-- Options between the positionals. -/
def mixedArguments : List Text :=
  [("run" : String), ("--verbose" : String), ['-', '-'], ("--file=a" : String), ['x']]

/-- The same options in front of the same positionals. -/
def sortedArguments : List Text :=
  [("--verbose" : String), ("--file=a" : String), ("run" : String), ['-', '-'], ['x']]

theorem run_mixedArguments :
    optionArguments mixedArguments = optionArguments sortedArguments ∧
      plainArguments mixedArguments = plainArguments sortedArguments ∧
      (∃ p, parseOptions .standard mixedArguments = .ok p ∧
        p.positionals = ([("run" : String), ['-', '-'], ['x']] : List Text) ∧
        p.options.keys = ([("verbose" : String), ("file" : String)] : List Text)) ∧
      parseOptions .empty mixedArguments =
        .error ⟨.unknown ("verbose" : String), ("--verbose" : String)⟩ ∧
      ∀ h verbose d,
        Dispatch.run h verbose d mixedArguments = Dispatch.run h verbose d sortedArguments := by
  have ho : optionArguments mixedArguments = optionArguments sortedArguments := by decide
  have hp : plainArguments mixedArguments = plainArguments sortedArguments := by decide
  obtain ⟨hparse, hrun⟩ := run_eq_of_same_parts ho hp
  exact ⟨ho, hp, ⟨_, (hparse _).trans rfl, by decide, by decide⟩, (hparse _).trans rfl, hrun⟩

end ShellDoc
