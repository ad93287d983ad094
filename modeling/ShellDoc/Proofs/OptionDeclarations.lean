import ShellDoc.Proofs.OptionFaults

/-!
# Declarations that count

How a command line is read depends on the kinds of the keys that it mentions, and on nothing else
that a table declares.

* `Event.Mentions`: the key of an option-like argument.
* `OptionTable.AgreeOn`: two tables declare alike whatever a command line mentions. One argument
  (`Event.read_eq_of_kindOf?_eq`), and so a whole command line (`parseOptions_eq_of_agreeOn`), is
  then read alike under both.
* `OptionTable.find?_withHelp`: the table with the help option declares what the table declares, and
  help if the table does not.
-/

namespace ShellDoc

namespace Event

variable {table table' : OptionTable} {arg key : Text}

/-- `arg` is option-like and has the key `key`. -/
def Mentions (arg key : Text) : Prop := ∃ rest, Parts arg key rest

theorem mentions_iff : Mentions arg key ↔ (splitKey? arg).map Prod.fst = some key := by
  simp only [Mentions, parts_iff, Option.map_eq_some_iff, Prod.exists, exists_and_right,
    exists_eq_right]

instance (arg key : Text) : Decidable (Mentions arg key) := decidable_of_iff _ mentions_iff.symm

/-- Whether it is a flag or a value that an argument gives, only `kindOf?` of its key counts. -/
theorem declared_eq_of_kindOf?_eq {kind : OptionKind}
    {unknown given mistyped : Except OptionError Event}
    (h : table.kindOf? key = table'.kindOf? key) :
    (match table.find? key with
      | none => unknown
      | some d => if d.kind = kind then given else mistyped) =
      match table'.find? key with
      | none => unknown
      | some d => if d.kind = kind then given else mistyped := by
  unfold OptionTable.kindOf? at h
  cases hd : table.find? key with
  | none =>
    rw [hd, Option.map_none, eq_comm, Option.map_eq_none_iff] at h
    rw [h]
  | some d =>
    rw [hd, Option.map_some, eq_comm, Option.map_eq_some_iff] at h
    obtain ⟨d', hd', hkind⟩ := h
    simp only [hd', hkind]

/-- `read` is the same under tables with the same `kindOf?` for the key of `arg`. -/
theorem read_eq_of_kindOf?_eq
    (h : ∀ key, Mentions arg key → table.kindOf? key = table'.kindOf? key) :
    read table arg = read table' arg := by
  unfold read
  cases hs : splitKey? arg with
  | none => rfl
  | some parts =>
    obtain ⟨key, rest⟩ := parts
    have hkey := h key ⟨rest, parts_iff.2 hs⟩
    cases rest with
    | nil => exact declared_eq_of_kindOf?_eq hkey
    | cons c text =>
      by_cases hc : c = '='
      · subst hc
        exact declared_eq_of_kindOf?_eq hkey
      · -- a malformed argument is refused before its key is looked up
        simp [hc]

end Event

namespace OptionTable

variable {table : OptionTable} {argv : List Text} {key : Text}

/-- Each key that `argv` mentions is declared in both tables, for the same kind, or in neither. -/
def AgreeOn (argv : List Text) (table table' : OptionTable) : Prop :=
  ∀ arg ∈ argv, ∀ key, Event.Mentions arg key → table.kindOf? key = table'.kindOf? key

instance (argv : List Text) (table table' : OptionTable) : Decidable (table.AgreeOn argv table') :=
  decidable_of_iff
    (∀ arg ∈ argv, ∀ key ∈ (Event.splitKey? arg).map Prod.fst,
      table.kindOf? key = table'.kindOf? key)
    (by simp only [AgreeOn, Event.mentions_iff, Option.mem_def])

/-! ## The help option -/

/-- `withHelp` finds the table's own declarations first. -/
theorem find?_withHelp (table : OptionTable) (key : Text) :
    table.withHelp.find? key =
      (table.find? key).or (if helpKey = key then some help else none) := by
  rw [withHelp, Keyed.find?_insertAll, Keyed.find?_insert, Keyed.find?_empty, ← Keyed.find?_ofList,
    Keyed.ofList_entries]

theorem kindOf?_withHelp_of_ne (h : key ≠ helpKey) :
    table.withHelp.kindOf? key = table.kindOf? key := by
  rw [kindOf?, find?_withHelp, if_neg h.symm, Option.or_none, kindOf?]

theorem kindOf?_withHelp_of_declared (h : helpKey ∈ table.keys) (key : Text) :
    table.withHelp.kindOf? key = table.kindOf? key := by
  by_cases hkey : key = helpKey
  · subst hkey
    obtain ⟨d, hd⟩ := Option.isSome_iff_exists.1 (table.isSome_find?_iff.2 h)
    rw [kindOf?, find?_withHelp, hd, Option.some_or, kindOf?, hd]
  · exact kindOf?_withHelp_of_ne hkey

/-- `withHelp` makes no difference to `argv` if the table declares `helpKey` or nobody asks for
it. -/
theorem agreeOn_withHelp
    (h : helpKey ∈ table.keys ∨ ∀ arg ∈ argv, ¬Event.Mentions arg helpKey) :
    table.withHelp.AgreeOn argv table := by
  intro arg harg key hkey
  rcases h with h | h
  · exact kindOf?_withHelp_of_declared h key
  · refine kindOf?_withHelp_of_ne ?_
    rintro rfl
    exact h arg harg hkey

end OptionTable

/-! ## Command lines -/

/-- `parseOptions` is the same under tables that agree on what `argv` mentions. -/
theorem parseOptions_eq_of_agreeOn {argv : List Text} {table table' : OptionTable}
    (h : table.AgreeOn argv table') : parseOptions table argv = parseOptions table' argv := by
  induction argv using List.reverseRecOn with
  | nil => rfl
  | append_singleton argv arg ih =>
    obtain ⟨hfront, harg⟩ := List.forall_mem_append.1 h
    rw [parseOptions_concat, parseOptions_concat, ih hfront,
      Event.read_eq_of_kindOf?_eq (List.forall_mem_singleton.1 harg)]

/-- `parseOptions` depends only on the declarations that `argv` meets. Two tables that agree on
whether the keys of its option-like arguments are declared, and for which kind, give the same
options and positionals or the same error, whatever else they declare, in whatever order and with
whatever descriptions and placeholders. In particular `withHelp` makes no difference to a command
line that does not mention `helpKey`, nor to any command line under a table that declares it. -/
theorem parseOptions_depends_on_mentioned (argv : List Text) :
    (∀ table table' : OptionTable, table.AgreeOn argv table' →
        parseOptions table argv = parseOptions table' argv) ∧
      (∀ table : OptionTable, OptionTable.helpKey ∉ table.keys →
        (∀ arg ∈ argv, ¬Event.Mentions arg OptionTable.helpKey) →
        parseOptions table.withHelp argv = parseOptions table argv) ∧
      ∀ table : OptionTable, OptionTable.helpKey ∈ table.keys →
        parseOptions table.withHelp argv = parseOptions table argv :=
  ⟨fun _ _ => parseOptions_eq_of_agreeOn,
    fun _ _ h => parseOptions_eq_of_agreeOn (OptionTable.agreeOn_withHelp (.inr h)),
    fun _ h => parseOptions_eq_of_agreeOn (OptionTable.agreeOn_withHelp (.inl h))⟩

/-- The `standard` options in another order, with other words, and others between them. -/
def rewordedTable : OptionTable :=
  .ofList [
    (['7'], ⟨.value, [], none⟩),
    (("file" : String), ⟨.value, ['F'], none⟩),
    (("help" : String), ⟨.value, ['H'], some ['T']⟩),
    (("verbose" : String), ⟨.flag, [], some ['V']⟩)]

/-- A flag, a positional that looks like help, a value, and a key that is not declared. -/
def mistypedArguments : List Text :=
  [("--verbose" : String), ("-help" : String), ("--file=--help" : String), ("--flie=a" : String)]

theorem parseOptions_mistypedArguments :
    OptionTable.standard.AgreeOn mistypedArguments rewordedTable ∧
      parseOptions rewordedTable mistypedArguments =
        .error ⟨.unknown ("flie" : String), ("--flie=a" : String)⟩ ∧
      OptionTable.helpKey ∉ OptionTable.standard.keys ∧
      (∀ arg ∈ mistypedArguments, ¬Event.Mentions arg OptionTable.helpKey) ∧
      parseOptions OptionTable.standard.withHelp mistypedArguments =
        parseOptions OptionTable.standard mistypedArguments ∧
      OptionTable.helpKey ∈ rewordedTable.keys ∧
      parseOptions rewordedTable.withHelp [("--help" : String)] =
        .error ⟨.needsValue ("help" : String), ("--help" : String)⟩ := by
  obtain ⟨halike, hunasked, -⟩ := parseOptions_depends_on_mentioned mistypedArguments
  obtain ⟨-, -, hown⟩ := parseOptions_depends_on_mentioned [("--help" : String)]
  have hagree : OptionTable.standard.AgreeOn mistypedArguments rewordedTable := by decide
  have hnot : OptionTable.helpKey ∉ OptionTable.standard.keys := by decide
  have hnone : ∀ arg ∈ mistypedArguments, ¬Event.Mentions arg OptionTable.helpKey := by decide
  have hdeclared : OptionTable.helpKey ∈ rewordedTable.keys := by decide
  exact ⟨hagree, (halike _ _ hagree).symm, hnot, hnone, hunasked _ hnot hnone, hdeclared,
    hown _ hdeclared⟩

end ShellDoc
