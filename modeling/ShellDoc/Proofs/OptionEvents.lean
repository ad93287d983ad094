import Mathlib.Data.List.Induction
import ShellDoc.Options.Parse

/-!
# Arguments and events

Reading an argument undoes writing an event, and the events of a command line tell all that is read
from it.

* `Event.isOptionLike`, `Event.isKey`: the arguments that are taken for options, and the keys.
* `Event.splitKey?_eq_some_iff`: an option-like argument is cut behind its longest key.
* `Event.Fits`: an event that can be given under a table. `Event.read_eq_ok_iff`: an argument says
  an event exactly if the event fits and is written so.
* `parseOptions_concat`: one more argument at the end of a command line.
* `ParsedArguments.positionals_ofEvents`, `ParsedArguments.flags_ofEvents`,
  `ParsedArguments.values_ofEvents`: what a list of events comes to. Flags and values are two tables
  that are filled in order, so that the laws of such tables give the rest.
-/

namespace ShellDoc

/-- The kind for which `key` is declared in `table`. -/
def OptionTable.kindOf? (table : OptionTable) (key : Text) : Option OptionKind :=
  (table.find? key).map OptionDefinition.kind

namespace Event

/-! ## Keys -/

/-- The argument begins with two dashes and a character that a key may begin with. -/
def isOptionLike : Text → Bool
  | '-' :: '-' :: c :: _ => isKeyStart c
  | _ => false

/-- The text is a key. -/
def isKey : Text → Bool
  | c :: rest => isKeyStart c && rest.all isKeyChar
  | [] => false

variable {table : OptionTable} {arg key rest : Text} {e : Event}

theorem splitKey?_eq_none_iff : splitKey? arg = none ↔ isOptionLike arg = false := by
  unfold splitKey? isOptionLike
  split <;> simp

/-- `splitKey?` cuts an option-like argument behind the longest key: no character that could be part
of `key` begins `rest`. -/
theorem splitKey?_eq_some_iff :
    splitKey? arg = some (key, rest) ↔
      arg = "--" ++ key ++ rest ∧ isKey key = true ∧ ∀ c ∈ rest.head?, isKeyChar c = false := by
  constructor
  · intro h
    unfold splitKey? at h
    split at h
    · next c tail =>
      split at h
      · next hc =>
        obtain ⟨rfl, rfl⟩ := Prod.mk.inj (Option.some.inj h)
        refine ⟨by simp, by simp [isKey, hc], ?_⟩
        intro d hd
        have hnot := List.head?_dropWhile_not isKeyChar tail
        rw [Option.mem_def.1 hd] at hnot
        exact hnot
      · cases h
    · cases h
  · rintro ⟨rfl, hk, hr⟩
    cases key with
    | nil => cases hk
    | cons c ks =>
      obtain ⟨hc, hks⟩ : isKeyStart c = true ∧ ∀ d ∈ ks, isKeyChar d = true := by
        simpa [isKey] using hk
      have hrest : rest.takeWhile isKeyChar = [] ∧ rest.dropWhile isKeyChar = rest := by
        cases rest with
        | nil => exact ⟨rfl, rfl⟩
        | cons d rest => simp [hr d rfl]
      show splitKey? ('-' :: '-' :: c :: (ks ++ rest)) = some (c :: ks, rest)
      simp only [splitKey?, hc, ↓reduceIte, List.takeWhile_append_of_pos hks,
        List.dropWhile_append_of_pos hks, hrest.1, hrest.2, List.append_nil]

theorem splitKey?_key (hk : isKey key = true) : splitKey? ("--" ++ key) = some (key, []) :=
  splitKey?_eq_some_iff.2 ⟨by simp, hk, by simp⟩

/-- The equals sign ends the key for `splitKey?`, whatever `text` follows it. -/
theorem splitKey?_key_value (hk : isKey key = true) (text : Text) :
    splitKey? ("--" ++ key ++ ['='] ++ text) = some (key, '=' :: text) := by
  refine splitKey?_eq_some_iff.2 ⟨by simp, hk, ?_⟩
  rintro c ⟨⟩
  decide

/-! ## One argument -/

/-- The event can be given: an option under a key that `table` declares for it, and a positional if
it is not `isOptionLike`. -/
def Fits (table : OptionTable) : Event → Prop
  | .positional text => isOptionLike text = false
  | .flag key => isKey key = true ∧ table.kindOf? key = some .flag
  | .value key _ => isKey key = true ∧ table.kindOf? key = some .value

instance (table : OptionTable) : DecidablePred (Fits table)
  | .positional text => inferInstanceAs (Decidable (isOptionLike text = false))
  | .flag key => inferInstanceAs (Decidable (isKey key = true ∧ table.kindOf? key = some .flag))
  | .value key _ =>
    inferInstanceAs (Decidable (isKey key = true ∧ table.kindOf? key = some .value))

/-- Whether it is a flag or a value that an argument gives, `read` accepts it exactly if `key` is
declared for that `kind`. -/
theorem declared_eq_ok_iff {kind : OptionKind} {given : Event} {unknown mistyped : OptionError} :
    (match table.find? key with
      | none => .error unknown
      | some d => if d.kind = kind then .ok given else .error mistyped) = Except.ok e ↔
      table.kindOf? key = some kind ∧ e = given := by
  unfold OptionTable.kindOf?
  cases table.find? key with
  | none => simp
  | some d =>
    by_cases hd : d.kind = kind
    · simp [hd, eq_comm]
    · simp [hd]

/-- `read` finds the event `e` in `arg` exactly if `e` fits `table` and `render` writes it so. -/
theorem read_eq_ok_iff : read table arg = .ok e ↔ e.Fits table ∧ arg = e.render := by
  constructor
  · intro h
    unfold read at h
    split at h
    · next hs =>
      cases h
      exact ⟨splitKey?_eq_none_iff.1 hs, rfl⟩
    · next key hs =>
      obtain ⟨rfl, hk, -⟩ := splitKey?_eq_some_iff.1 hs
      obtain ⟨hkind, rfl⟩ := declared_eq_ok_iff.1 h
      exact ⟨⟨hk, hkind⟩, by simp [render]⟩
    · next key text hs =>
      obtain ⟨rfl, hk, -⟩ := splitKey?_eq_some_iff.1 hs
      obtain ⟨hkind, rfl⟩ := declared_eq_ok_iff.1 h
      exact ⟨⟨hk, hkind⟩, by simp [render]⟩
    · -- anything else behind a key is a fault
      cases h
  · rintro ⟨hf, rfl⟩
    cases e with
    | positional text => simp only [render, read, splitKey?_eq_none_iff.2 hf]
    | flag key =>
      simp only [render, read, splitKey?_key hf.1]
      exact declared_eq_ok_iff.2 ⟨hf.2, rfl⟩
    | value key text =>
      simp only [render, read, splitKey?_key_value hf.1]
      exact declared_eq_ok_iff.2 ⟨hf.2, rfl⟩

/-! ## What an event tells -/

/-- The text of a positional. -/
def positional? : Event → Option Text
  | .positional text => some text
  | _ => none

/-- The key of a flag. -/
def flagKey? : Event → Option Text
  | .flag key => some key
  | _ => none

/-- The key of an option with a value, and the value. -/
def assignment? : Event → Option (Text × Text)
  | .value key text => some (key, text)
  | _ => none

theorem flagKey?_eq_some_iff : e.flagKey? = some key ↔ e = .flag key := by
  cases e <;> simp [flagKey?]

theorem assignment?_eq_some_iff {text : Text} :
    e.assignment? = some (key, text) ↔ e = .value key text := by
  cases e <;> simp [assignment?]

end Event

namespace ParsedArguments

/-! ## Many events

Events are added at the end, so the inductions go from the end of a list. -/

variable (p : ParsedArguments) (events : List Event) (e : Event) (key : Text)

theorem positionals_add : (p.add e).positionals = p.positionals ++ e.positional?.toList := by
  cases e <;> simp [add, Event.positional?]

theorem flags_add_flag :
    (p.add (.flag key)).options.flags =
      if key ∈ p.options.flags then p.options.flags else p.options.flags ++ [key] := by
  simp [add, ParsedOptions.setFlag]

theorem filterMap_concat {β : Type} (f : Event → Option β) :
    (events ++ [e]).filterMap f = events.filterMap f ++ (f e).toList := by
  cases h : f e <;> simp [h]

theorem ofEvents_concat : ofEvents (events ++ [e]) = (ofEvents events).add e := by
  simp [ofEvents]

theorem positionals_ofEvents :
    (ofEvents events).positionals = events.filterMap Event.positional? := by
  induction events using List.reverseRecOn with
  | nil => rfl
  | append_singleton events e ih =>
    rw [ofEvents_concat, positionals_add, ih, filterMap_concat]

/-- The `flags` of `ofEvents` are the keys of a table into which they are put in order. -/
theorem flags_ofEvents :
    (ofEvents events).options.flags =
      (Keyed.ofList ((events.filterMap Event.flagKey?).map fun key => (key, ()))).keys := by
  induction events using List.reverseRecOn with
  | nil => rfl
  | append_singleton events e ih =>
    rw [ofEvents_concat, filterMap_concat]
    cases e with
    | positional text => simpa [add, Event.flagKey?] using ih
    | value key text => simpa [add, ParsedOptions.setValue, Event.flagKey?] using ih
    | flag key =>
      rw [flags_add_flag, Event.flagKey?, Option.toList_some, List.map_append, List.map_singleton,
        Keyed.ofList_concat, Keyed.keys_insert, ← ih]

/-- The `values` of `ofEvents` are a table into which they are put in order. -/
theorem values_ofEvents :
    (ofEvents events).options.values = .ofList (events.filterMap Event.assignment?) := by
  induction events using List.reverseRecOn with
  | nil => rfl
  | append_singleton events e ih =>
    rw [ofEvents_concat, filterMap_concat]
    cases e with
    | positional text => simpa [add, Event.assignment?] using ih
    | flag key => simpa [add, ParsedOptions.setFlag, Event.assignment?] using ih
    | value key text =>
      rw [Event.assignment?, Option.toList_some, Keyed.ofList_concat, ← ih]
      rfl

variable {events} {key}

theorem mem_flags_ofEvents :
    key ∈ (ofEvents events).options.flags ↔ Event.flag key ∈ events := by
  simp [flags_ofEvents, Keyed.keys_ofList, Event.flagKey?_eq_some_iff]

theorem mem_keys_values_ofEvents :
    key ∈ (ofEvents events).options.values.keys ↔ ∃ text, Event.value key text ∈ events := by
  simp [values_ofEvents, Keyed.keys_ofList, Event.assignment?_eq_some_iff]

theorem isSet_ofEvents :
    (ofEvents events).options.isSet key = true ↔
      Event.flag key ∈ events ∨ ∃ text, Event.value key text ∈ events := by
  rw [ParsedOptions.isSet, Bool.or_eq_true, ParsedOptions.flag, List.contains_iff_mem,
    mem_flags_ofEvents, ParsedOptions.value?, Keyed.isSome_find?_iff, mem_keys_values_ofEvents]

theorem keys_ofEvents :
    (ofEvents events).options.keys =
      (events.filterMap Event.flagKey?).eraseDups ++
        ((events.filterMap Event.assignment?).map Prod.fst).eraseDups := by
  have hfst : (Prod.fst ∘ fun key : Text => (key, ())) = id := rfl
  rw [ParsedOptions.keys, flags_ofEvents, values_ofEvents, Keyed.keys_ofList, Keyed.keys_ofList,
    List.map_map, hfst, List.map_id]

/-- No key is in `keys` twice, for an option is either a flag or takes a value. -/
theorem nodup_keys_ofEvents {table : OptionTable} (h : ∀ e ∈ events, e.Fits table) :
    (ofEvents events).options.keys.Nodup := by
  refine List.nodup_append.2 ⟨?_, (ofEvents events).options.values.nodup, ?_⟩
  · rw [flags_ofEvents]
    exact Keyed.nodup _
  · rintro key hflag _ hvalue rfl
    obtain ⟨text, hmem⟩ := mem_keys_values_ofEvents.1 hvalue
    have hkind := (h _ (mem_flags_ofEvents.1 hflag)).2
    rw [(h _ hmem).2] at hkind
    cases hkind

end ParsedArguments

/-! ## Command lines -/

/-- `parseOptions` reads one more argument at the end after the others. -/
theorem parseOptions_concat (table : OptionTable) (argv : List Text) (arg : Text) :
    parseOptions table (argv ++ [arg]) =
      (parseOptions table argv).bind fun p => (Event.read table arg).map p.add := by
  unfold parseOptions
  rw [List.mapM_append, List.mapM_cons, List.mapM_nil]
  cases argv.mapM (Event.read table) with
  | error fault => rfl
  | ok events =>
    cases Event.read table arg with
    | error fault => rfl
    | ok e => exact congrArg Except.ok (ParsedArguments.ofEvents_concat events e)

/-- `parseOptions` reads events that fit `table` back from the arguments of `render`. -/
theorem parseOptions_map_render {table : OptionTable} {events : List Event}
    (h : ∀ e ∈ events, e.Fits table) :
    parseOptions table (events.map Event.render) = .ok (.ofEvents events) := by
  induction events using List.reverseRecOn with
  | nil => rfl
  | append_singleton events e ih =>
    have hfront := ih fun e' he' => h e' (by simp [he'])
    have hlast : Event.read table e.render = .ok e :=
      Event.read_eq_ok_iff.2 ⟨h e (by simp), rfl⟩
    rw [List.map_append, List.map_singleton, parseOptions_concat, hfront, hlast,
      ParsedArguments.ofEvents_concat]
    rfl

/-- `parseOptions` decodes what `render` has encoded. Whatever `events` that fit `table` are written
as arguments, in whatever order, the arguments can be read; `positionals` are those of the events,
in order; `flag` holds of the keys that were given as flags; `value?` is the last value given;
`isSet` holds of the keys that were given as either; and `keys` are the flags and then the keys with
values, each once and in the place of its first occurrence. -/
theorem exists_parseOptions_map_render {table : OptionTable} {events : List Event}
    (h : ∀ e ∈ events, e.Fits table) :
    ∃ p, parseOptions table (events.map Event.render) = .ok p ∧
      p.positionals = events.filterMap Event.positional? ∧
      (∀ key, p.options.flag key = true ↔ Event.flag key ∈ events) ∧
      (∀ key, p.options.value? key =
        ((events.filterMap Event.assignment?).filter fun e => e.1 = key).getLast?.map Prod.snd) ∧
      (∀ key, p.options.isSet key = true ↔
        Event.flag key ∈ events ∨ ∃ text, Event.value key text ∈ events) ∧
      p.options.keys.Nodup ∧
      p.options.keys = (events.filterMap Event.flagKey?).eraseDups ++
        ((events.filterMap Event.assignment?).map Prod.fst).eraseDups := by
  refine ⟨_, parseOptions_map_render h, ParsedArguments.positionals_ofEvents events, ?_, ?_,
    fun key => ParsedArguments.isSet_ofEvents, ParsedArguments.nodup_keys_ofEvents h,
    ParsedArguments.keys_ofEvents⟩
  · intro key
    rw [ParsedOptions.flag, List.contains_iff_mem, ParsedArguments.mem_flags_ofEvents]
  · intro key
    rw [ParsedOptions.value?, ParsedArguments.values_ofEvents, Keyed.find?_ofList]

/-- A value with an equals sign in it, two dashes alone, a flag twice, an empty value under the key
of the first, and an empty positional. -/
def sampleEvents : List Event :=
  [.value ("file" : String) ("a=b" : String), .positional ['-', '-'], .flag ("verbose" : String),
    .value ("file" : String) [], .positional [], .flag ("verbose" : String)]

/-- `sampleEvents` as arguments. -/
def sampleArguments : List Text :=
  [("--file=a=b" : String), ['-', '-'], ("--verbose" : String), ("--file=" : String), [],
    ("--verbose" : String)]

theorem parseOptions_sampleArguments :
    (∀ e ∈ sampleEvents, e.Fits .standard) ∧
      ∃ p, parseOptions .standard sampleArguments = .ok p ∧ p.positionals = [['-', '-'], []] ∧
        p.options.value? ("file" : String) = some [] ∧
        p.options.keys = ([("verbose" : String), ("file" : String)] : List Text) := by
  have hfits : ∀ e ∈ sampleEvents, e.Fits .standard := by decide
  have hrender : sampleEvents.map Event.render = sampleArguments := by decide
  obtain ⟨p, hp, hpos, -, hvalue, -, -, hkeys⟩ := exists_parseOptions_map_render hfits
  rw [hrender] at hp
  refine ⟨hfits, p, hp, hpos.trans (by decide), (hvalue _).trans (by decide), ?_⟩
  exact hkeys.trans (by decide)

end ShellDoc
