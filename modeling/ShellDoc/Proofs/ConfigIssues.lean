import ShellDoc.Config
import ShellDoc.Proofs.DocumentKeys
import ShellDoc.Proofs.ListingOrder

/-!
# The issues of a config file

A config file is refused exactly if something is wrong with it, and then everything is reported.

* `Config.Valid`: the document says what a config may say, and nothing else.
* `Config.FieldFault`, `Config.ListsUnknown`, `Config.Faults`: what can be wrong with a document,
  and in which order it is reported.
* `Config.Accepts`, `Config.Refuses`: how reading a config file ends. The error and the log tell of
  the same issues.
-/

namespace ShellDoc.Config

variable {h : Host} {path key whenEmpty : Text} {d : Keyed Toml.Value}

/-- `v` is a value that a config may have under a key: a text with something in it. -/
def IsFilled (v : Toml.Value) : Prop := ∃ t, t ≠ [] ∧ v = .text t

/-- `d` says what a config may say, and nothing else. -/
structure Valid (d : Keyed Toml.Value) : Prop where
  known : ∀ key ∈ d.keys, key = prefixKey ∨ key = scriptKey
  namePrefix : ∀ v, d.find? prefixKey = some v → IsFilled v
  script : ∀ v, d.find? scriptKey = some v → IsFilled v

/-- What is wrong with what a document has under `key`, if anything is. -/
inductive FieldFault (key whenEmpty : Text) : Option Toml.Value → Option Text → Prop
  | absent : FieldFault key whenEmpty none none
  | filled {v : Toml.Value} (hv : IsFilled v) : FieldFault key whenEmpty (some v) none
  | empty : FieldFault key whenEmpty (some (.text [])) (some (key ++ ": " ++ whenEmpty))
  | wrongType {v : Toml.Value} (hv : ∀ t, v ≠ .text t) :
    FieldFault key whenEmpty (some v) (some (key ++ ": Expected string, received " ++ typeWord v))

/-- `keys` are the unknown ones of `d`, each once and in listing order. -/
structure ListsUnknown (d : Keyed Toml.Value) (keys : List Text) : Prop where
  mem_iff : ∀ key, key ∈ keys ↔ key ∈ d.keys ∧ key ≠ prefixKey ∧ key ≠ scriptKey
  nodup : keys.Nodup
  inOrder : keys.Pairwise d.Precedes

/-- `found` is all that is wrong with the document `d`: the prefix, then the script, then one issue
that names all unknown keys, each in quotes, with commas between them. -/
def Faults (d : Keyed Toml.Value) (found : List Text) : Prop :=
  ∃ namePrefix script unknown,
    FieldFault prefixKey ("Prefix cannot be empty" : String) (d.find? prefixKey) namePrefix ∧
      FieldFault scriptKey ("Script path cannot be empty" : String) (d.find? scriptKey) script ∧
      ListsUnknown d unknown ∧
      found = namePrefix.toList ++ script.toList ++
        if unknown = [] then []
        else ["(root): Unrecognized key(s) in object: " ++
          [',', ' '].intercalate (unknown.map fun key => '\'' :: key ++ ['\''])]

/-- `read` refuses the config file for `found`. The log has a line for each issue in the same order,
under one for the file. -/
structure Refuses (h : Host) (path : Text) (found : List Text) : Prop where
  outcome : (read h path).outcome = .error ⟨path, found⟩
  log : (read h path).log = ⟨.error, "Invalid config in " ++ path ++ ":"⟩ ::
    found.map fun issue => ⟨.error, " - " ++ issue⟩

/-- `read` takes the config file for what `d` says, with nothing in the log. The prefix is as it is
in `d`, and the script is taken relative to the directory of the file. -/
def Accepts (h : Host) (path : Text) (d : Keyed Toml.Value) : Prop :=
  ∃ namePrefix script : Option Text,
    d.find? prefixKey = namePrefix.map .text ∧ d.find? scriptKey = script.map .text ∧
      read h path = ⟨[], [], .ok ⟨namePrefix, script.map fun s =>
        ((h.cwd.resolve (Path.dirname path)).resolve s).render⟩⟩

/-! ## Fields -/

theorem fieldFault_fieldIssue? (key whenEmpty : Text) (v : Option Toml.Value) :
    FieldFault key whenEmpty v (v.bind (fieldIssue? key whenEmpty)) := by
  cases v with
  | none => exact .absent
  | some v =>
    simp only [Option.bind_some]
    unfold fieldIssue?
    split
    · next t =>
      cases t with
      | nil => exact .empty
      | cons c t => exact .filled ⟨c :: t, by simp, rfl⟩
    · next hv => exact .wrongType hv

theorem FieldFault.eq_none_iff {v : Option Toml.Value} {issue : Option Text}
    (hf : FieldFault key whenEmpty v issue) :
    issue = none ↔ ∀ x, v = some x → IsFilled x := by
  cases hf with
  | absent => simp
  | filled hv => simpa using hv
  | empty => simp [IsFilled]
  | wrongType hv =>
    simp only [reduceCtorEq, Option.some.injEq, forall_eq', false_iff]
    rintro ⟨t, -, rfl⟩
    exact hv t rfl

theorem find?_eq_map_textAt (hv : ∀ v, d.find? key = some v → IsFilled v) :
    d.find? key = (textAt d.entries key).map .text := by
  have hfind : Toml.Fields.find? d.entries key = d.find? key := rfl
  unfold textAt
  rw [hfind]
  cases hd : d.find? key with
  | none => rfl
  | some v =>
    obtain ⟨t, -, rfl⟩ := hv v hd
    rfl

/-! ## Issues -/

theorem listsUnknown_unknownKeys (d : Keyed Toml.Value) :
    ListsUnknown d (unknownKeys d.entries) := by
  rw [unknownKeys, Keyed.ofList_entries]
  refine ⟨fun key => ?_, d.nodup_keys_ordered.filter _, d.pairwise_ordered.filter _⟩
  rw [List.mem_filter, Keyed.mem_keys_iff_mem_ordered, decide_eq_true_eq]

theorem ListsUnknown.eq_nil_iff {unknown : List Text} (hu : ListsUnknown d unknown) :
    unknown = [] ↔ ∀ key ∈ d.keys, key = prefixKey ∨ key = scriptKey := by
  rw [List.eq_nil_iff_forall_not_mem]
  simp only [hu.mem_iff]
  exact forall_congr' fun key => by rw [ne_eq, ne_eq, ← not_or, not_and_not_right]

theorem faults_issues (d : Keyed Toml.Value) : Faults d (issues d.entries) := by
  refine ⟨_, _, _, fieldFault_fieldIssue? .., fieldFault_fieldIssue? ..,
    listsUnknown_unknownKeys d, ?_⟩
  simp only [issues, List.isEmpty_iff]
  rfl

/-- There are no faults exactly if `d` is valid. -/
theorem Faults.eq_nil_iff {found : List Text} (hf : Faults d found) : found = [] ↔ Valid d := by
  obtain ⟨namePrefix, script, unknown, hp, hs, hu, rfl⟩ := hf
  have hlast : ∀ issue : Text, (if unknown = [] then [] else [issue]) = [] ↔ unknown = [] := by
    intro issue
    split <;> simp [*]
  rw [List.append_eq_nil_iff, List.append_eq_nil_iff, Option.toList_eq_nil_iff,
    Option.toList_eq_nil_iff, hlast, hp.eq_none_iff, hs.eq_none_iff, hu.eq_nil_iff]
  constructor
  · rintro ⟨⟨hstart, hscript⟩, hknown⟩
    exact ⟨hknown, hstart, hscript⟩
  · rintro ⟨hknown, hstart, hscript⟩
    exact ⟨⟨hstart, hscript⟩, hknown⟩

/-! ## Files -/

theorem refuses_of_eq_reject {found : List Text} (hr : read h path = reject path found) :
    Refuses h path found :=
  ⟨by rw [hr]; rfl, by rw [hr]; rfl⟩

theorem refuses_of_readDocument_error {issue : Text} (hd : readDocument h path = .error issue) :
    Refuses h path [issue] := by
  apply refuses_of_eq_reject
  simp only [read, hd]

theorem refuses_of_not_valid (hd : readDocument h path = .ok d.entries) (hv : ¬Valid d) :
    ∃ found, found ≠ [] ∧ Faults d found ∧ Refuses h path found := by
  have hne : issues d.entries ≠ [] := fun e => hv ((faults_issues d).eq_nil_iff.1 e)
  refine ⟨issues d.entries, hne, faults_issues d, refuses_of_eq_reject ?_⟩
  have hvalidate : validate d.entries = .error (issues d.entries) := by
    unfold validate
    split
    · next hnil => exact absurd hnil hne
    · rfl
  simp only [read, hd, hvalidate]

theorem accepts_of_valid (hd : readDocument h path = .ok d.entries) (hv : Valid d) :
    Accepts h path d := by
  refine ⟨textAt d.entries prefixKey, textAt d.entries scriptKey,
    find?_eq_map_textAt hv.namePrefix, find?_eq_map_textAt hv.script, ?_⟩
  have hvalidate : validate d.entries =
      .ok ⟨textAt d.entries prefixKey, textAt d.entries scriptKey⟩ := by
    unfold validate
    rw [(faults_issues d).eq_nil_iff.2 hv]
  simp only [read, hd, hvalidate]
  rfl

/-- `read` refuses a config file that cannot be read, or is no document, for that alone. One that is
a document `d` is taken exactly if `d` is `Valid`: then nothing is logged, the prefix is what `d`
says, and the script is what `d` says relative to the directory of the file. Otherwise it is refused
for all `Faults` of `d`, in their order, and the log says the same. -/
theorem read_reports_every_issue (h : Host) (path : Text) :
    (∀ fault, h.readText .isDirectory path = .error fault →
        Refuses h path ["(file): " ++ fault.message]) ∧
      ∀ text, h.readText .isDirectory path = .ok text →
        (Toml.parse? text = none → Refuses h path ["(file): " ++ notToml]) ∧
        ∀ fields, Toml.parse? text = some fields →
          ∃ d : Keyed Toml.Value, d.entries = fields ∧
            ((∃ config, (read h path).outcome = .ok config) ↔ Valid d) ∧
            (Valid d → Accepts h path d) ∧
            (¬Valid d → ∃ found, found ≠ [] ∧ Faults d found ∧ Refuses h path found) := by
  refine ⟨fun fault hr => ?_, fun text hr => ⟨fun hp => ?_, fun fields hp => ?_⟩⟩
  · exact refuses_of_readDocument_error (by simp only [readDocument, hr])
  · exact refuses_of_readDocument_error (by simp only [readDocument, hr, hp])
  · let d : Keyed Toml.Value := ⟨fields, Toml.distinct_of_parse? hp⟩
    have hd : readDocument h path = .ok d.entries := by simp only [readDocument, hr, hp, d]
    refine ⟨d, rfl, ⟨?_, fun hv => ?_⟩, accepts_of_valid hd, refuses_of_not_valid hd⟩
    · rintro ⟨config, hok⟩
      by_contra hv
      obtain ⟨found, -, -, hrefuses⟩ := refuses_of_not_valid hd hv
      rw [hrefuses.outcome] at hok
      cases hok
    · obtain ⟨namePrefix, script, -, -, hread⟩ := accepts_of_valid hd hv
      exact ⟨_, by rw [hread]⟩

/-- A config with a prefix that is no text, an empty script and two unknown keys, the later of which
is an index. -/
def faultyText : Text := "b=true\nscript=''\n1=true\nprefix=true"

/-- A host with `faultyText` as `c` in its root. -/
def faultyHost : Host :=
  ⟨⟨[([['c']], .file (faultyText.map fun c => UInt8.ofNat c.toNat) false)]⟩, .root, []⟩

/-- All that is wrong with `faultyText`. -/
def faultyIssues : List Text :=
  [ "prefix: Expected string, received boolean",
    "script: Script path cannot be empty",
    "(root): Unrecognized key(s) in object: '1', 'b'" ]

theorem read_faultyHost : Refuses faultyHost ['c'] faultyIssues := by
  have hr : faultyHost.readText .isDirectory ['c'] = .ok faultyText := rfl
  have hissues : (Toml.parse? faultyText).map issues = some faultyIssues := by decide +kernel
  obtain ⟨fields, hp, hfound⟩ := Option.map_eq_some_iff.1 hissues
  obtain ⟨d, rfl, -, -, hrefuses⟩ :=
    ((read_reports_every_issue faultyHost ['c']).2 faultyText hr).2 fields hp
  have hv : ¬Valid d := fun hv => by
    rw [(faults_issues d).eq_nil_iff.2 hv] at hfound
    cases hfound
  obtain ⟨found, -, -, houtcome, hlog⟩ := hrefuses hv
  have hread : (read faultyHost ['c']).outcome = .error ⟨['c'], issues d.entries⟩ := by
    simp only [read, readDocument, hr, hp, validate, hfound, faultyIssues]
    rfl
  rw [houtcome, hfound] at hread
  cases hread
  exact ⟨houtcome, hlog⟩

end ShellDoc.Config
