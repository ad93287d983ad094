import ShellDoc.Toml.Document

/-!
# The keys of a document

No key comes twice in the root table of a document, whatever its statements are.

* `Toml.Fields.Distinct`: no key comes twice. `Toml.Fields.KeepsDistinct` says so of all results
  of a change, with one lemma for each change that statements make.
* `Toml.statement_distinct`, `Toml.statements_distinct`: one statement, and all of them.
* `Toml.distinct_of_parse?`: the root table of a document.
-/

namespace ShellDoc.Toml

namespace Fields

variable {α : Type} {fields : Fields}

/-- No key comes twice in `fields`. -/
def Distinct (fields : Fields) : Prop := (fields.map Prod.fst).Nodup

/-- `change` makes no key come twice. -/
def KeepsDistinct (change : Fields → Option (Fields × α)) : Prop :=
  ∀ fields result, change fields = some result → fields.Distinct → result.1.Distinct

theorem Distinct.insertEntry (h : fields.Distinct) (key : Text) (value : Value) :
    Distinct (Keyed.insertEntry key value fields) :=
  ((⟨fields, h⟩ : Keyed Value).insert key value).nodup

theorem keepsDistinct_assign (owner : Option Reserved) (keys : List Text) (value : Value) :
    KeepsDistinct (assign owner keys value) := by
  intro fields result h hd
  unfold assign at h
  split at h
  · cases h
  · split at h
    · cases h
    · cases h
      exact hd.insertEntry ..
  · split at h
    · cases h
    · split at h
      · split at h
        · cases h
          exact hd.insertEntry ..
        · obtain ⟨inner, -, h⟩ := Option.bind_eq_some_iff.1 h
          cases h
          exact hd.insertEntry ..
      · obtain ⟨inner, -, h⟩ := Option.bind_eq_some_iff.1 h
        cases h
        exact hd.insertEntry ..
      · cases h

/-- `within` keeps keys distinct if `change` does: only the table at the end of the way could get a
key twice. -/
theorem keepsDistinct_within {change : Fields → Option (Fields × α)} (hc : KeepsDistinct change)
    (keys : List Text) : KeepsDistinct (within keys change) := by
  intro fields result h hd
  unfold within at h
  split at h
  · exact hc fields result h hd
  · split at h
    · obtain ⟨inner, -, h⟩ := Option.bind_eq_some_iff.1 h
      cases h
      exact hd.insertEntry ..
    · obtain ⟨inner, -, h⟩ := Option.bind_eq_some_iff.1 h
      cases h
      exact hd.insertEntry ..
    · split at h
      · cases h
      · obtain ⟨inner, -, h⟩ := Option.bind_eq_some_iff.1 h
        cases h
        exact hd.insertEntry ..
    · cases h

theorem keepsDistinct_declare (key : Text) : KeepsDistinct (declare key) := by
  intro fields result h hd
  unfold declare at h
  split at h
  · split at h
    · cases h
      exact hd.insertEntry ..
    · cases h
      exact hd.insertEntry ..
  · cases h
    exact hd.insertEntry ..
  · cases h

theorem keepsDistinct_extend (key : Text) : KeepsDistinct (extend key) := by
  intro fields result h hd
  unfold extend at h
  split at h
  · cases h
    exact hd.insertEntry ..
  · cases h
    exact hd.insertEntry ..
  · cases h

end Fields

theorem Builtins.keepsDistinct_assign (b : Builtins) (keys : List Text) (value : Value) :
    Fields.KeepsDistinct fun table => b.assign table keys value := by
  intro fields result h hd
  obtain ⟨⟨table, errand⟩, htable, h⟩ := Option.bind_eq_some_iff.1 h
  have hdistinct := Fields.keepsDistinct_assign none keys value fields _ htable hd
  dsimp only at h
  split at h
  · cases h
    exact hdistinct
  · obtain ⟨b', -, h⟩ := Option.bind_eq_some_iff.1 h
    cases h
    exact hdistinct

/-! ## Documents -/

namespace Draft

variable {d d' : Draft}

theorem enter_distinct {keys : List Text}
    {change : Text → Fields → Option (Fields × Option Reserved)}
    (hc : ∀ key, Fields.KeepsDistinct (change key)) (h : d.enter keys change = some d')
    (hd : d.root.Distinct) : d'.root.Distinct := by
  obtain ⟨last, -, h⟩ := Option.bind_eq_some_iff.1 h
  obtain ⟨⟨root, opened⟩, hroot, h⟩ := Option.bind_eq_some_iff.1 h
  have hdistinct := Fields.keepsDistinct_within (hc last) keys.dropLast d.root _ hroot hd
  dsimp only at h
  split at h
  · cases h
    exact hdistinct
  · cases h
    exact hdistinct

theorem assign_distinct {keys : List Text} {item : Value} (h : d.assign keys item = some d')
    (hd : d.root.Distinct) : d'.root.Distinct := by
  unfold assign at h
  split at h
  · next place _ =>
    obtain ⟨⟨root, builtins⟩, hroot, h⟩ := Option.bind_eq_some_iff.1 h
    cases h
    exact Fields.keepsDistinct_within (d.builtins.keepsDistinct_assign keys item) place d.root _
      hroot hd
  · obtain ⟨builtins, -, h⟩ := Option.bind_eq_some_iff.1 h
    cases h
    exact hd

end Draft

variable {d d' : Draft} {text rest : Text}

/-- `statement` keeps the keys of the root table distinct. -/
theorem statement_distinct {steps : Nat} (h : statement steps d text = some (d', rest))
    (hd : d.root.Distinct) : d'.root.Distinct := by
  unfold statement at h
  split at h
  · obtain ⟨⟨keys, after⟩, -, h⟩ := Option.bind_eq_some_iff.1 h
    dsimp only at h
    split at h
    · obtain ⟨behind, -, h⟩ := Option.bind_eq_some_iff.1 h
      obtain ⟨next, hnext, h⟩ := Option.bind_eq_some_iff.1 h
      cases h
      exact Draft.enter_distinct Fields.keepsDistinct_extend hnext hd
    · cases h
  · obtain ⟨⟨keys, after⟩, -, h⟩ := Option.bind_eq_some_iff.1 h
    dsimp only at h
    split at h
    · obtain ⟨behind, -, h⟩ := Option.bind_eq_some_iff.1 h
      obtain ⟨next, hnext, h⟩ := Option.bind_eq_some_iff.1 h
      cases h
      exact Draft.enter_distinct Fields.keepsDistinct_declare hnext hd
    · cases h
  · obtain ⟨⟨keys, item, builtins, after⟩, -, h⟩ := Option.bind_eq_some_iff.1 h
    obtain ⟨behind, -, h⟩ := Option.bind_eq_some_iff.1 h
    obtain ⟨next, hnext, h⟩ := Option.bind_eq_some_iff.1 h
    cases h
    exact Draft.assign_distinct hnext hd

theorem statements_distinct {steps : Nat} (h : statements steps d text = some d')
    (hd : d.root.Distinct) : d'.root.Distinct := by
  induction steps generalizing d text with
  | zero => cases h
  | succ steps ih =>
    unfold statements at h
    split at h
    · cases h
      exact hd
    · obtain ⟨⟨next, after⟩, hnext, h⟩ := Option.bind_eq_some_iff.1 h
      exact ih h (statement_distinct hnext hd)

theorem distinct_of_parse? {fields : Fields} (h : parse? text = some fields) :
    fields.Distinct := by
  obtain ⟨d, hd, rfl⟩ := Option.map_eq_some_iff.1 h
  exact statements_distinct hd List.nodup_nil

end ShellDoc.Toml
