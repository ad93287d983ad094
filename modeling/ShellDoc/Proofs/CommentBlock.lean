import ShellDoc.Comment

/-!
# What a comment block holds

A block is the join of the fragments it has taken in, in order:

* `Comment.kept`: the fragments of some comment lines, less those that document nothing;
* `Comment.join`: fragments as a block, each but the first on a line of its own;
* `Comment.append_join`: taking in a line puts its fragment behind the others or leaves them alone;
* `Comment.foldl_append`: taking in many lines is one join, behind what the block held.

No fragment of a block is empty (`Comment.ne_nil_of_mem_kept`), which is why the block itself tells
whether it has taken in any (`Comment.join_eq_nil_iff`).
-/

namespace ShellDoc.Comment

/-- The `fragment`s of comment lines, in order, without those that are decoration. -/
def kept (lines : List Text) : List Text :=
  (lines.map fragment).filter fun text => !isDecorative text

/-- The block that holds `fragments`. -/
def join (fragments : List Text) : Text := separator.intercalate fragments

/-- `fragment line` is a part of `line`. -/
theorem fragment_subset (line : Text) : fragment line ⊆ line := by
  have hdrop : ∀ text : Text, dropSpace text ⊆ text := by
    intro text
    cases text with
    | nil => exact List.Subset.refl _
    | cons c rest =>
      simp only [dropSpace]
      split
      · exact List.subset_cons_self c rest
      · exact List.Subset.refl _
  unfold fragment
  split
  · next rest h =>
    have hrest : rest ⊆ line := fun c hc =>
      (List.dropWhile_sublist _).subset (h ▸ List.mem_cons_of_mem _ hc)
    exact List.Subset.trans (hdrop rest) hrest
  · exact List.Subset.refl _

@[simp] theorem kept_nil : kept [] = [] := rfl

theorem mem_kept_iff {lines : List Text} {text : Text} :
    text ∈ kept lines ↔ (∃ line ∈ lines, fragment line = text) ∧ isDecorative text = false := by
  simp [kept]

@[simp] theorem kept_append (a b : List Text) : kept (a ++ b) = kept a ++ kept b := by
  simp [kept]

theorem kept_singleton (line : Text) :
    kept [line] = if isDecorative (fragment line) then [] else [fragment line] := by
  cases h : isDecorative (fragment line) <;> simp [kept, h]

theorem ne_nil_of_not_isDecorative {text : Text} (h : isDecorative text = false) : text ≠ [] := by
  rintro rfl
  exact absurd h (by decide)

theorem ne_nil_of_mem_kept {lines : List Text} {text : Text} (h : text ∈ kept lines) :
    text ≠ [] := by
  have hd := (List.mem_filter.1 h).2
  exact ne_nil_of_not_isDecorative (by simpa using hd)

@[simp] theorem join_nil : join [] = [] := rfl

/-- `join` puts `separator` in front of every fragment but the first. -/
theorem join_cons (first : Text) (rest : List Text) :
    join (first :: rest) = first ++ rest.flatMap fun text => separator ++ text := by
  induction rest generalizing first with
  | nil => simp [join]
  | cons next rest ih =>
    have hrest := ih next
    rw [join] at hrest ⊢
    rw [List.intercalate_cons_cons, hrest, List.flatMap_cons]
    simp only [List.append_assoc]

/-- `join fragments` is empty only if there are no fragments, for none of them is empty. -/
theorem join_eq_nil_iff {fragments : List Text} (h : ∀ text ∈ fragments, text ≠ []) :
    join fragments = [] ↔ fragments = [] := by
  cases fragments with
  | nil => simp
  | cons first rest =>
    have hfirst : first ≠ [] := h first (by simp)
    simp [join_cons, hfirst]

theorem join_concat {fragments : List Text} (h : fragments ≠ []) (text : Text) :
    join (fragments ++ [text]) = join fragments ++ separator ++ text := by
  cases fragments with
  | nil => exact absurd rfl h
  | cons first rest => simp [join_cons]

/-- `append` with one more comment line puts its fragment behind the others, unless that is
decoration. -/
theorem append_join {fragments : List Text} (h : ∀ text ∈ fragments, text ≠ []) (line : Text) :
    append (join fragments) line = join (fragments ++ kept [line]) := by
  rw [kept_singleton]
  unfold append
  by_cases hd : isDecorative (fragment line) = true
  · simp only [hd, ↓reduceIte, List.append_nil]
  · by_cases hf : fragments = []
    · subst hf
      simp only [hd, Bool.false_eq_true, ↓reduceIte, join_nil, List.isEmpty_nil, List.nil_append,
        join_cons, List.flatMap_nil, List.append_nil]
    · have hj : join fragments ≠ [] := fun e => hf ((join_eq_nil_iff h).1 e)
      simp only [hd, Bool.false_eq_true, ↓reduceIte, List.isEmpty_iff, hj, join_concat hf]

theorem foldl_append_join {fragments : List Text} (h : ∀ text ∈ fragments, text ≠ [])
    (lines : List Text) :
    lines.foldl append (join fragments) = join (fragments ++ kept lines) := by
  induction lines generalizing fragments with
  | nil => simp
  | cons line lines ih =>
    have hnext : ∀ text ∈ fragments ++ kept [line], text ≠ [] :=
      List.forall_mem_append.2 ⟨h, fun _ => ne_nil_of_mem_kept⟩
    have hkept : kept (line :: lines) = kept [line] ++ kept lines := kept_append [line] lines
    rw [List.foldl_cons, append_join h, ih hnext, hkept, List.append_assoc]

/-- `append` over many `lines` puts what is `kept` of them behind `block`, if `block` holds
something. -/
theorem foldl_append (block : Text) (lines : List Text) :
    lines.foldl append block = join ([block].filter (· ≠ []) ++ kept lines) := by
  have hblock : block = join ([block].filter (· ≠ [])) := by
    by_cases hb : block = []
    · simp [hb]
    · simp [hb, join_cons]
  have hne : ∀ text ∈ [block].filter (· ≠ []), text ≠ [] := by
    intro text ht
    simpa using (List.mem_filter.1 ht).2
  rw [← foldl_append_join hne, ← hblock]

end ShellDoc.Comment
