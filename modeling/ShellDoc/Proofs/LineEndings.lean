import Mathlib.Data.List.Chain
import ShellDoc.Extract
import ShellDoc.Proofs.LineSplitting

/-!
# Line endings

The three terminators are interchangeable, and they may be mixed. The only junction to avoid is a
carriage return, an empty line and a line feed, which reads as one terminator.

* `Lines.Terminator`, `Lines.join`: lines with a terminator of their own choice between them.
* `Lines.Apart`: two terminators, with a line between them, that do not read as one.
* `Lines.Layout`: lines and terminators that can be told apart. Splitting gives back the lines of
  every layout (`Layout.split_text`), and every text has a layout (`exists_layout`).
-/

namespace ShellDoc.Lines

/-! ## Lines joined -/

/-- What ends a line. -/
inductive Terminator where
  | feed
  | carriage
  | carriageFeed
deriving DecidableEq, Repr

/-- The characters of a terminator. -/
def Terminator.text : Terminator → Text
  | .feed => ['\n']
  | .carriage => ['\r']
  | .carriageFeed => ['\r', '\n']

/-- The line `first`, and `others`, each behind the terminator of the line in front of it. -/
def join (first : Text) (others : List (Terminator × Text)) : Text :=
  first ++ others.flatMap fun other => other.1.text ++ other.2

variable {first : Text} {others : List (Terminator × Text)}

@[simp] theorem join_nil (first : Text) : join first [] = first := List.append_nil first

@[simp] theorem join_cons (first line : Text) (t : Terminator) (others : List (Terminator × Text)) :
    join first ((t, line) :: others) = first ++ (t.text ++ join line others) := by
  simp [join]

instance : DecidablePred Unbroken := fun text =>
  List.decidableBAll (fun c => isTerminator c = false) text

/-- `a` and the terminator of `b` do not run together: they are not a carriage return and an empty
line in front of a line feed. -/
def Apart (a b : Terminator × Text) : Prop := ¬(a = (.carriage, []) ∧ b.1 = .feed)

instance : DecidableRel Apart := fun a b =>
  inferInstanceAs (Decidable (¬(a = (.carriage, []) ∧ b.1 = .feed)))

/-- `Unbroken` lines, and terminators that do not run together. -/
structure Layout where
  first : Text
  others : List (Terminator × Text)
  unbroken : ∀ line ∈ first :: others.map Prod.snd, Unbroken line
  apart : others.IsChain Apart

namespace Layout

/-- The lines of `l`, in order. -/
def lines (l : Layout) : List Text := l.first :: l.others.map Prod.snd

/-- The lines of `l` with their terminators. -/
def text (l : Layout) : Text := join l.first l.others

end Layout

/-! ## Splitting -/

/-- If `join` begins with a line feed, `first` is empty and ended by a line feed. -/
theorem exists_feed_of_head?_join (hf : Unbroken first)
    (h : (join first others).head? = some '\n') :
    first = [] ∧ ∃ line rest, others = (.feed, line) :: rest := by
  cases first with
  | cons c first =>
    obtain ⟨⟨hn, -⟩, -⟩ := unbroken_cons_iff.1 hf
    exact absurd (Option.some.inj h) hn
  | nil =>
    cases others with
    | nil => cases h
    | cons other rest =>
      obtain ⟨t, line⟩ := other
      cases t with
      | feed => exact ⟨rfl, line, rest, rfl⟩
      | carriage => exact absurd (Option.some.inj h) (by decide)
      | carriageFeed => exact absurd (Option.some.inj h) (by decide)

theorem split_unbroken_append_terminator (hf : Unbroken first) (t : Terminator) {rest : Text}
    (h : t = .carriage → rest.head? ≠ some '\n') :
    split (first ++ (t.text ++ rest)) = first :: split rest := by
  cases t with
  | feed => exact split_unbroken_append_feed hf rest
  | carriage =>
    exact (split_append_return first (h rfl)).trans (by rw [split_of_unbroken hf]; rfl)
  | carriageFeed =>
    exact (split_append_return_feed first rest).trans (by rw [split_of_unbroken hf]; rfl)

theorem split_join (hu : ∀ line ∈ first :: others.map Prod.snd, Unbroken line)
    (ha : others.IsChain Apart) :
    split (join first others) = first :: others.map Prod.snd := by
  induction others generalizing first with
  | nil => exact (congrArg split (join_nil first)).trans (split_of_unbroken (hu first (by simp)))
  | cons other others ih =>
    obtain ⟨t, line⟩ := other
    obtain ⟨hf, hrest⟩ := List.forall_mem_cons.1 hu
    obtain ⟨hapart, htail⟩ := List.isChain_cons.1 ha
    have hline : Unbroken line := hrest line (by simp)
    -- only a carriage return could take more than its own, and only a line feed
    have hjoin : t = .carriage → (join line others).head? ≠ some '\n' := by
      rintro rfl h
      obtain ⟨rfl, next, rest, rfl⟩ := exists_feed_of_head?_join hline h
      exact hapart (.feed, next) rfl ⟨rfl, rfl⟩
    rw [join_cons, split_unbroken_append_terminator hf t hjoin, ih hrest htail]
    rfl

theorem Layout.split_text (l : Layout) : split l.text = l.lines := split_join l.unbroken l.apart

/-! ## Every text has a layout -/

/-- The layout `l` with an empty line in front that `t` ends. -/
def Layout.endLine (t : Terminator) (l : Layout)
    (h : t = .carriage → l.text.head? ≠ some '\n') : Layout where
  first := []
  others := (t, l.first) :: l.others
  unbroken := List.forall_mem_cons.2 ⟨unbroken_nil, l.unbroken⟩
  apart := by
    refine List.isChain_cons.2 ⟨fun other hother => ?_, l.apart⟩
    rintro ⟨hcarriage, hfeed⟩
    obtain ⟨rfl, hfirst⟩ := Prod.mk.inj hcarriage
    obtain ⟨rest, hrest⟩ := List.head?_eq_some_iff.1 hother
    obtain ⟨s, line⟩ := other
    obtain rfl : s = .feed := hfeed
    exact h rfl (by simp [Layout.text, hfirst, hrest, Terminator.text])

theorem Layout.text_endLine (t : Terminator) (l : Layout)
    (h : t = .carriage → l.text.head? ≠ some '\n') : (l.endLine t h).text = t.text ++ l.text :=
  join_cons [] l.first t l.others

/-- The layout `l` with the character `c` in front of its first line. -/
def Layout.consChar (c : Char) (l : Layout) (hc : c ≠ '\n' ∧ c ≠ '\r') : Layout where
  first := c :: l.first
  others := l.others
  unbroken := by
    obtain ⟨hf, hrest⟩ := List.forall_mem_cons.1 l.unbroken
    exact List.forall_mem_cons.2 ⟨unbroken_cons_iff.2 ⟨hc, hf⟩, hrest⟩
  apart := l.apart

/-- The layout of one empty line. -/
def Layout.empty : Layout where
  first := []
  others := []
  unbroken := by simp [unbroken_nil]
  apart := .nil

theorem exists_layout (text : Text) : ∃ l : Layout, l.text = text := by
  -- a carriage return takes the line feed behind it along, so the step may go over two characters
  induction hlen : text.length using Nat.strong_induction_on generalizing text with
  | _ n ih =>
    subst hlen
    cases text with
    | nil => exact ⟨.empty, rfl⟩
    | cons c rest =>
      obtain ⟨l, hl⟩ := ih rest.length (by simp) rest rfl
      by_cases hn : c = '\n'
      · exact ⟨l.endLine .feed (by simp), by rw [l.text_endLine, hl, hn]; rfl⟩
      by_cases hr : c = '\r'
      · by_cases hfeed : rest.head? = some '\n'
        · obtain ⟨tail, rfl⟩ := List.head?_eq_some_iff.1 hfeed
          obtain ⟨l, hl⟩ := ih tail.length (by simp only [List.length_cons]; omega) tail rfl
          exact ⟨l.endLine .carriageFeed (by simp), by rw [l.text_endLine, hl, hr]; rfl⟩
        · exact ⟨l.endLine .carriage fun _ => hl ▸ hfeed, by rw [l.text_endLine, hl, hr]; rfl⟩
      · refine ⟨l.consChar c ⟨hn, hr⟩, ?_⟩
        rw [← hl]
        rfl

/-- `split` undoes every `Layout`, whatever ends its lines, so that `Extract.text` depends on the
lines alone. Conversely the pieces of `split text` are `Unbroken`, and `text` is a layout of
them. -/
theorem split_undoes_layout :
    (∀ l : Layout, split l.text = l.lines ∧
      ∀ c, Extract.text c l.text = Extract.write (scan c l.lines)) ∧
    ∀ text, (∀ line ∈ split text, Unbroken line) ∧
      ∃ l : Layout, l.lines = split text ∧ l.text = text := by
  refine ⟨fun l => ⟨l.split_text, fun c => ?_⟩, fun text => ⟨fun _ => unbroken_of_mem_split, ?_⟩⟩
  · rw [Extract.text, l.split_text]
  · obtain ⟨l, rfl⟩ := exists_layout text
    exact ⟨l, l.split_text.symm, rfl⟩

/-- A documented function with a different end behind each line, and empty lines at the end. -/
def mixedLayout : Layout where
  first := ("# Says hi." : String)
  others := [(.carriage, ("f()" : String)), (.feed, ['\x7b']), (.carriage, []), (.carriageFeed, [])]
  unbroken := by decide
  apart := by decide

theorem text_mixedLayout :
    mixedLayout.text = ("# Says hi.\rf()\n\x7b\r\r\n" : String) ∧
      split mixedLayout.text = mixedLayout.lines ∧
      Extract.text .all mixedLayout.text = ⟨[("  f\n    Says hi.\n\n" : String)], 1⟩ := by
  obtain ⟨hsplit, htext⟩ := split_undoes_layout.1 mixedLayout
  exact ⟨by decide, hsplit, (htext .all).trans (by decide)⟩

-- without the condition on junctions: three lines, of which two come back
example : split (join [] [(.carriage, []), (.feed, ['a'])]) = [[], ['a']] := by decide

end ShellDoc.Lines
