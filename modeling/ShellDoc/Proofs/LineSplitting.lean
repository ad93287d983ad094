import ShellDoc.Text.Lines

/-!
# Laws of line splitting

* `Lines.split_append_feed`, `Lines.split_append_return`, `Lines.split_append_return_feed`: at each
  of the three terminators a text splits into the pieces before and the pieces behind it.
* `Lines.exists_split_append_feeds`: two line feeds in a row leave an empty piece, also where the
  first of them belongs to a carriage return in front.
* `Lines.split_eq_read_append`: `read` gives the pieces of a text, less the empty one behind a
  terminator at the very end; `Lines.completed_eq_dropLast_split`: `completed` gives them less the
  last one, whatever it is.
* `Lines.Unbroken`: a text on one line. The pieces of a text are such texts, and reading gives back
  such texts when each was ended by a line feed (`Lines.read_terminate`).
-/

namespace ShellDoc.Lines

/-! ## Pieces -/

/-- The `Pieces` of `text`, with what `Pieces.cons` has to know of them. -/
def pieces (text : Text) : Pieces := text.foldr Pieces.cons ⟨[], [], false⟩

theorem split_eq (text : Text) : split text = (pieces text).toList := rfl

theorem pieces_cons (c : Char) (text : Text) : pieces (c :: text) = (pieces text).cons c := rfl

theorem pieces_append (a b : Text) : pieces (a ++ b) = a.foldr Pieces.cons (pieces b) := by
  simp [pieces]

theorem pieces_return_feed (text : Text) :
    pieces ('\r' :: '\n' :: text) = ⟨[], split text, false⟩ := rfl

theorem feedNext_pieces (text : Text) :
    (pieces text).feedNext = true ↔ text.head? = some '\n' := by
  cases text with
  | nil => simp [pieces]
  | cons c text =>
    rw [pieces_cons, Pieces.cons]
    by_cases hn : c = '\n'
    · simp [hn]
    · by_cases hr : c = '\r'
      · cases h : (pieces text).feedNext <;> simp [hr]
      · simp [hn, hr]

/-- If `text` begins with a line feed, its first piece is empty. -/
theorem first_eq_nil_of_feedNext {text : Text} (h : (pieces text).feedNext = true) :
    (pieces text).first = [] := by
  obtain ⟨rest, rfl⟩ := List.head?_eq_some_iff.1 ((feedNext_pieces text).1 h)
  rfl

theorem pieces_return {text : Text} (h : text.head? ≠ some '\n') :
    pieces ('\r' :: text) = ⟨[], split text, false⟩ := by
  have hf : (pieces text).feedNext = false := by
    simpa using fun hf => h ((feedNext_pieces text).1 hf)
  simp [pieces_cons, Pieces.cons, hf, split_eq]

/-- The pieces of `p` with `more` behind them. -/
def Pieces.followedBy (p : Pieces) (more : List Text) : Pieces :=
  { p with others := p.others ++ more }

@[simp] theorem Pieces.toList_followedBy (p : Pieces) (more : List Text) :
    (p.followedBy more).toList = p.toList ++ more := rfl

theorem Pieces.cons_followedBy (c : Char) (p : Pieces) (more : List Text) :
    (p.followedBy more).cons c = (p.cons c).followedBy more := by
  unfold Pieces.cons Pieces.followedBy
  by_cases hn : c = '\n'
  · simp [hn, Pieces.toList]
  · by_cases hr : c = '\r'
    · cases hf : p.feedNext <;> simp [hr, Pieces.toList]
    · simp [hn, hr]

theorem foldr_cons_followedBy (text : Text) (p : Pieces) (more : List Text) :
    text.foldr Pieces.cons (p.followedBy more) = (text.foldr Pieces.cons p).followedBy more := by
  induction text with
  | nil => rfl
  | cons c text ih => rw [List.foldr_cons, List.foldr_cons, ih, Pieces.cons_followedBy]

/-! ## At a terminator -/

/-- If `b` begins with a whole terminator, `split` puts its pieces behind those of `a`. -/
theorem split_append_of_pieces {b : Text} {more : List Text} (h : pieces b = ⟨[], more, false⟩)
    (a : Text) : split (a ++ b) = split a ++ more := by
  have hb : pieces b = Pieces.followedBy ⟨[], [], false⟩ more := h
  rw [split_eq, pieces_append, hb, foldr_cons_followedBy, Pieces.toList_followedBy]
  rfl

theorem split_append_return_feed (a b : Text) :
    split (a ++ '\r' :: '\n' :: b) = split a ++ split b :=
  split_append_of_pieces (pieces_return_feed b) a

theorem split_append_return (a : Text) {b : Text} (h : b.head? ≠ some '\n') :
    split (a ++ '\r' :: b) = split a ++ split b :=
  split_append_of_pieces (pieces_return h) a

/-- A line feed ends a piece of `split` unless a carriage return in front has done so. -/
theorem split_append_feed {a : Text} (h : a.getLast? ≠ some '\r') (b : Text) :
    split (a ++ '\n' :: b) = split a ++ split b := by
  rcases List.eq_nil_or_concat a with rfl | ⟨start, d, rfl⟩
  · rfl
  · rw [List.concat_eq_append] at h ⊢
    have hd : d ≠ '\r' := by simpa using h
    have hlast : pieces (d :: '\n' :: b) = (pieces [d]).followedBy (split b) := by
      by_cases hn : d = '\n'
      · subst hn; rfl
      · simp [pieces, Pieces.cons, Pieces.followedBy, hn, hd, split]
    rw [List.append_assoc, List.singleton_append, split_eq, pieces_append, hlast,
      foldr_cons_followedBy, ← pieces_append, Pieces.toList_followedBy, split_eq (start ++ [d])]

/-- Two line feeds in a row leave an empty piece in `split`. When a carriage return stands in front,
the first line feed belongs to it, and the empty piece is the one that the return alone would have
left. -/
theorem exists_split_append_feeds (a b : Text) :
    ∃ front, split (a ++ ['\n', '\n'] ++ b) = front ++ [[]] ++ split b ∧
      (split a = front ∨ split a = front ++ [[]]) := by
  by_cases h : a.getLast? = some '\r'
  · obtain ⟨start, rfl⟩ := List.getLast?_eq_some_iff.1 h
    refine ⟨split start, ?_, .inr (split_append_return start (by simp))⟩
    have happ : start ++ ['\r'] ++ ['\n', '\n'] ++ b = start ++ '\r' :: '\n' :: '\n' :: b := by simp
    rw [happ, split_append_return_feed, List.append_assoc]
    rfl
  · refine ⟨split a, ?_, .inl rfl⟩
    have happ : a ++ ['\n', '\n'] ++ b = a ++ '\n' :: '\n' :: b := by simp
    rw [happ, split_append_feed h, List.append_assoc]
    rfl

/-! ## Reading -/

/-- `c` ends a line. -/
def isTerminator (c : Char) : Bool := c == '\n' || c == '\r'

/-- No line is open behind `text`: it is empty or ends with a terminator. -/
def endsClosed (text : Text) : Bool := text.getLast?.all isTerminator

/-- All lines so far, the one that the reader `r` is in included. -/
def Reader.lines (r : Reader) : List Text := r.finished.reverse ++ [r.current.reverse]

theorem Reader.lines_eq_finish_append (r : Reader) :
    r.lines = r.finish ++ if r.current.isEmpty then [[]] else [] := by
  unfold Reader.lines Reader.finish
  cases h : r.current <;> simp

/-- Right behind a carriage return `take` has not begun a line. -/
theorem Reader.current_take_of_afterReturn {r : Reader} {c : Char}
    (h : (r.take c).afterReturn = true) : (r.take c).current = [] := by
  unfold Reader.take at h ⊢
  split at h
  · split at h <;> cases h
  · split at h
    · next hr => simp [hr]
    · cases h

theorem Reader.current_foldl_take_of_afterReturn (text : Text) :
    (text.foldl Reader.take ⟨[], [], false⟩).afterReturn = true →
      (text.foldl Reader.take ⟨[], [], false⟩).current = [] := by
  rcases List.eq_nil_or_concat text with rfl | ⟨start, c, rfl⟩
  · intro _; rfl
  · rw [List.concat_eq_append, List.foldl_append]
    exact Reader.current_take_of_afterReturn

theorem Reader.isEmpty_current_take {r : Reader} (h : r.afterReturn = true → r.current = [])
    (c : Char) : (r.take c).current.isEmpty = isTerminator c := by
  unfold Reader.take isTerminator
  by_cases hn : c = '\n'
  · cases ha : r.afterReturn with
    | true => simp [hn, h ha]
    | false => simp [hn]
  · by_cases hr : c = '\r'
    · simp [hr]
    · simp [hn, hr]

/-- `take` goes through the `pieces` of `text`. The line that `r` is in is the beginning of the
first one; a line feed that belongs to a carriage return that `r` has read makes no piece of its
own. The induction is on `text`, for every `r`. -/
theorem Reader.lines_foldl_take (text : Text) (r : Reader)
    (h : r.afterReturn = true → r.current = []) :
    (text.foldl Reader.take r).lines = r.finished.reverse ++
      if r.afterReturn = true ∧ (pieces text).feedNext = true then (pieces text).others
      else (r.current.reverse ++ (pieces text).first) :: (pieces text).others := by
  induction text generalizing r with
  | nil => simp [Reader.lines, pieces]
  | cons c text ih =>
    rw [List.foldl_cons, ih (r.take c) Reader.current_take_of_afterReturn, pieces_cons]
    unfold Reader.take Pieces.cons
    by_cases hn : c = '\n'
    · subst hn
      cases ha : r.afterReturn with
      | true => simp [h ha, Pieces.toList]
      | false => simp [Pieces.toList]
    · by_cases hr : c = '\r'
      · subst hr
        cases hf : (pieces text).feedNext with
        | true => simp [first_eq_nil_of_feedNext hf]
        | false => simp [Pieces.toList]
      · simp [hn, hr]

theorem split_eq_lines (text : Text) :
    split text = (text.foldl Reader.take ⟨[], [], false⟩).lines := by
  have hlines := Reader.lines_foldl_take text ⟨[], [], false⟩ (by simp)
  simpa [split_eq, Pieces.toList] using hlines.symm

/-- `split text` is `read text` and, behind a terminator at the very end or for an empty text, one
empty piece more. -/
theorem split_eq_read_append (text : Text) :
    split text = read text ++ if endsClosed text then [[]] else [] := by
  have hopen : (text.foldl Reader.take ⟨[], [], false⟩).current.isEmpty = endsClosed text := by
    rcases List.eq_nil_or_concat text with rfl | ⟨start, c, rfl⟩
    · rfl
    · rw [List.concat_eq_append, List.foldl_append, List.foldl_cons, List.foldl_nil,
        Reader.isEmpty_current_take (Reader.current_foldl_take_of_afterReturn start)]
      simp [endsClosed]
  rw [split_eq_lines, Reader.lines_eq_finish_append, hopen, read]

/-- `completed text` lacks the last piece of `split text`, which is the line that `text` breaks off
in. -/
theorem completed_eq_dropLast_split (text : Text) : completed text = (split text).dropLast := by
  rw [split_eq_lines, Reader.lines, List.dropLast_concat, completed]

/-! ## Texts on one line -/

/-- No character of `text` ends a line. -/
def Unbroken (text : Text) : Prop := ∀ c ∈ text, isTerminator c = false

variable {line : Text}

theorem unbroken_nil : Unbroken [] := by simp [Unbroken]

theorem unbroken_cons_iff {c : Char} :
    Unbroken (c :: line) ↔ (c ≠ '\n' ∧ c ≠ '\r') ∧ Unbroken line := by
  simp [Unbroken, isTerminator]

theorem Unbroken.append {a b : Text} (ha : Unbroken a) (hb : Unbroken b) : Unbroken (a ++ b) := by
  intro c hc
  rcases List.mem_append.1 hc with h | h
  · exact ha c h
  · exact hb c h

theorem unbroken_of_mem_split {text : Text} (h : line ∈ split text) : Unbroken line := by
  induction text generalizing line with
  | nil =>
    obtain rfl : line = [] := by simpa [split, Pieces.toList] using h
    exact unbroken_nil
  | cons c text ih =>
    -- behind a terminator the pieces of the rest begin anew, else the first one grows
    have hnew : line ∈ [] :: split text → Unbroken line := fun h => by
      rcases List.mem_cons.1 h with rfl | h
      · exact unbroken_nil
      · exact ih h
    rw [split_eq, pieces_cons, Pieces.cons] at h
    by_cases hn : c = '\n'
    · rw [if_pos hn] at h
      exact hnew h
    · rw [if_neg hn] at h
      by_cases hr : c = '\r'
      · rw [if_pos hr] at h
        cases hf : (pieces text).feedNext with
        | true =>
          rw [if_pos hf] at h
          exact ih h
        | false =>
          rw [hf] at h
          exact hnew h
      · rw [if_neg hr] at h
        rcases List.mem_cons.1 h with rfl | h
        · exact unbroken_cons_iff.2 ⟨⟨hn, hr⟩, ih List.mem_cons_self⟩
        · exact ih (List.mem_cons_of_mem _ h)

theorem split_of_unbroken (h : Unbroken line) : split line = [line] := by
  induction line with
  | nil => rfl
  | cons c line ih =>
    obtain ⟨⟨hn, hr⟩, hline⟩ := unbroken_cons_iff.1 h
    obtain ⟨hfirst, hothers⟩ : (pieces line).first = line ∧ (pieces line).others = [] :=
      List.cons.inj (ih hline)
    rw [split_eq, pieces_cons, Pieces.cons, if_neg hn, if_neg hr, hfirst, hothers]
    rfl

theorem split_unbroken_append_feed (h : Unbroken line) (rest : Text) :
    split (line ++ '\n' :: rest) = line :: split rest := by
  have hlast : line.getLast? ≠ some '\r' := fun hl => by
    have hr := h '\r' (List.mem_of_getLast? hl)
    exact absurd hr (by decide)
  rw [split_append_feed hlast, split_of_unbroken h]
  rfl

/-- The `lines` one after the other, each ended by a line feed. -/
def terminate (lines : List Text) : Text := lines.flatMap fun line => line ++ ['\n']

@[simp] theorem terminate_nil : terminate [] = [] := rfl

@[simp] theorem terminate_cons (lines : List Text) :
    terminate (line :: lines) = line ++ '\n' :: terminate lines := by
  simp [terminate]

@[simp] theorem terminate_append (a b : List Text) :
    terminate (a ++ b) = terminate a ++ terminate b := by
  simp [terminate]

theorem split_terminate {lines : List Text} (h : ∀ line ∈ lines, Unbroken line) :
    split (terminate lines) = lines ++ [[]] := by
  induction lines with
  | nil => rfl
  | cons line lines ih =>
    rw [terminate_cons, split_unbroken_append_feed (h line List.mem_cons_self),
      ih fun line hl => h line (List.mem_cons_of_mem _ hl)]
    rfl

theorem endsClosed_terminate (lines : List Text) : endsClosed (terminate lines) = true := by
  rcases List.eq_nil_or_concat lines with rfl | ⟨front, line, rfl⟩
  · rfl
  · simp [endsClosed, isTerminator]

/-- `read` undoes `terminate`. -/
theorem read_terminate {lines : List Text} (h : ∀ line ∈ lines, Unbroken line) :
    read (terminate lines) = lines := by
  have hsplit := split_eq_read_append (terminate lines)
  rw [split_terminate h, endsClosed_terminate] at hsplit
  exact (List.append_cancel_right hsplit).symm

/-- `read` counts a line at the end that is not ended, unless it is empty. -/
theorem read_terminate_append {lines : List Text} (h : ∀ line ∈ lines, Unbroken line)
    (hline : Unbroken line) (hne : line ≠ []) :
    read (terminate lines ++ line) = lines ++ [line] := by
  have hsplit : split (terminate lines ++ line) = lines ++ [line] := by
    induction lines with
    | nil => exact split_of_unbroken hline
    | cons first lines ih =>
      obtain ⟨hfirst, hrest⟩ := List.forall_mem_cons.1 h
      rw [terminate_cons, List.append_assoc, List.cons_append, split_unbroken_append_feed hfirst,
        ih hrest, List.cons_append]
  have hopen : endsClosed (terminate lines ++ line) = false := by
    obtain ⟨front, c, rfl⟩ := (List.eq_nil_or_concat line).resolve_left hne
    simp only [List.concat_eq_append] at hline ⊢
    simpa [endsClosed] using hline c (by simp)
  have hread := split_eq_read_append (terminate lines ++ line)
  rw [hsplit, hopen] at hread
  simpa using hread.symm

end ShellDoc.Lines
