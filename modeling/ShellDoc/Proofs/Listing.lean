import Mathlib.Data.Set.List
import ShellDoc.Extract
import ShellDoc.Proofs.Criterion
import ShellDoc.Proofs.LineSplitting
import ShellDoc.Proofs.LiveLines

/-!
# Listings

The chunks of an extraction, written one after the other, are a listing, and no record is lost in
it. A name stands two blanks from the margin and has no blank of its own, the lines of a comment
stand four blanks from it, and only the end of a comment leaves an empty line.

* `Listing.Item`: a record that can be read back.
* `Listing.Item.lines`: the lines it takes; `render_record` says that these are what is printed.
* `Listing.decode`: the records of a listing; `decode_terminate` reads items back.
* `Listing.exists_items`: every record that a text gives is an item, so that the records of a text
  are read off its listing (`decode_text`).
-/

namespace ShellDoc

namespace Listing

/-- A record as it stands in a listing: a name without blanks, and the fragments of its comment,
each on one line and none of them blank. -/
structure Item where
  name : Text
  fragments : List Text
  name_solid : ∀ c ∈ name, isBlank c = false
  unbroken : ∀ text ∈ fragments, Lines.Unbroken text
  not_allBlank : ∀ text ∈ fragments, ¬Text.AllBlank text

namespace Item

/-- The record that stands there. -/
def record (e : Item) : Record := ⟨e.name, Comment.join e.fragments⟩

/-- The lines of the item `e`: the name and, if there is a comment, its lines and an empty one. -/
def lines (e : Item) : List Text :=
  (Record.nameIndent ++ e.name) ::
    if e.fragments = [] then [] else e.fragments.map (Comment.indent ++ ·) ++ [[]]

end Item

/-! ## Printing -/

theorem terminate_map_indent {fragments : List Text} (h : fragments ≠ []) :
    Lines.terminate (fragments.map (Comment.indent ++ ·)) =
      Comment.indent ++ Comment.join fragments ++ ['\n'] := by
  induction fragments with
  | nil => exact absurd rfl h
  | cons first rest ih =>
    cases rest with
    | nil => simp [Comment.join]
    | cons next rest =>
      have hjoin : Comment.join (first :: next :: rest) =
          first ++ Comment.separator ++ Comment.join (next :: rest) := by
        simp [Comment.join_cons]
      rw [List.map_cons, Lines.terminate_cons, ih (by simp), hjoin]
      simp [Comment.separator]

theorem Item.join_fragments_eq_nil_iff (e : Item) :
    Comment.join e.fragments = [] ↔ e.fragments = [] := by
  refine Comment.join_eq_nil_iff ?_
  rintro _ ht rfl
  exact e.not_allBlank [] ht (by simp [Text.AllBlank])

/-- `render` prints the record of `e` as its lines. -/
theorem Item.render_record (e : Item) : e.record.render = Lines.terminate e.lines := by
  unfold Record.render Item.lines Item.record
  by_cases h : e.fragments = []
  · simp [h]
  · have hjoin : Comment.join e.fragments ≠ [] := fun hj => h (e.join_fragments_eq_nil_iff.1 hj)
    simp [h, hjoin, terminate_map_indent h]

theorem text_write_record (items : List Item) :
    (Extract.write (items.map Item.record)).text = Lines.terminate (items.flatMap Item.lines) := by
  unfold Output.text Extract.write
  induction items with
  | nil => rfl
  | cons e items ih =>
    simp only [List.map_cons, List.flatten_cons, List.flatMap_cons, Lines.terminate_append,
      Item.render_record] at ih ⊢
    rw [ih]

theorem unbroken_indent : Lines.Unbroken Comment.indent ∧ Lines.Unbroken Record.nameIndent := by
  have h : Comment.indent.all (fun c => !Lines.isTerminator c) = true ∧
      Record.nameIndent.all (fun c => !Lines.isTerminator c) = true := by decide
  simpa [Lines.Unbroken] using h

theorem not_isTerminator_of_not_isBlank {c : Char} (h : isBlank c = false) :
    Lines.isTerminator c = false := by
  unfold Lines.isTerminator
  by_cases hn : c = '\n'
  · subst hn; exact absurd h (by decide)
  · by_cases hr : c = '\r'
    · subst hr; exact absurd h (by decide)
    · simp [hn, hr]

theorem Item.unbroken_of_mem_lines (e : Item) : ∀ line ∈ e.lines, Lines.Unbroken line := by
  have hname : Lines.Unbroken (Record.nameIndent ++ e.name) :=
    unbroken_indent.2.append fun c hc => not_isTerminator_of_not_isBlank (e.name_solid c hc)
  intro line hline
  unfold Item.lines at hline
  rcases List.mem_cons.1 hline with rfl | hline
  · exact hname
  · split at hline
    · cases hline
    · rcases List.mem_append.1 hline with hline | hline
      · obtain ⟨text, ht, rfl⟩ := List.mem_map.1 hline
        exact unbroken_indent.1.append (e.unbroken text ht)
      · rw [List.mem_singleton.1 hline]
        exact Lines.unbroken_nil

/-- `read` gives back the lines of `items`. -/
theorem read_terminate_lines (items : List Item) :
    Lines.read (Lines.terminate (items.flatMap Item.lines)) = items.flatMap Item.lines := by
  apply Lines.read_terminate
  intro line hline
  obtain ⟨e, -, he⟩ := List.mem_flatMap.1 hline
  exact e.unbroken_of_mem_lines line he

/-! ## Reading back -/

/-- One line more, from the end of a listing upwards: the fragments that still lack the name above
them, and the records below. -/
def takeLine (line : Text) (below : List Text × List Record) : List Text × List Record :=
  match Text.stripPrefix? Comment.indent line with
  | some text => (text :: below.1, below.2)
  | none =>
    match Text.stripPrefix? Record.nameIndent line with
    | some name => ([], ⟨name, Comment.join below.1⟩ :: below.2)
    | none => below

/-- The records of a listing. -/
def decode (listing : Text) : List Record := ((Lines.read listing).foldr takeLine ([], [])).2

variable {below : List Text × List Record}

theorem takeLine_nil : takeLine [] below = below := rfl

theorem takeLine_indent (text : Text) :
    takeLine (Comment.indent ++ text) below = (text :: below.1, below.2) := by
  have h : Text.stripPrefix? Comment.indent (Comment.indent ++ text) = some text :=
    Text.stripPrefix?_eq_some_iff.2 rfl
  simp only [takeLine, h]

/-- `takeLine` does not take a name for a line of a comment, for no blank follows the two in front
of it. -/
theorem takeLine_name {name : Text} (h : ∀ c ∈ name, isBlank c = false) :
    takeLine (Record.nameIndent ++ name) below = ([], ⟨name, Comment.join below.1⟩ :: below.2) := by
  have hcomment : Text.stripPrefix? Comment.indent (Record.nameIndent ++ name) = none := by
    rw [Option.eq_none_iff_forall_ne_some]
    intro rest hr
    rw [Text.stripPrefix?_eq_some_iff] at hr
    have hr' : Record.nameIndent ++ name = Record.nameIndent ++ ' ' :: ' ' :: rest := hr
    have hname : name = ' ' :: ' ' :: rest := List.append_cancel_left hr'
    have hblank := h ' ' (hname ▸ List.mem_cons_self)
    exact absurd hblank (by decide)
  have hname : Text.stripPrefix? Record.nameIndent (Record.nameIndent ++ name) = some name :=
    Text.stripPrefix?_eq_some_iff.2 rfl
  simp only [takeLine, hcomment, hname]

theorem foldr_takeLine_indent (fragments : List Text) (below : List Text × List Record) :
    (fragments.map (Comment.indent ++ ·)).foldr takeLine below =
      (fragments ++ below.1, below.2) := by
  induction fragments with
  | nil => rfl
  | cons text fragments ih => rw [List.map_cons, List.foldr_cons, ih, takeLine_indent]; rfl

theorem Item.foldr_takeLine_lines (e : Item) (records : List Record) :
    e.lines.foldr takeLine ([], records) = ([], e.record :: records) := by
  unfold Item.lines Item.record
  by_cases h : e.fragments = []
  · rw [if_pos h, List.foldr_cons, takeLine_name e.name_solid, h]
    rfl
  · rw [if_neg h, List.foldr_cons, List.foldr_append, List.foldr_cons, List.foldr_nil,
      takeLine_nil, foldr_takeLine_indent, takeLine_name e.name_solid, List.append_nil]

theorem foldr_takeLine_items (items : List Item) :
    (items.flatMap Item.lines).foldr takeLine ([], []) = ([], items.map Item.record) := by
  induction items with
  | nil => rfl
  | cons e items ih =>
    rw [List.flatMap_cons, List.foldr_append, ih, Item.foldr_takeLine_lines, List.map_cons]

/-- `decode` reads `items` back from their lines. -/
theorem decode_terminate (items : List Item) :
    decode (Lines.terminate (items.flatMap Item.lines)) = items.map Item.record := by
  rw [decode, read_terminate_lines, foldr_takeLine_items]

/-! ## What a text gives -/

/-- If `lines` are `Unbroken`, `commentAbove` is the `join` of fragments that are `Unbroken` and not
blank. -/
theorem exists_fragments_commentAbove {lines : List Text} (h : ∀ line ∈ lines, Lines.Unbroken line)
    (i : Nat) :
    ∃ fragments, commentAbove lines i = Comment.join fragments ∧
      (∀ text ∈ fragments, Lines.Unbroken text) ∧
      ∀ text ∈ fragments, ¬Text.AllBlank text := by
  refine ⟨_, rfl, ?_, ?_⟩
  · intro text ht
    obtain ⟨⟨line, hline, rfl⟩, -⟩ := Comment.mem_kept_iff.1 ht
    obtain ⟨j, -, rfl⟩ := List.mem_map.1 hline
    -- the description takes an empty line where there is none
    have hj : Lines.Unbroken (lines.getD j []) := by
      by_cases hlen : j < lines.length
      · exact h _ (by simp [hlen])
      · simp [hlen, Lines.unbroken_nil]
    exact fun c hc => hj c (Comment.fragment_subset _ hc)
  · intro text ht hblank
    obtain ⟨-, hd⟩ := Comment.mem_kept_iff.1 ht
    simp [Comment.isDecorative, hblank.trim_eq_nil] at hd

theorem exists_item_of_mem_scan {c : Criterion} {lines : List Text}
    (h : ∀ line ∈ lines, Lines.Unbroken line) {r : Record} (hr : r ∈ scan c lines) :
    ∃ e : Item, e.record = r := by
  obtain ⟨i, header, -, hrecord⟩ := exists_of_mem_scan hr
  obtain ⟨-, hname, hcomment⟩ := Scanner.record?_eq_some_iff.1 hrecord
  obtain ⟨-, hdisplay⟩ := Criterion.displayName?_eq_some_iff.1 hname
  have hsolid : ∀ c ∈ r.name, isBlank c = false := fun c hc =>
    Line.not_isBlank_of_mem_headerName (hdisplay ▸ List.mem_append_right _ hc)
  obtain ⟨fragments, hf, hu, hb⟩ := exists_fragments_commentAbove h i
  refine ⟨⟨r.name, fragments, hsolid, hu, hb⟩, ?_⟩
  rw [Item.record, ← hf, ← hcomment]

/-- The records of `scan` are those of items, so that they can be read back. -/
theorem exists_items (c : Criterion) (source : Text) :
    ∃ items : List Item, items.map Item.record = scan c (Lines.split source) := by
  have h : scan c (Lines.split source) ∈ Set.range (List.map Item.record) := by
    rw [Set.range_list_map]
    exact fun r hr => exists_item_of_mem_scan (fun _ => Lines.unbroken_of_mem_split) hr
  exact h

/-- `decode` reads the records of `source` off what `Extract.text` writes. -/
theorem decode_text (c : Criterion) (source : Text) :
    decode (Extract.text c source).text = scan c (Lines.split source) := by
  obtain ⟨items, h⟩ := exists_items c source
  rw [Extract.text, ← h, text_write_record, decode_terminate]

end Listing

/-- A listing loses nothing. If `Extract.text` writes the same of `a` under `c` and of `b` under
`c'`, `scan` has the same records, for `decode` reads them off the listing: it consists of the lines
of items, whose names have no blank, whose comments have no blank line, and of which only those with
a comment end with an empty line. -/
theorem records_eq_of_listing_eq (c c' : Criterion) (a b : Text) :
    ((Extract.text c a).text = (Extract.text c' b).text →
        scan c (Lines.split a) = scan c' (Lines.split b)) ∧
      Listing.decode (Extract.text c a).text = scan c (Lines.split a) ∧
      ∃ items : List Listing.Item, items.map Listing.Item.record = scan c (Lines.split a) ∧
        Lines.read (Extract.text c a).text = items.flatMap Listing.Item.lines := by
  refine ⟨fun h => ?_, Listing.decode_text c a, ?_⟩
  · rw [← Listing.decode_text c a, h, Listing.decode_text c' b]
  · obtain ⟨items, h⟩ := Listing.exists_items c a
    refine ⟨items, h, ?_⟩
    rw [Extract.text, ← h, Listing.text_write_record, Listing.read_terminate_lines]

/-- Two functions with the prefix `p`, one of which has no other name, and one without it. -/
def prefixedText : Text := "# A\n#  b\npf() \x7b\rp()\r\n\x7b\ng() \x7b"

/-- The same two functions with the prefix `q`, spelled differently, behind another one. -/
def respelledText : Text :=
  "function cf \x7b\n\n  # ---\n# A\n#\n#  b\nqf\t()\n\x7b\nq() \x7b :; \x7d"

theorem records_of_prefixedText :
    (Extract.text { namePrefix := some ['p'] } prefixedText).text =
        (Extract.text { namePrefix := some ['q'] } respelledText).text ∧
      scan { namePrefix := some ['p'] } (Lines.split prefixedText) =
        [⟨['f'], ("A\n     b" : String)⟩, ⟨[], []⟩] := by
  have h : (Extract.text { namePrefix := some ['p'] } prefixedText).text =
      (Extract.text { namePrefix := some ['q'] } respelledText).text := by decide
  refine ⟨h, ?_⟩
  rw [(records_eq_of_listing_eq _ _ _ _).1 h]
  decide

end ShellDoc
