import Mathlib.Data.List.DropRight
import ShellDoc.Proofs.Answer
import ShellDoc.Proofs.FunctionNames

/-!
# The commands in a usage text

The commands section of a usage text is the listing of the script without the blanks at its end.

* `Record.isVoid`: a record of which nothing can be seen. It is one of a function that has the
  prefix for its whole name and no comment.
* `Usage.ShowsAll`: the section shows records, and all of them.
* `Usage.showsAll_commandsText`: the section shows all records but the void ones at the end.
* `Usage.exists_isVoid_iff`: which functions have void records.
-/

namespace ShellDoc

namespace Record

/-- Nothing of `r` can be seen: there is no name to show and no comment. -/
def isVoid (r : Record) : Bool := r.name.isEmpty && r.comment.isEmpty

/-- The lines of `r` in a listing. -/
def lines (r : Record) : List Text := Lines.read r.render

end Record

namespace Listing.Item

variable {e : Item}

theorem lines_record (e : Item) : e.record.lines = e.lines := by
  rw [Record.lines, render_record, Lines.read_terminate e.unbroken_of_mem_lines]

theorem isVoid_record_iff : e.record.isVoid = true ↔ e.name = [] ∧ e.fragments = [] := by
  rw [Record.isVoid, Bool.and_eq_true, List.isEmpty_iff, List.isEmpty_iff]
  exact and_congr_right' e.join_fragments_eq_nil_iff

/-- A void item takes one blank line. -/
theorem lines_of_isVoid (h : e.record.isVoid = true) : e.lines = [Record.nameIndent] := by
  obtain ⟨hname, hfragments⟩ := isVoid_record_iff.1 h
  simp [lines, hname, hfragments]

/-- An item that is not void ends in a line that is not blank, with nothing but empty lines behind
it. -/
theorem exists_lines_of_not_isVoid (h : e.record.isVoid = false) :
    ∃ front last feeds, e.lines = front ++ last :: feeds ∧ (∀ line ∈ feeds, line = []) ∧
      ¬Text.AllBlank last := by
  rcases List.eq_nil_or_concat e.fragments with hnil | ⟨fragments, text, hconcat⟩
  · have hname : e.name ≠ [] := fun hname => by
      rw [isVoid_record_iff.2 ⟨hname, hnil⟩] at h
      cases h
    refine ⟨[], Record.nameIndent ++ e.name, [], by simp [lines, hnil], by simp, fun hblank => ?_⟩
    obtain ⟨c, rest, hc⟩ := List.exists_cons_of_ne_nil hname
    have hmem : c ∈ e.name := hc ▸ List.mem_cons_self
    have hsolid := e.name_solid c hmem
    rw [hblank c (List.mem_append_right _ hmem)] at hsolid
    cases hsolid
  · rw [List.concat_eq_append] at hconcat
    refine ⟨(Record.nameIndent ++ e.name) :: fragments.map (Comment.indent ++ ·),
      Comment.indent ++ text, [[]], by simp [lines, hconcat], by simp, fun hblank => ?_⟩
    exact e.not_allBlank text (by simp [hconcat]) fun c hc => hblank c (List.mem_append_right _ hc)

end Listing.Item

namespace Usage

open Listing

variable {records : List Record} {commands : Text} {items : List Item} {front feeds : List Text}
  {last : Text}

/-- The text `commands` shows the `records`, and all of them. It is `noCommands` exactly if there
are none. Otherwise it is their listing, without the blanks at the end of its last line and the line
feeds behind them, and every line of a record that is not empty is still there, but for blanks at
its end. -/
structure ShowsAll (records : List Record) (commands : Text) : Prop where
  placeholder_iff : commands = noCommands ↔ records = []
  complete : records ≠ [] → ∃ w n, Text.AllBlank w ∧ Lines.Unbroken w ∧
    (Extract.write records).text = commands ++ w ++ List.replicate (n + 1) '\n'
  present : ∀ r ∈ records, ∀ line ∈ r.lines, line ≠ [] →
    ∃ shown ∈ Lines.read commands, shown ≠ [] ∧ ∃ w, Text.AllBlank w ∧ line = shown ++ w

theorem terminate_of_eq_nil (h : ∀ line ∈ feeds, line = []) :
    Lines.terminate feeds = List.replicate feeds.length '\n' := by
  induction feeds with
  | nil => rfl
  | cons line feeds ih =>
    obtain ⟨rfl, hrest⟩ := List.forall_mem_cons.1 h
    rw [Lines.terminate_cons, ih hrest]
    rfl

theorem allBlank_terminate {lines : List Text} (h : ∀ line ∈ lines, Text.AllBlank line) :
    Text.AllBlank (Lines.terminate lines) := by
  intro c hc
  obtain ⟨line, hline, hc⟩ := List.mem_flatMap.1 hc
  rcases List.mem_append.1 hc with hc | hc
  · exact h line hline c hc
  · rw [List.mem_singleton.1 hc]
    decide

/-- `trimEnd` of a listing goes back to the last line that is not blank. -/
theorem trimEnd_terminate {behind : List Text} (hlast : ¬Text.AllBlank last)
    (hbehind : ∀ line ∈ behind, Text.AllBlank line) :
    Text.trimEnd (Lines.terminate (front ++ last :: behind)) =
      Lines.terminate front ++ Text.trimEnd last := by
  have hblank : Text.AllBlank ('\n' :: Lines.terminate behind) := by
    intro c hc
    rcases List.mem_cons.1 hc with rfl | hc
    · decide
    · exact allBlank_terminate hbehind c hc
  rw [Lines.terminate_append, Lines.terminate_cons, ← List.append_assoc,
    Text.trimEnd_append_blank hblank, Text.trimEnd_append _ hlast]

theorem unbroken_of_mem_flatMap_lines {line : Text} (h : line ∈ items.flatMap Item.lines) :
    Lines.Unbroken line := by
  obtain ⟨e, -, he⟩ := List.mem_flatMap.1 h
  exact e.unbroken_of_mem_lines line he

/-- `read` gives the lines of a listing that is trimmed in its last line. -/
theorem read_trimmed (hlines : items.flatMap Item.lines = front ++ last :: feeds)
    (hlast : ¬Text.AllBlank last) :
    Lines.read (Lines.terminate front ++ Text.trimEnd last) = front ++ [Text.trimEnd last] := by
  have hunbroken : ∀ line ∈ front ++ last :: feeds, Lines.Unbroken line := fun line h =>
    unbroken_of_mem_flatMap_lines (hlines ▸ h)
  refine Lines.read_terminate_append (fun line h => hunbroken line (by simp [h])) ?_
    (Text.trimEnd_ne_nil hlast)
  obtain ⟨w, -, hw⟩ := Text.exists_eq_trimEnd_append last
  intro c hc
  refine hunbroken last (by simp) c ?_
  rw [hw]
  exact List.mem_append_left w hc

/-- Every line of `items` that is not empty is a line of the trimmed listing, but for blanks at its
end. -/
theorem exists_mem_read_trimmed (hlines : items.flatMap Item.lines = front ++ last :: feeds)
    (hfeeds : ∀ line ∈ feeds, line = []) (hlast : ¬Text.AllBlank last) {line : Text}
    (hline : line ∈ items.flatMap Item.lines) (hne : line ≠ []) :
    ∃ shown ∈ Lines.read (Lines.terminate front ++ Text.trimEnd last), shown ≠ [] ∧
      ∃ w, Text.AllBlank w ∧ line = shown ++ w := by
  rw [read_trimmed hlines hlast]
  rw [hlines, List.mem_append, List.mem_cons] at hline
  rcases hline with h | rfl | h
  · exact ⟨line, by simp [h], hne, [], by simp [Text.AllBlank], by simp⟩
  · obtain ⟨w, hw, heq⟩ := Text.exists_eq_trimEnd_append line
    exact ⟨Text.trimEnd line, by simp, Text.trimEnd_ne_nil hlast, w, hw, heq⟩
  · exact absurd (hfeeds line h) hne

/-- `noCommands` is no line of a record: it has a blank where a name has none. -/
theorem nameLine_ne_noCommands_append (e : Item) (w : Text) :
    Record.nameIndent ++ e.name ≠ noCommands ++ w := by
  intro h
  have hname : e.name = ("(none documented)" : String) ++ w :=
    List.append_cancel_left (h.trans (List.append_assoc Record.nameIndent _ w))
  have hsolid := e.name_solid ' ' (by rw [hname]; simp)
  exact absurd hsolid (by decide)

/-- A listing that is trimmed in its last line shows all its records. -/
theorem showsAll_of_lines (hne : items ≠ [])
    (hlines : items.flatMap Item.lines = front ++ last :: feeds)
    (hfeeds : ∀ line ∈ feeds, line = []) (hlast : ¬Text.AllBlank last) :
    ShowsAll (items.map Item.record) (Lines.terminate front ++ Text.trimEnd last) where
  placeholder_iff := by
    refine iff_of_false (fun hplaceholder => ?_) (by simpa using hne)
    obtain ⟨e, others, rfl⟩ := List.exists_cons_of_ne_nil hne
    have hname : Record.nameIndent ++ e.name ∈ (e :: others).flatMap Item.lines := by
      simp [Item.lines]
    obtain ⟨shown, hshown, -, w, -, hw⟩ :=
      exists_mem_read_trimmed hlines hfeeds hlast hname (by simp [Record.nameIndent])
    have hread : Lines.read noCommands = [noCommands] := by decide
    rw [hplaceholder, hread, List.mem_singleton] at hshown
    exact nameLine_ne_noCommands_append e w (hshown ▸ hw)
  complete _ := by
    obtain ⟨w, hw, hlast_eq⟩ := Text.exists_eq_trimEnd_append last
    have hunbroken : Lines.Unbroken last := unbroken_of_mem_flatMap_lines (by rw [hlines]; simp)
    refine ⟨w, feeds.length, hw, fun c hc => hunbroken c ?_, ?_⟩
    · rw [hlast_eq]
      exact List.mem_append_right _ hc
    · rw [text_write_record, hlines, Lines.terminate_append, Lines.terminate_cons,
        terminate_of_eq_nil hfeeds, List.replicate_succ]
      nth_rewrite 1 [hlast_eq]
      simp only [List.append_assoc]
  present r hr line hline hnonempty := by
    obtain ⟨e, he, rfl⟩ := List.mem_map.1 hr
    rw [Item.lines_record] at hline
    exact exists_mem_read_trimmed hlines hfeeds hlast (List.mem_flatMap.2 ⟨e, he, hline⟩) hnonempty

theorem text_write_append (records others : List Record) :
    (Extract.write (records ++ others)).text =
      (Extract.write records).text ++ (Extract.write others).text := by
  simp [Extract.write, Output.text]

/-- `commandsText` shows all records but the void ones at the end. -/
theorem showsAll_commandsText (items : List Item) :
    ShowsAll ((items.map Item.record).rdropWhile Record.isVoid)
      (commandsText (Extract.write (items.map Item.record))) := by
  induction items using List.reverseRecOn with
  | nil => exact ⟨by decide, by simp, by simp⟩
  | append_singleton items e ih =>
    have hrecords : (items ++ [e]).map Item.record = items.map Item.record ++ [e.record] := by simp
    cases hvoid : e.record.isVoid with
    | true =>
      -- a blank line at the end of the listing is gone with the others
      have htext : (Extract.write [e.record]).text = Lines.terminate [Record.nameIndent] := by
        rw [← Item.lines_of_isVoid hvoid, ← Item.render_record]
        simp [Extract.write, Output.text]
      have hblank : Text.AllBlank (Lines.terminate [Record.nameIndent]) :=
        allBlank_terminate (by decide)
      have htrim : Text.trimEnd (Extract.write (items.map Item.record ++ [e.record])).text =
          Text.trimEnd (Extract.write (items.map Item.record)).text := by
        rw [text_write_append, htext, Text.trimEnd_append_blank hblank]
      rw [hrecords, List.rdropWhile_concat_pos _ _ _ hvoid, commandsText, htrim]
      exact ih
    | false =>
      obtain ⟨front, last, feeds, he, hfeeds, hlast⟩ := Item.exists_lines_of_not_isVoid hvoid
      have hlines : (items ++ [e]).flatMap Item.lines =
          items.flatMap Item.lines ++ front ++ last :: feeds := by
        simp [he]
      have hbehind : ∀ line ∈ feeds, Text.AllBlank line := fun line h => by
        simp [hfeeds line h, Text.AllBlank]
      have hkept : ((items ++ [e]).map Item.record).rdropWhile Record.isVoid =
          (items ++ [e]).map Item.record := by
        rw [hrecords, List.rdropWhile_concat_neg _ _ _ (by simp [hvoid])]
      rw [hkept, commandsText, text_write_record, hlines, trimEnd_terminate hlast hbehind,
        if_neg (by simp [Text.trimEnd_ne_nil hlast])]
      exact showsAll_of_lines (by simp) hlines hfeeds hlast

theorem dropWhile_unbroken_append_feed {w : Text} (hw : Lines.Unbroken w) (rest : Text) :
    (w ++ '\n' :: rest).dropWhile (· != '\n') = '\n' :: rest := by
  rw [List.dropWhile_append_of_pos]
  · simp
  · intro c hc
    rw [bne_iff_ne]
    rintro rfl
    exact absurd (hw _ hc) (by decide)

/-- If `commands` shows all of `records`, it does not show all of `records ++ others` as well: from
the first line feed that it lacks on there would be nothing but line feeds, and a name is
indented. -/
theorem ShowsAll.eq_nil_of_append {others : List Record} (h : ShowsAll records commands)
    (hmore : ShowsAll (records ++ others) commands) : others = [] := by
  by_contra hne
  have hboth : records ++ others ≠ [] := by simp [hne]
  have hrecords : records ≠ [] :=
    mt h.placeholder_iff.2 (mt hmore.placeholder_iff.1 hboth)
  obtain ⟨w, n, -, hw, htext⟩ := h.complete hrecords
  obtain ⟨w', n', -, hw', htext'⟩ := hmore.complete hboth
  rw [text_write_append, htext, List.append_assoc, List.append_assoc, List.append_assoc,
    List.append_cancel_left_eq, List.replicate_succ, List.replicate_succ] at htext'
  have hfeeds := congrArg (List.dropWhile (· != '\n')) htext'
  rw [List.cons_append, dropWhile_unbroken_append_feed hw, dropWhile_unbroken_append_feed hw']
    at hfeeds
  have hindent : ' ' ∈ (Extract.write others).text := by
    obtain ⟨r, rest, rfl⟩ := List.exists_cons_of_ne_nil hne
    have hr : ' ' ∈ r.render := by
      unfold Record.render
      split <;> simp [Record.nameIndent]
    exact List.mem_flatten_of_mem List.mem_cons_self hr
  have hmem : ' ' ∈ List.replicate n' '\n' := by
    rw [← List.tail_eq_of_cons_eq hfeeds]
    exact List.mem_append_right _ hindent
  exact absurd (List.eq_of_mem_replicate hmem) (by decide)

theorem rdropWhile_isVoid_eq_self_iff :
    records.rdropWhile Record.isVoid = records ↔ ∀ r ∈ records.getLast?, r.isVoid = false := by
  rw [List.rdropWhile_eq_self_iff]
  constructor
  · intro h r hr
    obtain ⟨front, rfl⟩ := List.getLast?_eq_some_iff.1 hr
    simpa using h (by simp)
  · intro h hne
    simpa using h _ (List.getLast?_eq_some_getLast hne)

/-- If `commands` shows all records but the void ones at the end, it shows all of them exactly if
the last one is not void. -/
theorem ShowsAll.showsAll_iff (h : ShowsAll (records.rdropWhile Record.isVoid) commands) :
    ShowsAll records commands ↔ ∀ r ∈ records.getLast?, r.isVoid = false := by
  rw [← rdropWhile_isVoid_eq_self_iff]
  constructor
  · intro hall
    have hsplit : records.rdropWhile Record.isVoid ++ records.rtakeWhile Record.isVoid = records :=
      List.rdropWhile_append_rtakeWhile
    have hnil := h.eq_nil_of_append (hsplit.symm ▸ hall)
    rwa [hnil, List.append_nil] at hsplit
  · intro hself
    rwa [hself] at h

/-- `scan` has a void record exactly if a function is named like `namePrefix` and has no comment. -/
theorem exists_isVoid_iff {namePrefix : Option Text} {lines : List Text} :
    (∃ r ∈ scan { namePrefix := namePrefix } lines, r.isVoid = true) ↔
      ⟨namePrefix.getD [], []⟩ ∈ scan .all lines := by
  have hvoid : ∀ r : Record, r.isVoid = true ↔ r = ⟨[], []⟩ := fun ⟨name, comment⟩ => by
    simp [Record.isVoid]
  simp only [hvoid, exists_eq_right, mem_scan_iff, List.append_nil]

theorem name_ne_nil_of_mem_scan {c : Criterion} {lines : List Text} {r : Record}
    (hc : c.namePrefix.getD [] = []) (hr : r ∈ scan c lines) : r.name ≠ [] := by
  obtain ⟨i, header, -, hrecord⟩ := exists_of_mem_scan hr
  obtain ⟨hheader, hname, -⟩ := Scanner.record?_eq_some_iff.1 hrecord
  obtain ⟨-, hdisplay⟩ := Criterion.displayName?_eq_some_iff.1 hname
  rw [hc, List.nil_append] at hdisplay
  exact hdisplay ▸ hheader

/-- `render` shows, for a script that can be read, all records that `Extract.file` writes but void
ones at the end. So `noCommands` stands for no records, and nothing is lost, exactly if the last
record is not void. A void record is that of a function that is named like `namePrefix` and has no
comment; without a prefix there is none. -/
theorem render_shows_all_unless_void {h : Host} {d : UsageDefinition} {lines : List Text}
    (hl : Extract.sourceLines h d.script = .ok lines) (verbose : Bool) :
    ∃ records commands,
      records = scan { namePrefix := d.namePrefix } lines ∧
      (Extract.file h verbose d.script { namePrefix := d.namePrefix }).outcome =
        .ok (Extract.write records) ∧
      (render h verbose d).outcome = .ok (assemble (sections h.cwd d commands)) ∧
      ShowsAll (records.rdropWhile Record.isVoid) commands ∧
      (ShowsAll records commands ↔ ∀ r ∈ records.getLast?, r.isVoid = false) ∧
      ((∃ r ∈ records, r.isVoid = true) ↔ ⟨d.namePrefix.getD [], []⟩ ∈ scan .all lines) ∧
      (d.namePrefix.getD [] = [] → ShowsAll records commands) := by
  obtain ⟨source, rfl⟩ := Extract.exists_source_of_sourceLines hl
  obtain ⟨items, hitems⟩ := Listing.exists_items { namePrefix := d.namePrefix } source
  rw [← Extract.scan_read_eq_scan_split] at hitems
  have hkept := showsAll_commandsText items
  rw [hitems] at hkept
  refine ⟨_, _, rfl, ?_, ?_, hkept, hkept.showsAll_iff, exists_isVoid_iff,
    fun hp => hkept.showsAll_iff.2 ?_⟩
  · rw [Extract.outcome_file, hl]
    rfl
  · rw [outcome_render, hl]
    rfl
  · intro r hr
    have hname := name_ne_nil_of_mem_scan hp (List.mem_of_getLast? hr)
    simp [Record.isVoid, hname]

/-- The usage of a script whose commands have the prefix `p`. -/
def prefixedUsage : UsageDefinition where
  script := ['s']
  namePrefix := some ['p']
  options := .empty

/-- Of the two functions with the prefix `p`, the one behind that has no other name is left out. -/
theorem render_prefixedHost :
    Extract.sourceLines Extract.prefixedHost prefixedUsage.script = .ok (Lines.read prefixedText) ∧
      ∃ commands,
        (render Extract.prefixedHost false prefixedUsage).outcome =
          .ok (assemble (sections .root prefixedUsage commands)) ∧
        ShowsAll [⟨['f'], ("A\n     b" : String)⟩] commands ∧
        ¬ShowsAll [⟨['f'], ("A\n     b" : String)⟩, ⟨[], []⟩] commands := by
  have hl : Extract.sourceLines Extract.prefixedHost prefixedUsage.script =
      .ok (Lines.read prefixedText) := rfl
  obtain ⟨records, commands, hrecords, -, hrender, hkept, hall, -, -⟩ :=
    render_shows_all_unless_void hl false
  obtain rfl : records = [⟨['f'], ("A\n     b" : String)⟩, ⟨[], []⟩] := hrecords.trans (by decide)
  exact ⟨hl, commands, hrender, hkept, fun h => absurd (hall.1 h ⟨[], []⟩ rfl) (by decide)⟩

/-- A host with a script of one function, which is named `p` and has no comment. -/
def bareNameHost : Host :=
  ⟨⟨[([['s']], .file (("p() \x7b\n\x7d\n" : String).toList.map fun c => UInt8.ofNat c.toNat)
    false)]⟩, .root, []⟩

/-- `noCommands` stands there although a record is written. -/
theorem placeholder_hides_a_record :
    (Extract.file bareNameHost false prefixedUsage.script
        { namePrefix := prefixedUsage.namePrefix }).outcome = .ok ⟨[("  \n" : String)], 1⟩ ∧
      (render bareNameHost false prefixedUsage).outcome =
        .ok (assemble (sections .root prefixedUsage noCommands)) := by
  have hl : Extract.sourceLines bareNameHost prefixedUsage.script =
      .ok [("p() \x7b" : String), ['\x7d']] := rfl
  refine ⟨?_, ?_⟩
  · rw [Extract.outcome_file, hl]
    exact congrArg Except.ok (by decide)
  · rw [outcome_render, hl]
    exact congrArg (fun commands => Except.ok (assemble (sections .root prefixedUsage commands)))
      (by decide)

end Usage

end ShellDoc
