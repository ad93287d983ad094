import ShellDoc.Proofs.Extraction
import ShellDoc.Proofs.Listing

/-!
# Function names and documentation

The names of a script's functions and the documentation of the script come from two filters: the one
keeps full names that begin with a prefix, the other takes the prefix off inside the scan. Both keep
the same functions.

* `Criterion.map_name_shown?`: what the two filters make of one record.
* `scan_map_name_eq_filter`, `mem_scan_iff`: what they make of the records of a script.
* `Extract.functionNames_eq_map`: the names of a script, whatever the prefix.
-/

namespace ShellDoc

variable {namePrefix : Option Text}

/-- `shown?` shows `r` exactly if its name begins with `namePrefix`, which in front of the shown
name gives the name back. -/
theorem Criterion.map_name_shown? (r : Record) :
    ((⟨none, namePrefix⟩ : Criterion).shown? r).map (fun s => namePrefix.getD [] ++ s.name) =
      Option.guard (namePrefix.getD []).isPrefixOf r.name := by
  apply Option.ext
  intro name
  rw [Option.map_eq_some_iff, Option.guard_eq_some_iff]
  constructor
  · rintro ⟨shown, hs, rfl⟩
    obtain ⟨hname, -⟩ := shown?_eq_some_iff.1 hs
    have hfull := (displayName?_of_no_target rfl).1 hname
    exact ⟨hfull, List.isPrefixOf_iff_prefix.2 ⟨shown.name, hfull.symm⟩⟩
  · rintro ⟨rfl, hp⟩
    obtain ⟨rest, hrest⟩ := List.isPrefixOf_iff_prefix.1 hp
    have hname := (displayName?_of_no_target (c := ⟨none, namePrefix⟩) rfl).2 hrest.symm
    exact ⟨⟨rest, r.comment⟩, shown?_eq_some_iff.2 ⟨hname, rfl⟩, hrest⟩

/-- The names in `scan .all` that begin with `namePrefix` are those of the records under the
prefix. -/
theorem scan_map_name_eq_filter (lines : List Text) :
    (scan { namePrefix := namePrefix } lines).map (fun r => namePrefix.getD [] ++ r.name) =
      ((scan .all lines).map Record.name).filter (namePrefix.getD []).isPrefixOf := by
  rw [scan_eq_filterMap, List.map_filterMap, ← List.filterMap_eq_filter, List.filterMap_map]
  refine List.filterMap_congr fun r _ => ?_
  exact Criterion.map_name_shown? r

/-- The records under `namePrefix` are those of `scan .all` whose names begin with it. -/
theorem mem_scan_iff {lines : List Text} {r : Record} :
    r ∈ scan { namePrefix := namePrefix } lines ↔
      ⟨namePrefix.getD [] ++ r.name, r.comment⟩ ∈ scan .all lines := by
  rw [scan_eq_filterMap, List.mem_filterMap]
  constructor
  · rintro ⟨⟨name, comment⟩, hfull, hshown⟩
    obtain ⟨hname, hcomment⟩ := Criterion.shown?_eq_some_iff.1 hshown
    obtain rfl := (Criterion.displayName?_of_no_target rfl).1 hname
    rwa [hcomment]
  · intro hfull
    have hname : (⟨none, namePrefix⟩ : Criterion).displayName? (namePrefix.getD [] ++ r.name) =
        some r.name := (Criterion.displayName?_of_no_target rfl).2 rfl
    exact ⟨_, hfull, Criterion.shown?_eq_some_iff.2 ⟨hname, rfl⟩⟩

namespace Extract

/-- `functionNames` keeps the names that begin with `namePrefix`; an absent prefix counts as the
empty one. -/
theorem functionNames_eq_map (h : Host) (path : Text) (namePrefix : Option Text) :
    functionNames h path namePrefix = (sourceLines h path).map fun lines =>
      ((scan .all lines).map Record.name).filter (namePrefix.getD []).isPrefixOf := by
  unfold functionNames
  rw [← Text.getD_given]
  cases sourceLines h path with
  | error e => rfl
  | ok lines =>
    cases Text.given namePrefix with
    | none =>
      have hall : ((scan .all lines).map Record.name).filter ([] : Text).isPrefixOf =
          (scan .all lines).map Record.name :=
        List.filter_eq_self.2 fun _ _ => List.isPrefixOf_nil_left
      exact congrArg Except.ok hall.symm
    | some start => rfl

/-- The lines of `sourceLines` are those that `read` finds in some text. -/
theorem exists_source_of_sourceLines {h : Host} {path : Text} {lines : List Text}
    (hl : sourceLines h path = .ok lines) : ∃ source, lines = Lines.read source := by
  have hs := sourceLines_eq_ok_iff.1 hl
  unfold source at hs
  split at hs
  · cases hs
  · cases hs
  · exact ⟨_, (congrArg Source.lines hs).symm⟩

/-- `functionNames` and `file` agree. For a script that can be read and any `namePrefix`, absent and
empty ones too, the names are those of the records that `file` writes, in the same order and with
the prefix put back in front; so there are as many as `count` says. These are also the records that
`decode` reads off the listing. -/
theorem functionNames_eq_map_written {h : Host} {path : Text} {lines : List Text}
    (hl : sourceLines h path = .ok lines) (verbose : Bool) (namePrefix : Option Text) :
    ∃ records output names,
      records = scan { namePrefix := namePrefix } lines ∧
      (file h verbose path { namePrefix := namePrefix }).outcome = .ok output ∧
      (file h verbose path { namePrefix := namePrefix }).written = output.chunks ∧
      output.chunks = records.map Record.render ∧ Listing.decode output.text = records ∧
      functionNames h path namePrefix = .ok names ∧
      names = records.map (fun r => namePrefix.getD [] ++ r.name) ∧
      names.length = output.count := by
  obtain ⟨source, rfl⟩ := exists_source_of_sourceLines hl
  have hfile : (file h verbose path { namePrefix := namePrefix }).outcome =
      .ok (write (scan { namePrefix := namePrefix } (Lines.read source))) := by
    rw [outcome_file, hl]
    rfl
  refine ⟨_, write (scan { namePrefix := namePrefix } (Lines.read source)), _, rfl, hfile,
    written_file_of_ok hfile, rfl, ?_, ?_, rfl, ?_⟩
  · rw [scan_read_eq_scan_split]
    exact Listing.decode_text _ source
  · rw [functionNames_eq_map, hl, scan_map_name_eq_filter]
    rfl
  · rw [List.length_map, count_write]

/-- A host with a script of three functions: one with the prefix `p`, one that is named so and one
without it. -/
def prefixedHost : Host :=
  ⟨⟨[([['s']], .file (prefixedText.map fun c => UInt8.ofNat c.toNat) false)]⟩, .root, []⟩

theorem functionNames_prefixedHost :
    sourceLines prefixedHost ['s'] = .ok (Lines.read prefixedText) ∧
      functionNames prefixedHost ['s'] (some ['p']) = .ok [['p', 'f'], ['p']] ∧
      (file prefixedHost false ['s'] { namePrefix := some ['p'] }).outcome =
        .ok ⟨[("  f\n    A\n     b\n\n" : String), ("  \n" : String)], 2⟩ := by
  have hl : sourceLines prefixedHost ['s'] = .ok (Lines.read prefixedText) := rfl
  obtain ⟨records, ⟨chunks, count⟩, names, rfl, hfile, -, hchunks, -, hnames, rfl, hcount⟩ :=
    functionNames_eq_map_written hl false (some ['p'])
  obtain rfl : chunks = _ := hchunks
  obtain rfl : _ = count := hcount
  exact ⟨hl, hnames.trans (congrArg Except.ok (by decide)),
    hfile.trans (congrArg Except.ok (by decide))⟩

end Extract

end ShellDoc
