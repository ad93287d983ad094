import Mathlib.Data.List.Forall2
import Mathlib.Data.List.MinMax
import ShellDoc.Options.Lines
import ShellDoc.Proofs.ListingOrder

/-!
# Columns of option lines

The lines of a table show each option once, in listing order, with the descriptions in one column.

* `OptionTable.Shows`: what a line shows of an option, and where.
* `OptionTable.Displays`: the lines show the options that were put into a table.
* `OptionTable.width_add_two_le`, `OptionTable.labelWidth_le`: labels are padded two past the widest
  and no further.
* `OptionTable.withHelp_ofList`: the help option in front of a table is an option put in first.
-/

namespace ShellDoc.OptionTable

variable {labels : List Text} {inserted shown : List (Text × OptionDefinition)}

/-- `line` shows the option `e` behind an indent: its label, a gap, and its description, which
begins in the column `column`. -/
structure Shows (column gap : Nat) (e : Text × OptionDefinition) (line : Text) : Prop where
  line_eq : line = "  " ++ label e.1 e.2 ++ List.replicate gap ' ' ++ e.2.description
  column_eq : Text.width ("  " ++ label e.1 e.2 ++ List.replicate gap ' ') = column

/-- No label in `shown` is wider than that of `e`. -/
def IsWidest (shown : List (Text × OptionDefinition)) (e : Text × OptionDefinition) : Prop :=
  ∀ e' ∈ shown, Text.width (label e'.1 e'.2) ≤ Text.width (label e.1 e.2)

/-- `lines` show the options `inserted`, one line each and in listing order, with all descriptions
in one column. The gap behind a label is two spaces or more, and two behind a widest one, which
there is among any options at all. -/
structure Displays (inserted shown : List (Text × OptionDefinition)) (lines : List Text) :
    Prop where
  lists : Keyed.Lists inserted shown
  aligned : ∃ column, List.Forall₂
    (fun e line => ∃ gap, Shows column gap e line ∧ 2 ≤ gap ∧ (IsWidest shown e → gap = 2))
    shown lines
  widest : shown ≠ [] → ∃ e ∈ shown, IsWidest shown e

/-! ## The column -/

theorem width_add_two_le {l : Text} (h : l ∈ labels) : Text.width l + 2 ≤ labelWidth labels :=
  Nat.add_le_add_right (List.le_max_of_le (List.mem_map_of_mem h) le_rfl) 2

theorem labelWidth_le {n : Nat} (h : ∀ l ∈ labels, Text.width l ≤ n) : labelWidth labels ≤ n + 2 :=
  Nat.add_le_add_right (List.max_le_of_forall_le _ _ (List.forall_mem_map.2 h)) 2

theorem exists_isWidest (h : shown ≠ []) : ∃ e ∈ shown, IsWidest shown e := by
  let width := fun e : Text × OptionDefinition => Text.width (label e.1 e.2)
  cases hm : shown.argmax width with
  | none => exact absurd (List.argmax_eq_none.1 hm) h
  | some e => exact ⟨e, List.argmax_mem hm, fun _ he' => List.le_of_mem_argmax (f := width) he' hm⟩

/-- `padTo` the `labelWidth`, which is two past the widest label, leaves a gap that ends in the
column. -/
theorem shows_padTo {e : Text × OptionDefinition} {n : Nat}
    (hn : n = labelWidth (shown.map fun e => label e.1 e.2)) (he : e ∈ shown) :
    ∃ gap, Shows (n + 2) gap e ("  " ++ Text.padTo n (label e.1 e.2) ++ e.2.description) ∧
      2 ≤ gap ∧ (IsWidest shown e → gap = 2) := by
  have hle : Text.width (label e.1 e.2) + 2 ≤ n :=
    hn ▸ width_add_two_le (List.mem_map_of_mem (f := fun e => label e.1 e.2) he)
  refine ⟨n - Text.width (label e.1 e.2), ⟨?_, ?_⟩, by omega, fun hw => ?_⟩
  · simp only [Text.padTo, List.append_assoc]
  · have hindent : Text.width ("  " : String) = 2 := rfl
    simp only [Text.width_append, Text.width_replicate_space, hindent]
    omega
  · have hwidest : n ≤ Text.width (label e.1 e.2) + 2 :=
      hn ▸ labelWidth_le (List.forall_mem_map.2 hw)
    omega

theorem displays_lines (inserted : List (Text × OptionDefinition)) :
    Displays inserted (Keyed.ofList inserted).ordered (lines (.ofList inserted)) := by
  let column := labelWidth ((Keyed.ofList inserted).ordered.map fun e => label e.1 e.2)
  refine ⟨Keyed.lists_ordered inserted, ⟨column + 2, ?_⟩, exists_isWidest⟩
  rw [lines, List.forall₂_map_right_iff, List.forall₂_same]
  exact fun e he => shows_padTo rfl he

/-! ## The help option -/

theorem withHelp_ofList (inserted : List (Text × OptionDefinition)) :
    withHelp (.ofList inserted) = .ofList ((helpKey, help) :: inserted) :=
  Keyed.insertAll_entries_ofList _ inserted

theorem head?_filter_keys (h : Keyed.Lists ((helpKey, help) :: inserted) shown) :
    ((shown.map Prod.fst).filter fun key => (Decimal.index? key).isNone).head? = some helpKey := by
  obtain ⟨indices, -, hmem, hkeys⟩ := h.keys_eq
  have hindices : indices.filter (fun key => (Decimal.index? key).isNone) = [] := by
    rw [List.filter_eq_nil_iff]
    intro key hkey
    simpa [← Option.isSome_iff_ne_none] using ((hmem key).1 hkey).2
  have hhelp : (Decimal.index? helpKey).isNone = true := rfl
  rw [hkeys, List.filter_append, hindices, List.filter_filter, List.map_cons, List.eraseDups_cons]
  simp [hhelp]

/-- `OptionTable.lines` are complete and aligned. Whatever options are `inserted` into a table, each
has one line: first the keys that are indices, ascending, then the others by their first insertion,
each as it was declared last. A line is an indent of two spaces, the `label`, a gap, and the
description, which begins in the same column in all lines; the gap is two spaces or more, and
exactly two behind a widest label. The same holds of `withHelp`, and then `helpKey` comes first
among the keys that are no indices. -/
theorem lines_complete_and_aligned (inserted : List (Text × OptionDefinition)) :
    (∃ shown, Displays inserted shown (lines (.ofList inserted))) ∧
      ∃ shown, Displays ((helpKey, help) :: inserted) shown (withHelp (.ofList inserted)).lines ∧
        ((shown.map Prod.fst).filter fun key => (Decimal.index? key).isNone).head? =
          some helpKey := by
  have hhelp := displays_lines ((helpKey, help) :: inserted)
  rw [← withHelp_ofList] at hhelp
  exact ⟨⟨_, displays_lines inserted⟩, _, hhelp, head?_filter_keys hhelp.lists⟩

-- the index keys come first, and the last character of a label may be two units wide
example :
    lines (.ofList [(['b'], ⟨.value, ['B'], none⟩), (['1', '0'], ⟨.flag, ['X'], none⟩),
      (['9'], ⟨.flag, ['N'], none⟩), (['b'], ⟨.value, ['C'], some ['😀']⟩)]) =
      [("  --9       N" : String), ("  --10      X" : String), ("  --b=<😀>  C" : String)] := by
  cbv

end ShellDoc.OptionTable
