import Mathlib.Data.List.Basic
import Mathlib.Data.List.Induction
import Mathlib.Data.List.Pairwise
import ShellDoc.Keyed
import ShellDoc.Proofs.Numerals

/-!
# Listing order

The order in which the entries of a table are listed.

* `Keyed.Precedes`: one key is listed before another: index keys come first and ascending, the
  others follow as they came.
* `Keyed.ordered_perm`, `Keyed.pairwise_ordered`: all entries are listed, in this order.
* `Keyed.Lists`: the same order, said of the entries that were put in, among which a key may come
  more than once; `Keyed.lists_ordered`.
* `Keyed.insertAll_entries_ofList`: a table that is copied into another leaves there what its own
  entries would leave.
-/

namespace ShellDoc.Keyed

variable {α : Type}

/-- The key `a` is listed before the key `b`. -/
inductive Precedes (t : Keyed α) (a b : Text) : Prop
  | ascending {i j : Nat} (ha : Decimal.index? a = some i) (hb : Decimal.index? b = some j)
      (h : i < j)
  | indexFirst {i : Nat} (ha : Decimal.index? a = some i) (hb : Decimal.index? b = none)
  | asTheyCame (ha : Decimal.index? a = none) (hb : Decimal.index? b = none)
      (h : [a, b].Sublist t.keys)

/-- `ordered` changes nothing but the order of the entries. -/
theorem ordered_perm (t : Keyed α) : t.ordered.Perm t.entries := by
  have hnone : (t.entries.filter fun e => (Decimal.index? e.1).isNone) =
      t.entries.filter fun e => !(Decimal.index? e.1).isSome :=
    List.filter_congr fun e _ => by cases Decimal.index? e.1 <;> rfl
  rw [ordered, hnone]
  exact ((List.mergeSort_perm _ _).append_right _).trans
    (List.filter_append_perm (fun e => (Decimal.index? e.1).isSome) t.entries)

theorem mem_keys_iff_mem_ordered {t : Keyed α} {key : Text} :
    key ∈ t.ordered.map Prod.fst ↔ key ∈ t.keys :=
  (t.ordered_perm.map Prod.fst).mem_iff

theorem nodup_keys_ordered (t : Keyed α) : (t.ordered.map Prod.fst).Nodup :=
  (t.ordered_perm.map Prod.fst).nodup_iff.2 t.nodup

/-- `mergeSort` by `indexOf` puts index keys in the order of their indices. -/
theorem pairwise_indices (t : Keyed α) :
    ((t.entries.filter fun e => (Decimal.index? e.1).isSome).mergeSort
      fun a b => indexOf a ≤ indexOf b).Pairwise fun a b => t.Precedes a.1 b.1 := by
  set indices := t.entries.filter fun e => (Decimal.index? e.1).isSome
  have hperm := List.mergeSort_perm indices fun a b => indexOf a ≤ indexOf b
  have hsorted : (indices.mergeSort fun a b => indexOf a ≤ indexOf b).Pairwise
      fun a b => indexOf a ≤ indexOf b := by
    refine (List.pairwise_mergeSort ?_ ?_ indices).imp of_decide_eq_true
    · intro a b c hab hbc
      exact decide_eq_true (Nat.le_trans (of_decide_eq_true hab) (of_decide_eq_true hbc))
    · intro a b
      simpa using Nat.le_total (indexOf a) (indexOf b)
  have hnodup : (indices.mergeSort fun a b => indexOf a ≤ indexOf b).Pairwise
      fun a b => a.1 ≠ b.1 := by
    have hsub : (indices.map Prod.fst).Sublist (t.entries.map Prod.fst) :=
      List.filter_sublist.map Prod.fst
    have hkeys := (hperm.map Prod.fst).nodup_iff.2 (t.nodup.sublist hsub)
    exact List.pairwise_map.1 hkeys
  refine (hsorted.and hnodup).imp_of_mem ?_
  rintro a b ha hb ⟨hle, hne⟩
  obtain ⟨i, hi⟩ := Option.isSome_iff_exists.1 (List.mem_filter.1 (hperm.mem_iff.1 ha)).2
  obtain ⟨j, hj⟩ := Option.isSome_iff_exists.1 (List.mem_filter.1 (hperm.mem_iff.1 hb)).2
  -- equal indices would be one key twice
  have hij : i ≠ j := fun e => hne (Decimal.index?_injective hi (e ▸ hj))
  simp only [indexOf, hi, hj, Option.getD_some] at hle
  exact .ascending hi hj (Nat.lt_of_le_of_ne hle hij)

theorem pairwise_others (t : Keyed α) :
    (t.entries.filter fun e => (Decimal.index? e.1).isNone).Pairwise
      fun a b => t.Precedes a.1 b.1 := by
  rw [List.pairwise_iff_forall_sublist]
  intro a b hab
  have ha := (List.mem_filter.1 (hab.subset List.mem_cons_self)).2
  have hb := (List.mem_filter.1 (hab.subset (List.mem_cons_of_mem _ List.mem_cons_self))).2
  exact .asTheyCame (Option.isNone_iff_eq_none.1 ha) (Option.isNone_iff_eq_none.1 hb)
    ((hab.trans List.filter_sublist).map Prod.fst)

/-- `ordered` lists the keys in the order of `Precedes`. -/
theorem pairwise_ordered (t : Keyed α) : (t.ordered.map Prod.fst).Pairwise t.Precedes := by
  rw [List.pairwise_map, ordered, List.pairwise_append]
  refine ⟨t.pairwise_indices, t.pairwise_others, fun a ha b hb => ?_⟩
  obtain ⟨i, hi⟩ := Option.isSome_iff_exists.1
    (List.mem_filter.1 ((List.mergeSort_perm _ _).mem_iff.1 ha)).2
  exact .indexFirst hi (Option.isNone_iff_eq_none.1 (List.mem_filter.1 hb).2)

/-! ## The entries that were put in -/

/-- Both keys are indices, `a` below `b`. -/
def Ascends (a b : Text) : Prop :=
  ∃ i j, Decimal.index? a = some i ∧ Decimal.index? b = some j ∧ i < j

/-- `shown` are the entries of a table into which `inserted` were put, in listing order. Each key is
there once: first the index keys, ascending, then the others in the order in which each came first.
Each stands with the value that was put in last. -/
structure Lists (inserted shown : List (Text × α)) : Prop where
  nodup : (shown.map Prod.fst).Nodup
  mem_iff : ∀ key, key ∈ shown.map Prod.fst ↔ key ∈ inserted.map Prod.fst
  keys_eq : ∃ indices : List Text, indices.Pairwise Ascends ∧
    (∀ key, key ∈ indices ↔ key ∈ inserted.map Prod.fst ∧ (Decimal.index? key).isSome = true) ∧
    shown.map Prod.fst = indices ++
      (inserted.map Prod.fst).eraseDups.filter fun key => (Decimal.index? key).isNone
  value_eq : ∀ e ∈ shown, (inserted.filter fun e' => e'.1 = e.1).getLast?.map Prod.snd = some e.2

/-- `ordered` lists the index keys, ascending, and then the others in the order of `keys`. -/
theorem exists_indices (t : Keyed α) :
    ∃ indices : List Text, indices.Pairwise Ascends ∧
      (∀ key, key ∈ indices ↔ key ∈ t.keys ∧ (Decimal.index? key).isSome = true) ∧
      t.ordered.map Prod.fst =
        indices ++ t.keys.filter fun key => (Decimal.index? key).isNone := by
  have hordered := t.pairwise_indices
  rw [ordered]
  set sorted := (t.entries.filter fun e => (Decimal.index? e.1).isSome).mergeSort
    fun a b => indexOf a ≤ indexOf b with hsorted
  have hmem : ∀ e, e ∈ sorted ↔ e ∈ t.entries ∧ (Decimal.index? e.1).isSome = true := fun e => by
    rw [hsorted, (List.mergeSort_perm _ _).mem_iff, List.mem_filter]
  refine ⟨sorted.map Prod.fst, List.pairwise_map.2 (hordered.imp_of_mem ?_), fun key => ?_, ?_⟩
  · intro a b _ hb h
    have hindex := ((hmem b).1 hb).2
    cases h with
    | ascending ha hb h => exact ⟨_, _, ha, hb, h⟩
    | indexFirst _ hb => simp [hb] at hindex
    | asTheyCame _ hb => simp [hb] at hindex
  · rw [List.mem_map, keys, List.mem_map]
    constructor
    · rintro ⟨e, he, rfl⟩
      exact ⟨⟨e, ((hmem e).1 he).1, rfl⟩, ((hmem e).1 he).2⟩
    · rintro ⟨⟨e, he, rfl⟩, hindex⟩
      exact ⟨e, (hmem e).2 ⟨he, hindex⟩, rfl⟩
  · rw [List.map_append, keys, List.filter_map]
    rfl

theorem lists_ordered (inserted : List (Text × α)) : Lists inserted (ofList inserted).ordered := by
  obtain ⟨indices, hascend, hmem, hkeys⟩ := (ofList inserted).exists_indices
  simp only [keys_ofList, List.mem_eraseDups] at hmem hkeys
  refine ⟨nodup_keys_ordered _, fun key => ?_, ⟨indices, hascend, hmem, hkeys⟩, fun e he => ?_⟩
  · rw [mem_keys_iff_mem_ordered, keys_ofList, List.mem_eraseDups]
  · rw [← find?_ofList]
    exact (ofList inserted).find?_eq_some_iff.2 ((ofList inserted).ordered_perm.mem_iff.1 he)

/-! ## A table put into another -/

/-- The entries of `t` are told by `keys` and `find?`. -/
theorem entries_eq_filterMap (t : Keyed α) :
    t.entries = t.keys.filterMap fun key => (t.find? key).map (Prod.mk key) := by
  have h : ∀ e ∈ t.entries, (t.find? e.1).map (Prod.mk e.1) = some e := by
    intro e he
    have hf : t.find? e.1 = some e.2 := t.find?_eq_some_iff.2 he
    rw [hf]
    rfl
  rw [keys, List.filterMap_map]
  exact ((List.filterMap_congr h).trans List.filterMap_some).symm

theorem eq_of_find?_eq {t t' : Keyed α} (hk : t.keys = t'.keys)
    (hf : ∀ key, t.find? key = t'.find? key) : t = t' := by
  have h : t.entries = t'.entries := by
    rw [t.entries_eq_filterMap, t'.entries_eq_filterMap, hk]
    simp only [hf]
  cases t
  cases t'
  congr

theorem eraseDups_filter (p : Text → Bool) (keys : List Text) :
    (keys.filter p).eraseDups = keys.eraseDups.filter p := by
  induction keys using List.reverseRecOn with
  | nil => rfl
  | append_singleton keys key ih =>
    by_cases hk : key ∈ keys <;> by_cases hp : p key = true <;>
      simp [List.eraseDups_append, List.eraseDups_cons, List.removeAll, hk, hp, ih]

/-- `insertAll` of the entries of `ofList inserted` is `insertAll` of `inserted`: what was replaced
there would be replaced here, too. -/
theorem insertAll_entries_ofList (t : Keyed α) (inserted : List (Text × α)) :
    t.insertAll (ofList inserted).entries = t.insertAll inserted := by
  refine eq_of_find?_eq ?_ fun key => ?_
  · have hkeys : (ofList inserted).entries.map Prod.fst = (inserted.map Prod.fst).eraseDups :=
      keys_ofList inserted
    have htwice := keys_ofList (ofList inserted).entries
    rw [ofList_entries, hkeys, keys_ofList] at htwice
    rw [keys_insertAll, keys_insertAll, hkeys, List.removeAll, List.removeAll, eraseDups_filter,
      eraseDups_filter, ← htwice]
  · rw [find?_insertAll, find?_insertAll, ← find?_ofList, ofList_entries, find?_ofList]

end ShellDoc.Keyed
