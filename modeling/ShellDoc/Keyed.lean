import ShellDoc.Text.Decimal

/-!
# Keyed tables

A table of values under distinct keys that remembers the order in which the keys came. Putting a
value under a key that is there already replaces the value and keeps the place.

* `Keyed.insert`, `Keyed.find?`, `Keyed.keys`.
* `Keyed.ordered`: the entries in listing order, which is the index keys ascending and then the
  other keys as they came.
-/

namespace ShellDoc

/-- Values under distinct keys, in the order in which the keys came. -/
structure Keyed (α : Type) where
  entries : List (Text × α)
  nodup : (entries.map Prod.fst).Nodup

namespace Keyed

variable {α : Type}

/-- The entries with `value` under `key`: in the place of the key if it is there, else at the
end. -/
def insertEntry (key : Text) (value : α) : List (Text × α) → List (Text × α)
  | [] => [(key, value)]
  | (other, old) :: rest =>
    if other = key then (key, value) :: rest else (other, old) :: insertEntry key value rest

theorem map_fst_insertEntry (key : Text) (value : α) (entries : List (Text × α)) :
    (insertEntry key value entries).map Prod.fst =
      if key ∈ entries.map Prod.fst then entries.map Prod.fst
      else entries.map Prod.fst ++ [key] := by
  induction entries with
  | nil => simp [insertEntry]
  | cons entry rest ih =>
    obtain ⟨other, old⟩ := entry
    by_cases h : other = key
    · simp [insertEntry, h]
    · have h' : key ≠ other := fun e => h e.symm
      simp only [insertEntry, if_neg h, List.map_cons, ih, List.mem_cons, h', false_or]
      split <;> simp

/-- The table without entries. -/
def empty : Keyed α := ⟨[], .nil⟩

/-- The table with `value` under `key`. -/
def insert (t : Keyed α) (key : Text) (value : α) : Keyed α where
  entries := insertEntry key value t.entries
  nodup := by
    rw [map_fst_insertEntry]
    split
    · exact t.nodup
    · next h => exact List.nodup_append.2 ⟨t.nodup, by simp, by
        rintro a ha b hb rfl
        exact h ((List.mem_singleton.1 hb) ▸ ha)⟩

/-- The entries put in one after the other. -/
def insertAll (t : Keyed α) (entries : List (Text × α)) : Keyed α :=
  entries.foldl (fun t e => t.insert e.1 e.2) t

/-- The table of a list of entries; of two under one key the later counts, in the earlier place. -/
def ofList (entries : List (Text × α)) : Keyed α := empty.insertAll entries

/-- The value under `key`. -/
def find? (t : Keyed α) (key : Text) : Option α :=
  (t.entries.find? fun e => e.1 == key).map Prod.snd

/-- `key` is in the table. -/
def contains (t : Keyed α) (key : Text) : Bool := (t.find? key).isSome

/-- The keys in the order in which they came. -/
def keys (t : Keyed α) : List Text := t.entries.map Prod.fst

/-- The index that the key of `e` spells, or zero. -/
def indexOf (e : Text × α) : Nat := (Decimal.index? e.1).getD 0

/-- The entries in listing order: index keys ascending, then the others as they came. -/
def ordered (t : Keyed α) : List (Text × α) :=
  ((t.entries.filter fun e => (Decimal.index? e.1).isSome).mergeSort
      fun a b => indexOf a ≤ indexOf b) ++
    t.entries.filter fun e => (Decimal.index? e.1).isNone

/-! ## Laws -/

@[simp] theorem keys_empty : (empty : Keyed α).keys = [] := rfl

@[simp] theorem find?_empty (key : Text) : (empty : Keyed α).find? key = none := rfl

/-- `find?` finds a value under `key` exactly if the table has it there, for no key comes twice. -/
theorem find?_eq_some_iff (t : Keyed α) {key : Text} {value : α} :
    t.find? key = some value ↔ (key, value) ∈ t.entries := by
  obtain ⟨entries, nodup⟩ := t
  simp only [find?]
  induction entries with
  | nil => simp
  | cons entry rest ih =>
    obtain ⟨other, old⟩ := entry
    obtain ⟨hother, hrest⟩ := List.nodup_cons.1 nodup
    by_cases h : other = key
    · subst h
      have hnot : (other, value) ∉ rest := fun hm => hother (List.mem_map.2 ⟨_, hm, rfl⟩)
      simp [hnot, eq_comm]
    · have h' : key ≠ other := fun e => h e.symm
      rw [List.find?_cons_of_neg (by simpa using h), ih hrest]
      simp [h']

theorem find?_eq_none_iff (t : Keyed α) {key : Text} : t.find? key = none ↔ key ∉ t.keys := by
  rw [find?, Option.map_eq_none_iff, List.find?_eq_none, keys, List.mem_map]
  constructor
  · rintro h ⟨entry, he, rfl⟩
    exact h entry he (by simp)
  · intro h entry he hk
    exact h ⟨entry, he, by simpa using hk⟩

theorem isSome_find?_iff (t : Keyed α) {key : Text} :
    (t.find? key).isSome = true ↔ key ∈ t.keys := by
  rw [Option.isSome_iff_ne_none, ne_eq, find?_eq_none_iff, Decidable.not_not]

/-- `insert` puts a new key at the end; a known one keeps its place. -/
theorem keys_insert (t : Keyed α) (key : Text) (value : α) :
    (t.insert key value).keys = if key ∈ t.keys then t.keys else t.keys ++ [key] :=
  map_fst_insertEntry key value t.entries

/-- `insert` changes what is under its own key and nothing else. -/
theorem find?_insert (t : Keyed α) (key other : Text) (value : α) :
    (t.insert key value).find? other = if key = other then some value else t.find? other := by
  obtain ⟨entries, nodup⟩ := t
  simp only [insert, find?]
  clear nodup
  induction entries with
  | nil => by_cases h : key = other <;> simp [insertEntry, h]
  | cons entry rest ih =>
    obtain ⟨k, old⟩ := entry
    by_cases hk : k = key
    · subst hk
      by_cases h : k = other <;> simp [insertEntry, h]
    · by_cases h : k = other
      · subst h
        have : ¬key = k := fun e => hk e.symm
        simp [insertEntry, hk, this]
      · rw [insertEntry, if_neg hk, List.find?_cons_of_neg (by simpa using h), ih]
        simp [List.find?_cons_of_neg, h]

theorem insertAll_cons (t : Keyed α) (entry : Text × α) (entries : List (Text × α)) :
    t.insertAll (entry :: entries) = (t.insert entry.1 entry.2).insertAll entries := rfl

theorem ofList_concat (entries : List (Text × α)) (entry : Text × α) :
    ofList (entries ++ [entry]) = (ofList entries).insert entry.1 entry.2 := by
  simp [ofList, insertAll]

/-- Of the `entries` that `insertAll` puts in under `key` the last counts. -/
theorem find?_insertAll (t : Keyed α) (entries : List (Text × α)) (key : Text) :
    (t.insertAll entries).find? key =
      ((entries.filter fun e => e.1 = key).getLast?.map Prod.snd).or (t.find? key) := by
  induction entries generalizing t with
  | nil => rfl
  | cons entry entries ih =>
    rw [insertAll_cons, ih, find?_insert]
    by_cases h : entry.1 = key
    · rw [List.filter_cons_of_pos (by simpa using h), List.getLast?_cons, if_pos h]
      cases (entries.filter fun e => e.1 = key).getLast? <;> rfl
    · rw [List.filter_cons_of_neg (by simpa using h), if_neg h]

theorem find?_ofList (entries : List (Text × α)) (key : Text) :
    (ofList entries).find? key =
      (entries.filter fun e => e.1 = key).getLast?.map Prod.snd := by
  rw [ofList, find?_insertAll, find?_empty, Option.or_none]

/-- `insertAll` puts new keys behind those that are there, each in its first place. -/
theorem keys_insertAll (t : Keyed α) (entries : List (Text × α)) :
    (t.insertAll entries).keys =
      t.keys ++ ((entries.map Prod.fst).removeAll t.keys).eraseDups := by
  induction entries generalizing t with
  | nil => simp [insertAll, List.removeAll]
  | cons entry entries ih =>
    rw [insertAll_cons, ih, keys_insert, List.map_cons]
    by_cases h : entry.1 ∈ t.keys
    · simp [h, List.removeAll]
    · have hrest : (entries.map Prod.fst).removeAll (t.keys ++ [entry.1]) =
          ((entries.map Prod.fst).removeAll t.keys).filter fun key => !key == entry.1 := by
        unfold List.removeAll
        rw [List.filter_filter]
        refine List.filter_congr fun key _ => ?_
        rw [Bool.eq_iff_iff]
        simp [and_comm]
      have hcons : (entry.1 :: entries.map Prod.fst).removeAll t.keys =
          entry.1 :: (entries.map Prod.fst).removeAll t.keys := by
        simp [List.removeAll, h]
      rw [if_neg h, hrest, hcons, List.eraseDups_cons, List.append_assoc, List.singleton_append]

theorem keys_ofList (entries : List (Text × α)) :
    (ofList entries).keys = (entries.map Prod.fst).eraseDups := by
  rw [ofList, keys_insertAll, keys_empty, List.nil_append, List.removeAll_nil]

theorem insertEntry_of_not_mem {key : Text} {entries : List (Text × α)}
    (h : key ∉ entries.map Prod.fst) (value : α) :
    insertEntry key value entries = entries ++ [(key, value)] := by
  induction entries with
  | nil => rfl
  | cons entry rest ih =>
    obtain ⟨hkey, hrest⟩ := not_or.1 (mt List.mem_cons.2 h)
    rw [insertEntry, if_neg fun e => hkey e.symm, ih hrest, List.cons_append]

/-- `insertAll` puts entries with new keys behind those that are there. -/
theorem entries_insertAll {t : Keyed α} {entries : List (Text × α)}
    (h : ((t.entries ++ entries).map Prod.fst).Nodup) :
    (t.insertAll entries).entries = t.entries ++ entries := by
  induction entries generalizing t with
  | nil => simp [insertAll]
  | cons entry entries ih =>
    have hnew : entry.1 ∉ t.entries.map Prod.fst := by
      rw [List.map_append, List.map_cons, List.nodup_append] at h
      exact fun hmem => h.2.2 _ hmem _ List.mem_cons_self rfl
    have hinsert : (t.insert entry.1 entry.2).entries = t.entries ++ [entry] :=
      insertEntry_of_not_mem hnew entry.2
    rw [insertAll_cons, ih (by rw [hinsert]; simpa using h), hinsert]
    simp

/-- `ofList` makes a table of its own entries again. -/
theorem ofList_entries (t : Keyed α) : ofList t.entries = t := by
  obtain ⟨entries, nodup⟩ := t
  have h : (empty.insertAll entries).entries = entries := entries_insertAll nodup
  revert h
  rw [ofList]
  cases empty.insertAll entries
  rintro rfl
  rfl

end Keyed

end ShellDoc
