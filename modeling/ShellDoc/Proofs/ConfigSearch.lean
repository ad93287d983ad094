import ShellDoc.Config
import ShellDoc.Proofs.AbsolutePaths

/-!
# The search for the config file

The search goes up from directory to directory and ends at the first config file, or at the root.

* `Config.directories`: the directories of a search, by their texts.
* `Config.Search.round`: the search as a loop, one directory a round. It comes to an end
  (`Config.iterate_round`), with what `Config.findFile` gives.
* `Config.findFile_eq_some_iff`, `Config.findFile_eq_none_iff`: the nearest file is found.
-/

namespace ShellDoc.Config

variable {h : Host} {p : AbsPath} {start path : Text}

/-- The directories of a search: `start`, and above each its `dirname`. -/
def directories (h : Host) (start : Text) : Nat → Text
  | 0 => (h.cwd.resolve start).render
  | i + 1 => Path.dirname (directories h start i)

/-- The config file that `findConfigFile` looks for in `dir`. -/
def candidate (dir : Text) : Text := Path.join dir fileName

/-- A search: looking into a directory, or at its end. -/
inductive Search where
  | looking (dir : Text)
  | ended (found : Option Text)

/-- One round of the loop in `findConfigFile`: the `candidate` of the directory, or else the
directory above. The root has nothing above it but itself. -/
def Search.round (h : Host) : Search → Search
  | .looking dir =>
    if h.pathExists (candidate dir) then .ended (some (candidate dir))
    else if Path.dirname dir = dir then .ended none
    else .looking (Path.dirname dir)
  | .ended found => .ended found

/-! ## Directories -/

theorem directories_eq (hc : h.cwd.IsNormal) (start : Text) (i : Nat) :
    directories h start i = (AbsPath.parent^[i] (h.cwd.resolve start)).render := by
  induction i with
  | zero => rfl
  | succ i ih =>
    have hnormal := (AbsPath.isNormal_resolve hc start).iterate_parent i
    rw [directories, ih, AbsPath.dirname_render hnormal, Function.iterate_succ_apply']

theorem fileIn_eq_candidate (hp : p.IsNormal) : fileIn p = candidate p.render :=
  AbsPath.render_child hp fileName

theorem candidate_directories (hc : h.cwd.IsNormal) (start : Text) (i : Nat) :
    candidate (directories h start i) = fileIn (AbsPath.parent^[i] (h.cwd.resolve start)) := by
  rw [directories_eq hc, fileIn_eq_candidate ((AbsPath.isNormal_resolve hc start).iterate_parent i)]

/-- From the root on, `directories` stay where they are. -/
theorem directories_of_length_le (hc : h.cwd.IsNormal) (start : Text) {i : Nat}
    (hi : (h.cwd.resolve start).parts.length ≤ i) : directories h start i = ['/'] := by
  rw [directories_eq hc, AbsPath.iterate_parent_of_length_le hi, AbsPath.render_root]

/-! ## The loop -/

theorem round_found (hf : h.pathExists (fileIn p) = true) (hp : p.IsNormal) :
    Search.round h (.looking p.render) = .ended (some (fileIn p)) := by
  rw [fileIn_eq_candidate hp] at hf ⊢
  rw [Search.round, if_pos hf]

theorem round_root (hf : h.pathExists (fileIn .root) = false) :
    Search.round h (.looking AbsPath.root.render) = .ended none := by
  have hup : Path.dirname AbsPath.root.render = AbsPath.root.render :=
    AbsPath.dirname_render AbsPath.isNormal_root
  rw [fileIn_eq_candidate AbsPath.isNormal_root] at hf
  rw [Search.round, if_neg (by simp [hf]), if_pos hup]

theorem round_child {name : Text} (hf : h.pathExists (fileIn (p.child name)) = false)
    (hp : (p.child name).IsNormal) :
    Search.round h (.looking (p.child name).render) = .looking p.render := by
  have hup : Path.dirname (p.child name).render = p.render := by
    rw [AbsPath.dirname_render hp, AbsPath.parent_child]
  have hne : p.render ≠ (p.child name).render := by
    intro e
    have hsame := AbsPath.eq_of_render_eq (AbsPath.isNormal_child_iff.1 hp).1 hp e
    have hlength := AbsPath.length_parts_child p name
    rw [← hsame] at hlength
    omega
  rw [fileIn_eq_candidate hp] at hf
  rw [Search.round, if_neg (by simp [hf]), hup, if_neg hne]

theorem iterate_round_ended (h : Host) (found : Option Text) (n : Nat) :
    (Search.round h)^[n] (.ended found) = .ended found :=
  Function.iterate_fixed rfl n

/-- `round` is at its end after one round for each directory from `p` to the root. -/
theorem iterate_round (h : Host) (hp : p.IsNormal) :
    (Search.round h)^[p.parts.length + 1] (.looking p.render) =
      .ended ((p.ancestors.map fileIn).find? h.pathExists) := by
  -- the induction is on the depth of the directory
  induction p using AbsPath.childInduction with
  | root =>
    change Search.round h (.looking AbsPath.root.render) = _
    rw [AbsPath.ancestors_root, List.map_singleton]
    cases hf : h.pathExists (fileIn .root) with
    | true => rw [round_found hf hp, List.find?_cons_of_pos hf]
    | false => rw [round_root hf, List.find?_cons_of_neg (by simp [hf]), List.find?_nil]
  | child p name ih =>
    rw [AbsPath.length_parts_child, Function.iterate_succ_apply, AbsPath.ancestors_child,
      List.map_cons]
    cases hf : h.pathExists (fileIn (p.child name)) with
    | true => rw [round_found hf hp, iterate_round_ended, List.find?_cons_of_pos hf]
    | false =>
      rw [round_child hf hp, ih (AbsPath.isNormal_child_iff.1 hp).1,
        List.find?_cons_of_neg (by simp [hf])]

/-! ## What is found -/

theorem findFile_eq_find? (hc : h.cwd.IsNormal) (start : Text) :
    findFile h start =
      ((List.range ((h.cwd.resolve start).parts.length + 1)).map
        fun i => candidate (directories h start i)).find? h.pathExists := by
  simp only [findFile, AbsPath.ancestors_eq_map, List.map_map, Function.comp_def,
    candidate_directories hc]

/-- `findFile` finds the `candidate` of the first directory that has one. -/
theorem findFile_eq_some_iff (hc : h.cwd.IsNormal) :
    findFile h start = some path ↔
      ∃ i, path = candidate (directories h start i) ∧ h.pathExists path = true ∧
        ∀ j < i, h.pathExists (candidate (directories h start j)) = false := by
  rw [findFile_eq_find? hc, List.find?_eq_some_iff_getElem]
  simp only [List.length_map, List.length_range, List.getElem_map, List.getElem_range,
    Bool.not_eq_true']
  constructor
  · rintro ⟨hf, i, -, rfl, hbefore⟩
    exact ⟨i, rfl, hf, hbefore⟩
  · rintro ⟨i, rfl, hf, hbefore⟩
    refine ⟨hf, i, ?_, rfl, hbefore⟩
    -- behind the root there are only copies of the root, so the first file is not there
    by_contra hi
    have hroot := directories_of_length_le hc start (Nat.le_refl _)
    have hbehind := directories_of_length_le hc start (i := i) (by omega)
    have hlast := hbefore (h.cwd.resolve start).parts.length (by omega)
    rw [hroot, ← hbehind, hf] at hlast
    cases hlast

theorem findFile_eq_none_iff (hc : h.cwd.IsNormal) :
    findFile h start = none ↔
      ∀ i, h.pathExists (candidate (directories h start i)) = false := by
  rw [findFile_eq_find? hc, List.find?_eq_none]
  simp only [List.forall_mem_map, List.mem_range, Bool.not_eq_true]
  constructor
  · intro hnone i
    rcases Nat.lt_or_ge i ((h.cwd.resolve start).parts.length + 1) with hi | hi
    · exact hnone i hi
    · have hroot := directories_of_length_le hc start (Nat.le_refl _)
      rw [directories_of_length_le hc start (by omega), ← hroot]
      exact hnone _ (Nat.lt_succ_self _)
  · exact fun hnone i _ => hnone i

theorem isAbsolute_of_findFile (hf : findFile h start = some path) :
    Path.isAbsolute path = true := by
  obtain ⟨dir, -, rfl⟩ := List.mem_map.1 (List.mem_of_find?_eq_some hf)
  exact AbsPath.isAbsolute_render _

/-- `findFile` from an absolute path is the same in every working directory. -/
theorem findFile_of_isAbsolute (hs : Path.isAbsolute start = true) (h : Host) (cwd : AbsPath) :
    findFile { h with cwd } start = findFile h start := by
  simp only [findFile, List.find?_map]
  rw [AbsPath.resolve_of_isAbsolute hs cwd h.cwd]
  refine congrArg _ (congrArg (List.find? · _) (funext fun dir => ?_))
  exact Host.pathExists_of_isAbsolute (AbsPath.isAbsolute_render _) h cwd

/-- `findFile` comes to an end with the nearest config file. As a loop of `round` it ends after some
rounds, for `directories` reach the root. It finds the `candidate` of the first of the `directories`
that has one, and nothing exactly if none has one. The path that is found is absolute, and for an
absolute `start` it is the same in every working directory. The working directory is a normal path,
as all paths are that are read from a text (`AbsPath.isNormal_resolve`). -/
theorem findFile_is_nearest (h : Host) (hc : h.cwd.IsNormal) (start : Text) :
    (∃ rounds, (Search.round h)^[rounds] (.looking (directories h start 0)) =
        .ended (findFile h start)) ∧
      (∃ n, directories h start n = ['/']) ∧
      (∀ path, findFile h start = some path ↔
        ∃ i, path = candidate (directories h start i) ∧ h.pathExists path = true ∧
          ∀ j < i, h.pathExists (candidate (directories h start j)) = false) ∧
      (findFile h start = none ↔
        ∀ i, h.pathExists (candidate (directories h start i)) = false) ∧
      (∀ path, findFile h start = some path → Path.isAbsolute path = true) ∧
      (Path.isAbsolute start = true →
        ∀ cwd, findFile { h with cwd } start = findFile h start) :=
  ⟨⟨_, iterate_round h (AbsPath.isNormal_resolve hc start)⟩,
    ⟨_, directories_of_length_le hc start (Nat.le_refl _)⟩, fun _ => findFile_eq_some_iff hc,
    findFile_eq_none_iff hc, fun _ => isAbsolute_of_findFile,
    fun hs cwd => findFile_of_isAbsolute hs h cwd⟩

/-- A directory whose config is behind a link, with another config above it. -/
def linkedHost : Host where
  files := ⟨[([['w'], ['p'], fileName], .link ("../c" : String)), ([['w'], ['c']], .file [] false),
    ([['w'], ['p']], .directory), ([['w']], .directory), ([fileName], .file [] false)]⟩
  cwd := ⟨[['w']]⟩
  home := []

/-- The search starts in a directory that is not there, two below the one with the link. -/
theorem findFile_linkedHost :
    linkedHost.cwd.IsNormal ∧
      findFile linkedHost ("p/x/..//./y/z/" : String) =
        some (candidate (directories linkedHost ("p/x/..//./y/z/" : String) 2)) ∧
      candidate (directories linkedHost ("p/x/..//./y/z/" : String) 2) =
        ("/w/p/fndoc.toml" : String) := by
  have hc : linkedHost.cwd.IsNormal := by
    rintro name hname
    obtain rfl := List.mem_singleton.1 hname
    exact ⟨by decide, by decide, by decide, by decide⟩
  refine ⟨hc, ?_, by decide⟩
  exact ((findFile_is_nearest linkedHost hc _).2.2.1 _).2 ⟨2, rfl, by decide, by decide⟩

end ShellDoc.Config
