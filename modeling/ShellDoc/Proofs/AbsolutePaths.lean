import Mathlib.Data.List.Induction
import Mathlib.Logic.Function.Iterate
import ShellDoc.Host

/-!
# Absolute paths

Going up and down in a path by its text is the same as going up and down by its names.

* `Path.IsName`: what a name can be in a path from which `.` and `..` are gone.
* `AbsPath.IsNormal`: a path of such names. Resolving against a normal path gives a normal path
  (`AbsPath.isNormal_resolve`), and the text of a normal path leads back to it from everywhere
  (`AbsPath.resolve_render`).
* `AbsPath.dirname_render`, `AbsPath.basename_render`, `AbsPath.render_child`: the texts of the
  directory above, of the last name and of entries.
* `AbsPath.ancestors_eq_map`: the directories above a path, by the number of steps up.
* `Host.stat_of_isAbsolute`: the working directory is of no account for an absolute path.
-/

namespace ShellDoc

namespace Path

variable {path name : Text}

/-- `name` is a name of its own: not empty, of one piece, and neither `.` nor `..`. -/
structure IsName (name : Text) : Prop where
  nonempty : name ≠ []
  unslashed : '/' ∉ name
  not_here : name ≠ ['.']
  not_above : name ≠ ['.', '.']

/-- The entry `name` of the directory `dir`, both by their texts. -/
def join (dir name : Text) : Text :=
  if dir.getLast? = some '/' then dir ++ name else dir ++ '/' :: name

/-! ## Names -/

theorem unslashed_of_mem_splitOn (h : name ∈ path.splitOn '/') : '/' ∉ name := by
  induction path generalizing name with
  | nil =>
    rw [List.splitOn_nil] at h
    obtain rfl := List.mem_singleton.1 h
    simp
  | cons c path ih =>
    obtain ⟨first, others, hp⟩ := List.exists_cons_of_ne_nil (List.splitOn_ne_nil '/' path)
    rw [hp] at ih
    rw [List.splitOn_cons_eq_if_modifyHead, hp] at h
    split at h
    · rcases List.mem_cons.1 h with rfl | h
      · simp
      · exact ih h
    · next hc =>
      -- a character that is no slash goes in front of the first piece
      have hslash : '/' ≠ c := fun e => hc (beq_iff_eq.2 e.symm)
      rcases List.mem_cons.1 h with rfl | h
      · exact mt List.mem_cons.1 (not_or.2 ⟨hslash, ih List.mem_cons_self⟩)
      · exact ih (List.mem_cons_of_mem _ h)

theorem names_append_slash (a b : Text) : names (a ++ '/' :: b) = names a ++ names b := by
  simp only [names, List.splitOn_append_cons_self, List.filter_append]

theorem IsName.names_eq (h : IsName name) : names name = [name] := by
  rw [names, List.splitOn_eq_singleton h.unslashed]
  simp [h.nonempty]

theorem of_mem_names (h : name ∈ names path) : name ≠ [] ∧ '/' ∉ name := by
  obtain ⟨hpiece, hne⟩ := List.mem_filter.1 h
  exact ⟨by simpa using hne, unslashed_of_mem_splitOn hpiece⟩

/-! ## The directory and the last name of a path -/

/-- Read from its end, `front ++ '/' :: name` has no slashes before the name. -/
theorem dropWhile_reverse_append_name (h : IsName name) (front : Text) :
    (front ++ '/' :: name).reverse.dropWhile (· == '/') = name.reverse ++ '/' :: front.reverse := by
  obtain ⟨c, rest, hc⟩ := List.exists_cons_of_ne_nil (List.reverse_ne_nil_iff.2 h.nonempty)
  have hmem : c ∈ name := List.mem_reverse.1 (hc ▸ List.mem_cons_self)
  have hslash : c ≠ '/' := fun e => h.unslashed (e ▸ hmem)
  simp [hc, hslash]

theorem IsName.not_slash_of_mem_reverse (h : IsName name) :
    ∀ c ∈ name.reverse, (c != '/') = true := by
  intro c hc
  simpa using fun e : c = '/' => h.unslashed (e ▸ List.mem_reverse.1 hc)

/-- `dirname` cuts a slash and a name off the end of a path. -/
theorem dirname_append_name (h : IsName name) (front : Text) :
    dirname (front ++ '/' :: name) =
      if front = [] then ['/'] else if front = ['/'] then ['/', '/'] else front := by
  have hname : (name.reverse ++ '/' :: front.reverse).dropWhile (· != '/') =
      '/' :: front.reverse := by
    rw [List.dropWhile_append_of_pos h.not_slash_of_mem_reverse]
    simp
  rw [dirname, dropWhile_reverse_append_name h, hname]
  rcases eq_or_ne front [] with rfl | hne
  · rfl
  rcases eq_or_ne front ['/'] with rfl | hroot
  · rfl
  rw [if_neg hne, if_neg hroot]
  split
  · next h => cases h
  · next h => exact absurd (List.reverse_eq_nil_iff.1 (List.cons.inj h).2) hne
  · next h => exact absurd (List.reverse_eq_iff.1 (List.cons.inj h).2) hroot
  · next h => rw [← (List.cons.inj h).2, List.reverse_reverse]

/-- `basename` is the name behind a slash at the end of a path. -/
theorem basename_append_name (h : IsName name) (front : Text) :
    basename (front ++ '/' :: name) = name := by
  rw [basename, dropWhile_reverse_append_name h,
    List.takeWhile_append_of_pos h.not_slash_of_mem_reverse]
  simp

/-- `dirname` of an absolute path is absolute. -/
theorem isAbsolute_dirname (h : isAbsolute path = true) : isAbsolute (dirname path) = true := by
  unfold dirname
  split
  · rw [if_pos h]
    rfl
  · rfl
  · rfl
  · next front hne _ hfront =>
    -- what is left is the beginning of the path, and it is not empty
    have hsuffix : front <:+ path.reverse :=
      (List.suffix_cons _ front).trans
        (hfront ▸ (List.dropWhile_suffix _).trans (List.dropWhile_suffix _))
    obtain ⟨rest, hrest⟩ := List.reverse_prefix.2 hsuffix
    rw [List.reverse_reverse] at hrest
    obtain ⟨c, front', hc⟩ := List.exists_cons_of_ne_nil (List.reverse_ne_nil_iff.2 hne)
    rw [isAbsolute, ← hrest, hc] at h
    rw [hc]
    exact h

end Path

namespace AbsPath

variable {p base : AbsPath} {path name : Text}

/-- All names of `p` are names of their own. -/
def IsNormal (p : AbsPath) : Prop := ∀ name ∈ p.parts, Path.IsName name

/-- Every path is built from `root` by `child`. -/
@[elab_as_elim]
theorem childInduction {motive : AbsPath → Prop} (root : motive .root)
    (child : ∀ p name, motive p → motive (p.child name)) (p : AbsPath) : motive p := by
  obtain ⟨parts⟩ := p
  induction parts using List.reverseRecOn with
  | nil => exact root
  | append_singleton parts name ih => exact child ⟨parts⟩ name ih

/-- Every path is `root`, or a `child` of some directory. -/
theorem eq_root_or_child (p : AbsPath) : p = root ∨ ∃ dir name, p = child dir name := by
  obtain ⟨parts⟩ := p
  rcases List.eq_nil_or_concat parts with rfl | ⟨front, name, rfl⟩
  · exact .inl rfl
  · exact .inr ⟨⟨front⟩, name, by simp [child]⟩

theorem parent_child (p : AbsPath) (name : Text) : (p.child name).parent = p := by
  simp [child, parent]

theorem name_child (p : AbsPath) (name : Text) : (p.child name).name = name := by
  simp [child, AbsPath.name]

theorem length_parts_child (p : AbsPath) (name : Text) :
    (p.child name).parts.length = p.parts.length + 1 := by
  simp [child]

theorem isNormal_root : root.IsNormal := by simp [IsNormal, root]

theorem isNormal_child_iff : (p.child name).IsNormal ↔ p.IsNormal ∧ Path.IsName name := by
  simp only [IsNormal, child, List.forall_mem_append, List.forall_mem_singleton]

theorem IsNormal.parent (hp : p.IsNormal) : p.parent.IsNormal :=
  fun name h => hp name (List.dropLast_subset _ h)

/-! ## Resolving -/

theorem isName_of_mem_step {parts : List Text} (hparts : ∀ part ∈ parts, Path.IsName part)
    (hname : name ≠ [] ∧ '/' ∉ name) : ∀ part ∈ step parts name, Path.IsName part := by
  unfold step
  split
  · exact hparts
  · next hhere =>
    split
    · exact fun part h => hparts part (List.dropLast_subset _ h)
    · next habove =>
      intro part h
      rcases List.mem_append.1 h with h | h
      · exact hparts part h
      · obtain rfl := List.mem_singleton.1 h
        exact ⟨hname.1, hname.2, hhere, habove⟩

theorem isName_of_mem_foldl_step {parts names : List Text}
    (hparts : ∀ part ∈ parts, Path.IsName part) (hnames : ∀ name ∈ names, name ≠ [] ∧ '/' ∉ name) :
    ∀ part ∈ names.foldl step parts, Path.IsName part := by
  induction names generalizing parts with
  | nil => exact hparts
  | cons name names ih =>
    obtain ⟨hname, hrest⟩ := List.forall_mem_cons.1 hnames
    exact ih (isName_of_mem_step hparts hname) hrest

theorem isNormal_resolve (hb : base.IsNormal) (path : Text) : (base.resolve path).IsNormal := by
  refine isName_of_mem_foldl_step ?_ fun _ => Path.of_mem_names
  split
  · simp
  · exact hb

theorem resolve_of_isAbsolute (h : Path.isAbsolute path = true) (base other : AbsPath) :
    base.resolve path = other.resolve path := by
  simp only [resolve, h, if_true]

/-- `step` puts names of their own at the end one by one. -/
theorem foldl_step_eq_append {names : List Text} (h : ∀ name ∈ names, Path.IsName name)
    (parts : List Text) : names.foldl step parts = parts ++ names := by
  induction names generalizing parts with
  | nil => simp
  | cons name names ih =>
    obtain ⟨hname, hrest⟩ := List.forall_mem_cons.1 h
    rw [List.foldl_cons, ih hrest, step, if_neg hname.not_here, if_neg hname.not_above,
      List.append_assoc, List.singleton_append]

/-! ## Texts -/

theorem isAbsolute_render (p : AbsPath) : Path.isAbsolute p.render = true := rfl

theorem render_root : root.render = ['/'] := rfl

/-- `render` puts a slash in front of each name and none at the end, below the root. -/
theorem render_eq_flatMap (h : p.parts ≠ []) : p.render = p.parts.flatMap ('/' :: ·) := by
  obtain ⟨parts⟩ := p
  simp only [render]
  induction parts with
  | nil => exact absurd rfl h
  | cons name parts ih =>
    cases parts with
    | nil => simp
    | cons next parts =>
      have hrest := ih (by simp)
      rw [List.intercalate_cons_cons, List.flatMap_cons, ← hrest]
      simp

theorem flatMap_child (p : AbsPath) (name : Text) :
    (p.child name).parts.flatMap ('/' :: ·) = p.parts.flatMap ('/' :: ·) ++ '/' :: name := by
  simp [child]

theorem render_child_eq (p : AbsPath) (name : Text) :
    (p.child name).render = p.parts.flatMap ('/' :: ·) ++ '/' :: name := by
  rw [render_eq_flatMap (by simp [child]), flatMap_child]

theorem names_flatMap (hp : p.IsNormal) : Path.names (p.parts.flatMap ('/' :: ·)) = p.parts := by
  induction p using childInduction with
  | root => rfl
  | child p name ih =>
    obtain ⟨hp, hname⟩ := isNormal_child_iff.1 hp
    rw [flatMap_child, Path.names_append_slash, ih hp, hname.names_eq]
    rfl

theorem names_render (hp : p.IsNormal) : Path.names p.render = p.parts := by
  by_cases h : p.parts = []
  · rw [show p.render = ['/'] by simp [render, h], h]
    rfl
  · rw [render_eq_flatMap h, names_flatMap hp]

/-- `resolve` takes the text of a normal path back to it, from every `base`. -/
theorem resolve_render (hp : p.IsNormal) (base : AbsPath) : base.resolve p.render = p := by
  simp only [resolve, isAbsolute_render, if_true, names_render hp]
  rw [foldl_step_eq_append hp, List.nil_append]

theorem eq_of_render_eq {q : AbsPath} (hp : p.IsNormal) (hq : q.IsNormal)
    (h : p.render = q.render) : p = q := by
  rw [← resolve_render hp root, h, resolve_render hq root]

theorem getLast?_render_child (hname : Path.IsName name) :
    (p.child name).render.getLast? = name.getLast? := by
  rw [render_child_eq]
  simp [List.getLast?_cons, List.getLast?_eq_some_getLast hname.nonempty]

/-- `render` ends in a slash only for the root. -/
theorem eq_root_of_getLast?_render (hp : p.IsNormal) (h : p.render.getLast? = some '/') :
    p = root := by
  rcases p.eq_root_or_child with rfl | ⟨dir, name, rfl⟩
  · rfl
  · obtain ⟨-, hname⟩ := isNormal_child_iff.1 hp
    rw [getLast?_render_child hname] at h
    exact absurd (List.mem_of_getLast? h) hname.unslashed

/-- `render` of an entry is `join` of the text of the directory and the name. -/
theorem render_child (hp : p.IsNormal) (name : Text) :
    (p.child name).render = Path.join p.render name := by
  rw [Path.join, render_child_eq]
  by_cases h : p.parts = []
  · simp [h, render]
  · have hlast : p.render.getLast? ≠ some '/' := fun e =>
      h (congrArg parts (eq_root_of_getLast?_render hp e))
    rw [if_neg hlast, render_eq_flatMap h]

/-- `dirname` by the text is `parent` by the names. -/
theorem dirname_render (hp : p.IsNormal) : Path.dirname p.render = p.parent.render := by
  rcases p.eq_root_or_child with rfl | ⟨dir, name, rfl⟩
  · rfl
  · obtain ⟨hdir, hname⟩ := isNormal_child_iff.1 hp
    rw [parent_child, render_child_eq, Path.dirname_append_name hname]
    by_cases h : dir.parts = []
    · simp [h, render]
    · have hne : dir.render ≠ ['/'] := fun e =>
        h (congrArg parts (eq_of_render_eq hdir isNormal_root e))
      have hempty : dir.render ≠ [] := by simp [render]
      rw [← render_eq_flatMap h, if_neg hempty, if_neg hne]

/-- `basename` by the text is `name` by the names. -/
theorem basename_render (hp : p.IsNormal) : Path.basename p.render = p.name := by
  rcases p.eq_root_or_child with rfl | ⟨dir, name, rfl⟩
  · rfl
  · obtain ⟨-, hname⟩ := isNormal_child_iff.1 hp
    rw [name_child, render_child_eq, Path.basename_append_name hname]

/-! ## The directories above -/

theorem shortened_concat (parts : List Text) (name : Text) :
    shortened (parts ++ [name]) = (parts ++ [name]) :: shortened parts := by
  induction parts with
  | nil => rfl
  | cons part parts ih => simp only [List.cons_append, shortened, ih, List.map_cons]

theorem ancestors_root : root.ancestors = [root] := rfl

/-- `ancestors` of an entry are the entry and the ancestors of the directory. -/
theorem ancestors_child (p : AbsPath) (name : Text) :
    (p.child name).ancestors = p.child name :: p.ancestors := by
  simp only [ancestors, child, shortened_concat, List.map_cons]

theorem iterate_parent (p : AbsPath) (i : Nat) :
    parent^[i] p = ⟨p.parts.take (p.parts.length - i)⟩ := by
  induction i with
  | zero => simp
  | succ i ih =>
    rw [Function.iterate_succ_apply', ih, parent, List.dropLast_eq_take, List.take_take,
      List.length_take]
    congr 2
    omega

theorem iterate_parent_of_length_le {i : Nat} (h : p.parts.length ≤ i) : parent^[i] p = root := by
  rw [iterate_parent, Nat.sub_eq_zero_of_le h, List.take_zero, root]

theorem IsNormal.iterate_parent (hp : p.IsNormal) (i : Nat) : (AbsPath.parent^[i] p).IsNormal := by
  induction i with
  | zero => exact hp
  | succ i ih =>
    rw [Function.iterate_succ_apply']
    exact ih.parent

/-- `ancestors` are what one comes to by taking `parent` up to the root. -/
theorem ancestors_eq_map (p : AbsPath) :
    p.ancestors = (List.range (p.parts.length + 1)).map fun i => parent^[i] p := by
  induction p using childInduction with
  | root => rfl
  | child p name ih =>
    have hrange : List.range (p.parts.length + 1 + 1) =
        0 :: (List.range (p.parts.length + 1)).map Nat.succ := List.range_succ_eq_map
    rw [ancestors_child, ih, length_parts_child, hrange, List.map_cons, List.map_map]
    simp only [Function.comp_def, Function.iterate_succ_apply, parent_child]
    rfl

end AbsPath

/-! ## Looking up -/

/-- `find` of an absolute path does not depend on where one is. -/
theorem FileTree.find_of_isAbsolute {path : Text} (h : Path.isAbsolute path = true) (t : FileTree)
    (follow : Bool) (start other : List Text) :
    t.find follow start path = t.find follow other path := by
  simp only [find, lookup, origin, h, if_true]

theorem Host.stat_of_isAbsolute {path : Text} (hp : Path.isAbsolute path = true) (h : Host)
    (cwd : AbsPath) : { h with cwd }.stat path = h.stat path :=
  h.files.find_of_isAbsolute hp true cwd.parts h.cwd.parts

theorem Host.pathExists_of_isAbsolute {path : Text} (hp : Path.isAbsolute path = true) (h : Host)
    (cwd : AbsPath) : { h with cwd }.pathExists path = h.pathExists path := by
  simp only [pathExists, stat_of_isAbsolute hp]

theorem Host.readText_of_isAbsolute {path : Text} (hp : Path.isAbsolute path = true) (h : Host)
    (fault : ReadFault) (cwd : AbsPath) :
    { h with cwd }.readText fault path = h.readText fault path := by
  simp only [readText, reading, stat_of_isAbsolute hp]

end ShellDoc
