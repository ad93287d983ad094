import ShellDoc.Host

/-!
# Checks on files

Each check looks at what a path leads to. A path that leads nowhere fails every check. All files
may be read and written; the execute bit is a file's own.
-/

namespace ShellDoc.Check

/-- `safeStat`: what `path` leads to satisfies `p`. -/
def statSatisfies (h : Host) (p : FileEntry → Bool) (path : Text) : Bool :=
  match h.stat path with
  | .ok entry => p entry
  | .error _ => false

/-- `path` leads somewhere. -/
def fileExists (h : Host) (path : Text) : Bool := statSatisfies h (fun _ => true) path

/-- `path` leads to a regular file. -/
def isFile (h : Host) (path : Text) : Bool :=
  statSatisfies h (fun
    | .file _ _ | .unreadable _ => true
    | .directory | .link _ => false) path

/-- `path` leads to a directory. -/
def isDir (h : Host) (path : Text) : Bool := statSatisfies h (· == .directory) path

/-- `path` itself is a link. -/
def isSymlink (h : Host) (path : Text) : Bool :=
  match h.statLink path with
  | .ok (.link _) => true
  | _ => false

/-- What `path` leads to may be read. -/
def isReadable (h : Host) (path : Text) : Bool := h.pathExists path

/-- What `path` leads to may be written. -/
def isWritable (h : Host) (path : Text) : Bool := h.pathExists path

/-- The file at `path` may be run, or the directory entered. -/
def isExecutable (h : Host) (path : Text) : Bool :=
  statSatisfies h (fun
    | .file _ executable => executable
    | .directory => true
    | .unreadable _ | .link _ => false) path

/-- The file at `path` has bytes in it. -/
def fileNotEmpty (h : Host) (path : Text) : Bool :=
  statSatisfies h (fun
    | .file bytes _ | .unreadable bytes => !bytes.isEmpty
    | .directory => true
    | .link _ => false) path

/-- `path` leads to a regular file that may be read. -/
def isReadableFile (h : Host) (path : Text) : Bool := isFile h path && isReadable h path

/-- `path` leads to a directory that may be written. -/
def isWritableDir (h : Host) (path : Text) : Bool := isDir h path && isWritable h path

/-- `path` leads to a regular file that may be run. -/
def fileIsExecutable (h : Host) (path : Text) : Bool := isFile h path && isExecutable h path

end ShellDoc.Check
