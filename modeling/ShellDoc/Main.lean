import ShellDoc.CommandLine.Run

/-!
# The program

The outer layer: it looks at the files that a run needs, runs the command line on them, and prints
what the run shows.
-/

namespace ShellDoc.CommandLine

/-- The bytes of a file on this machine, if it can be read. -/
def fileEntry (name : String) : IO FileEntry :=
  tryCatch (do return .file (← IO.FS.readBinFile name).toList false) fun _ => return .unreadable

/-- What is at a path on this machine. -/
def entryAt (name : String) : IO (Option FileEntry) :=
  tryCatch (do
    let place ← IO.FS.realPath name
    if ← place.isDir then return some .directory
    else if ← place.pathExists then return some (← fileEntry name)
    else return none) fun _ => return none

/-- The tree with what is at a path on this machine. -/
def observe (files : FileTree) (path : AbsPath) : IO FileTree := do
  match ← entryAt (String.ofList path.render) with
  | some entry => return files.insert path.parts entry
  | none => return files

/-- The paths that a command line reads once the config files are known. -/
def scriptPaths (h : Host) (argv : List Text) : List AbsPath :=
  match invocation argv with
  | .run s =>
    match (Target.resolve h false s.script s.namePrefix []).outcome with
    | .ok target => [h.cwd.resolve target.script]
    | .error _ => []
  | _ => []

/-- This machine, as far as a command line needs it. -/
def surroundings (argv : List Text) : IO Host := do
  let cwd := AbsPath.root.resolve (← IO.currentDir).toString
  let home := ((← IO.getEnv "HOME").getD "").toList
  let files ← (cwd.ancestors.map (·.child Config.fileName)).foldlM observe FileTree.empty
  let files ← (scriptPaths ⟨files, cwd, home⟩ argv).foldlM observe files
  return ⟨files, cwd, home⟩

/-- Print a report. -/
def Report.print (r : Report) : IO Unit := do
  for message in r.log do
    IO.eprintln (String.ofList ("[" ++ message.severity.word ++ "] " ++ message.text))
  if r.rejected then IO.eprintln "The arguments are not valid; try --help."
  IO.print (String.ofList r.stdout)

end ShellDoc.CommandLine

open ShellDoc.CommandLine in
/-- The program. -/
def main (args : List String) : IO UInt32 := do
  let argv := args.map String.toList
  let report := run (← surroundings argv) argv
  report.print
  return report.exit.toNat.toUInt32
