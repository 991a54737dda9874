import DeclBridge.Command.Run

/-!
The command line. What lies at or below the paths of a request is read first, with the configuration
files at or above the working directory, and what the command has changed is written at the end.
-/

namespace DeclBridge.Main

open Text Workspace Command

/-- The paths that a request reads or writes. -/
def pathsOf : Request → List Path
  | .scan paths out | .merge paths out => paths ++ out.toList
  | .generate inputs outDir =>
    let written := [Swift.generatedFile, Swift.runtimeFile].map outDir.child
    inputs.manifests ++ inputs.sources ++ written
  | .preview inputs => inputs.manifests ++ inputs.sources

/-- What there is at a path, and what it contains if it is a file. -/
def readEntry (path : Text) : IO (Option Entry) := do
  try
    let found ← IO.FS.realPath (String.ofList path)
    match (← found.metadata).type with
    | .dir => pure (some .directory)
    | _ => pure (some (.file (← IO.FS.readBinFile found).toList))
  catch _ => pure none

/-- The entries below a directory. Links that lead to directories are not followed, so that this
ends. -/
partial def readBelow (above : Place) (path : Text) : IO (List (Place × Entry)) := do
  let directory ← IO.FS.realPath (String.ofList path)
  let inside ← (← directory.readDir).toList.mapM fun found => do
    let place := above ++ [found.fileName.toList]
    match (← found.path.symlinkMetadata).type, ← readEntry found.path.toString.toList with
    | .dir, _ => pure ((place, .directory) :: (← readBelow place found.path.toString.toList))
    | _, some (.file content) => pure [(place, .file content)]
    | _, _ => pure []
  pure inside.flatten

/-- The entries at a path, at those above it and below it. -/
def readPath (current : Place) (path : Path) : IO (List (Place × Entry)) := do
  let start := Tree.place { current }
  let onTheWay ← (List.range (path.parts.length + 1)).mapM fun count => do
    let front := { path with parts := path.parts.take count }
    pure ((← readEntry front.text).toList.map (start front, ·))
  let inside ←
    match onTheWay.getLast? with
    | some [(place, .directory)] => readBelow place path.text
    | _ => pure []
  pure (onTheWay.flatten ++ inside)

def readTree (paths : List Path) : IO Tree := do
  let current := (Path.ofText (← IO.currentDir).toString.toList).parts
  let settings := (Settings.upwards current).map fun directory =>
    Tree.pathOf (directory ++ [Settings.fileName])
  let entries ← (settings ++ paths).mapM (readPath current)
  pure (entries.flatten.foldl (fun tree (place, entry) => tree.put place entry) { current })

/-- Brings the directories and files of a tree to where they belong. -/
def writeChanges (tree before : Tree) : IO Unit := do
  let target (place : Place) := String.ofList (Tree.pathOf place).text
  tree.entries.forM fun (place, entry) => do
    if entry = .directory && before.entry? place ≠ some entry then IO.FS.createDirAll (target place)
  (tree.changesSince before).forM fun (place, content) =>
    IO.FS.writeBinFile (target place) ⟨content.toArray⟩

/-- The tags in messages and tables that a plain terminal does not show. -/
def tags : List Text :=
  ["[path]", "[/path]", "[bold]", "[/bold]"].map String.toList

def withoutTags (text : Text) : Text :=
  tags.foldl (fun text tag => (String.ofList text).replace (String.ofList tag) "" |>.toList) text

def printText (text : Text) : IO Unit := do
  let output ← IO.getStdout
  output.putStr (String.ofList text)

def printLine (text : Text) : IO Unit :=
  printText (withoutTags text ++ ['\n'])

def printShown : Shown → IO Unit
  | .text content => printText content
  | .swift code => printText (code ++ ['\n'])
  | .table title columns rows => do
    printLine title
    (columns :: rows).forM fun cells => printLine (['\t'].intercalate cells)

def printReport (report : Report) : IO Unit := do
  printText report.stdout
  report.logs.forM fun log => printLine log.message
  report.shown.forM printShown

/-- Runs one command. A crash ends with the exit code for failures. -/
def run (arguments : List String) : IO UInt32 := do
  let arguments := arguments.map String.toList
  let paths :=
    match ofArguments arguments with
    | .ok request => pathsOf request
    | .error _ => []
  let tree ← readTree paths
  let report := runArguments .plain tree arguments
  writeChanges report.tree tree
  printReport report
  match report.exit with
  | .ok code => pure code.toUInt32
  | .error _ => do
    printLine "❌ The command could not be finished.".toList
    pure 1

end DeclBridge.Main

def main (arguments : List String) : IO UInt32 :=
  DeclBridge.Main.run arguments
