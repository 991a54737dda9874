import DeclBridge.Kotlin.Scan
import DeclBridge.Log
import DeclBridge.Manifest.Decode
import DeclBridge.Manifest.Merge
import DeclBridge.Workspace.Tree

/-!
Reading what a command works on. Directories stand for the files in them, and what cannot be read is
reported and left out.
-/

namespace DeclBridge.Command

open Text Workspace

/-- Messages and a result. -/
abbrev Said (α : Type) := List Log × α

def saidAll (answers : List (Said (List α))) : Said (List α) :=
  (answers.flatMap (·.1), answers.flatMap (·.2))

def shown (path : Path) : Text :=
  "[path]".toList ++ path.text ++ "[/path]".toList

/-- The text of a file, or why it cannot be read. -/
def readText (tree : Tree) (path : Path) : Except (Option PathFault × Text) Text :=
  match tree.read path with
  | .error fault => .error (some fault, fault.message path)
  | .ok content =>
    match decodeUtf8 content with
    | .error fault => .error (none, fault.message)
    | .ok text => .ok (unifyLineFeeds text)

def kotlinSuffixes : List Text :=
  [".kt", ".kts"].map String.toList

def isKotlinName (name : Text) : Bool :=
  kotlinSuffixes.contains (Path.suffix name)

/-- The Kotlin files a path stands for. A file that is named itself counts whatever its name. -/
def kotlinFiles (tree : Tree) (path : Path) : Said (List Path) :=
  if tree.isDirectory path then ([], (tree.below path).filter fun file => isKotlinName file.name)
  else if tree.isFile path then ([], [path])
  else ([.warning ("Source not found: ".toList ++ shown path)], [])

def scanFile (tree : Tree) (path : Path) : Said (List Declaration) :=
  match readText tree path with
  | .ok text => ([], Kotlin.scan text)
  | .error (_, reason) =>
    ([.warning ("Skipping unreadable source ".toList ++ path.text ++ ": ".toList ++ reason)], [])

/-- All manifests below a directory. A file stands for itself. -/
def findManifests (tree : Tree) (path : Path) : List Path :=
  if tree.isFile path then [path]
  else if tree.isDirectory path then
    (tree.below path).filter fun file => ".manifest".toList.isSuffixOf file.name
  else []

/-- The manifests a path stands for. What is no directory is read later. -/
def manifestFiles (tree : Tree) (path : Path) : List Path :=
  if tree.isDirectory path then findManifests tree path else [path]

/-- The text of a manifest, which is empty when it cannot be read. -/
def readManifest (tree : Tree) (path : Path) : Said (List Text) :=
  match readText tree path with
  | .ok text => ([], [text])
  | .error (some .notFound, _) =>
    ([.warning ("Manifest not found: ".toList ++ path.text)], [[]])
  | .error (_, reason) =>
    ([.warning ("Manifest unreadable: ".toList ++ path.text ++ " (".toList ++ reason ++ [')'])],
      [[]])

def mergeFiles (tree : Tree) (paths : List Path) : Said Text :=
  let (said, texts) := saidAll ((paths.flatMap (manifestFiles tree)).map (readManifest tree))
  (said, Manifest.merge texts)

def allKotlinFiles (tree : Tree) (paths : List Path) : Said (List Path) :=
  saidAll (paths.map (kotlinFiles tree))

def scanFiles (tree : Tree) (files : List Path) : Said (List Declaration) :=
  saidAll (files.map (scanFile tree))

/-- The declarations of manifests and sources. Those of manifests come first and take precedence. -/
def loadDeclarations (tree : Tree) (manifests sources : List Path) : Said (List Declaration) :=
  let (mergeSaid, merged) := if manifests.isEmpty then ([], []) else mergeFiles tree manifests
  let (findSaid, files) := allKotlinFiles tree sources
  let (scanSaid, scanned) := scanFiles tree files
  (mergeSaid ++ findSaid ++ scanSaid, firstPerKey (Manifest.decode merged ++ scanned))

end DeclBridge.Command
