import DeclBridge.Text.Utf8
import DeclBridge.Workspace.Path

/-!
The tree of all files, in which commands read and write. An absolute path leads from the root of the
tree on, any other from the directory that a command is run in. Every entry is a file or a directory
that can be read and written; there are no links.
-/

namespace DeclBridge.Workspace

open Text

inductive Entry where
  | file (content : Bytes)
  | directory
deriving DecidableEq, Repr

/-- The names from the root of the tree to an entry. -/
abbrev Place := List Text

/-- Where names lead to from a place, whatever there is. Two points lead up, and from the root
nowhere. -/
def lead (place : Place) : List Text → Place
  | [] => place
  | name :: rest =>
    if name = "..".toList then lead place.dropLast rest else lead (place ++ [name]) rest

/-- The entries below the root, each at its place. The root itself is always there. -/
structure Tree where
  /-- The directory that relative paths lead from. -/
  current : Place := []
  entries : List (Place × Entry) := []
deriving DecidableEq, Repr

inductive PathFault where
  | notFound
  | notADirectory
  | isADirectory
  | alreadyExists
deriving DecidableEq, Repr

/-- A name in quotes, with everything escaped that would not show. -/
def quoted (name : Text) : Text :=
  let quote := if name.contains '\'' && !name.contains '"' then '"' else '\''
  let escape (c : Char) : Text :=
    if c = quote || c = '\\' then ['\\', c]
    else if c = '\n' then "\\n".toList
    else if c = '\r' then "\\r".toList
    else if c = '\t' then "\\t".toList
    else if c.toNat < 32 || c.toNat = 127 then "\\x".toList ++ hexDigits c.toNat.toUInt8
    else [c]
  quote :: name.flatMap escape ++ [quote]

/-- The report of the system about a path. -/
def PathFault.message (fault : PathFault) (path : Path) : Text :=
  let report :=
    match fault with
    | notFound => "[Errno 2] No such file or directory: "
    | alreadyExists => "[Errno 17] File exists: "
    | notADirectory => "[Errno 20] Not a directory: "
    | isADirectory => "[Errno 21] Is a directory: "
  report.toList ++ quoted path.text

namespace Tree

def entry? (tree : Tree) (place : Place) : Option Entry :=
  if place.isEmpty then some .directory else tree.entries.lookup place

/-- Replaces the entry at a place or adds it. -/
def put (tree : Tree) (place : Place) (entry : Entry) : Tree :=
  if (tree.entries.lookup place).isSome then
    let replaced := tree.entries.map fun (other, present) =>
      (other, if other = place then entry else present)
    { tree with entries := replaced }
  else { tree with entries := tree.entries ++ [(place, entry)] }

/-- The place that names lead to from another one. All but the last must be directories. -/
def walk (tree : Tree) (place : Place) : List Text → Except PathFault Place
  | [] => .ok place
  | name :: rest =>
    match tree.entry? place with
    | none => .error .notFound
    | some (.file _) => .error .notADirectory
    | some .directory =>
      if name = "..".toList then walk tree place.dropLast rest else walk tree (place ++ [name]) rest

/-- Where the names of a path lead from. -/
def start (tree : Tree) (path : Path) : Place :=
  if path.root.isEmpty then tree.current else []

/-- The place that a path means. -/
def place (tree : Tree) (path : Path) : Place :=
  lead (tree.start path) path.parts

/-- The place of a path that can be gone along, where nothing need exist yet. -/
def locate (tree : Tree) (path : Path) : Except PathFault Place :=
  tree.walk (tree.start path) path.parts

def find (tree : Tree) (path : Path) : Except PathFault Entry := do
  match tree.entry? (← tree.locate path) with
  | some entry => .ok entry
  | none => .error .notFound

def isDirectory (tree : Tree) (path : Path) : Bool :=
  match tree.find path with
  | .ok .directory => true
  | _ => false

def isFile (tree : Tree) (path : Path) : Bool :=
  match tree.find path with
  | .ok (.file _) => true
  | _ => false

def read (tree : Tree) (path : Path) : Except PathFault Bytes := do
  match ← tree.find path with
  | .file content => .ok content
  | .directory => .error .isADirectory

def below (tree : Tree) (path : Path) : List Path :=
  match tree.locate path with
  | .error _ => []
  | .ok place =>
    let inside := tree.entries.filterMap fun (other, _) =>
      (place.isPrefixOf? other).bind fun rest => if rest.isEmpty then none else some rest
    (inside.map fun rest => { path with parts := path.parts ++ rest }).mergeSort Path.notAfter

/-- Creates a directory in one that is there. -/
def createDirectory (tree : Tree) (path : Path) : Except PathFault Tree := do
  let place ← tree.locate path
  match tree.entry? place with
  | some _ => .error .alreadyExists
  | none => .ok (tree.put place .directory)

/-- The tree with a directory that may have been there before, or what is in the way of it. -/
def ensureDirectory (tree : Tree) (path : Path) : Tree × Option PathFault :=
  match tree.createDirectory path with
  | .ok created => (created, none)
  | .error fault => (tree, if tree.isDirectory path then none else some fault)

/-- Creates a directory, given by its names from the last one on, after those above it where these
are missing. What has been created stays when something is in the way later. -/
def makeDirectories (tree : Tree) (root : Text) : List Text → Tree × Option PathFault
  | [] => tree.ensureDirectory ⟨root, []⟩
  | name :: above =>
    let path : Path := ⟨root, (name :: above).reverse⟩
    match tree.ensureDirectory path with
    | (_, some .notFound) =>
      match tree.makeDirectories root above with
      | (ready, none) => ready.ensureDirectory path
      | (ready, some fault) => (ready, some fault)
    | done => done

def makeDirectory (tree : Tree) (path : Path) : Tree × Option PathFault :=
  tree.makeDirectories path.root path.parts.reverse

def write (tree : Tree) (path : Path) (text : Text) : Except PathFault Tree := do
  let place ← tree.locate path
  match tree.entry? place with
  | some .directory => .error .isADirectory
  | _ => .ok (tree.put place (.file (encodeUtf8 text)))

/-- Writes files one after another, up to the first that cannot be written. -/
def writeFiles (tree : Tree) : List (Path × Text) → Tree × Option PathFault
  | [] => (tree, none)
  | (path, text) :: rest =>
    match tree.write path text with
    | .error fault => (tree, some fault)
    | .ok written => written.writeFiles rest

/-- The path of a place. -/
def pathOf (place : Place) : Path :=
  ⟨['/'], place⟩

/-- The tree with a directory to run commands in, these files and directories, and those above
them. -/
def ofEntries (current : Place) (entries : List (Path × Entry)) : Tree :=
  let (ready, _) := ({ current } : Tree).makeDirectory (pathOf current)
  entries.foldl (fun tree (path, entry) =>
    match tree.makeDirectory path.parent with
    | (ready, none) => ready.put (ready.place path) entry
    | (_, some _) => tree) ready

/-- The files of a tree that another one lacks or has with other contents, in the order of their
places. -/
def changesSince (tree before : Tree) : List (Place × Bytes) :=
  let changed := tree.entries.filterMap fun (place, entry) =>
    match entry with
    | .directory => none
    | .file content =>
      if before.entries.lookup place = some entry then none else some (place, content)
  changed.mergeSort fun a b => (pathOf a.1).notAfter (pathOf b.1)

end Tree
end DeclBridge.Workspace
