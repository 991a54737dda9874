import DeclBridge.Text.Basic

/-!
Paths of files, without the parts that do not matter: repeated slashes and single points.
-/

namespace DeclBridge.Workspace

open Text

structure Path where
  /-- The slashes at the front of an absolute path. -/
  root : Text := []
  parts : List Text := []
deriving DecidableEq, Repr

namespace Path

/-- Exactly two slashes at the front are kept, since they may mean something of their own. -/
def ofText (text : Text) : Path :=
  let slashes := text.takeWhile (· = '/')
  let root := if slashes.length = 2 then slashes else slashes.take 1
  ⟨root, (text.splitOn '/').filter fun part => !part.isEmpty && part ≠ ['.']⟩

def text (path : Path) : Text :=
  if path.root.isEmpty && path.parts.isEmpty then ['.']
  else path.root ++ ['/'].intercalate path.parts

def child (path : Path) (name : Text) : Path :=
  { path with parts := path.parts ++ [name] }

def parent (path : Path) : Path :=
  { path with parts := path.parts.dropLast }

def name (path : Path) : Text :=
  path.parts.getLast?.getD []

/-- Component by component, each by code points. -/
def precedes (a b : Path) : Bool :=
  a.parts.lex b.parts Text.precedes

/-- `a` comes first or both are the same. -/
def notAfter (a b : Path) : Bool :=
  !b.precedes a

/-- The last point of a name and what follows it. A point at either end of the name does not count.
-/
def suffix (name : Text) : Text :=
  match cutLast '.' name with
  | some (stem, extension) =>
    if stem.isEmpty || extension.isEmpty then [] else '.' :: extension
  | none => []

end Path
end DeclBridge.Workspace
