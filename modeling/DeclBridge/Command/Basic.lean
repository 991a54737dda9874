import DeclBridge.Command.Arguments
import DeclBridge.Workspace.Path

/-!
The commands and how they are written.
-/

namespace DeclBridge.Command

open Text Workspace

/-- What there is to transform, and settings for it as `key=value`. -/
structure Inputs where
  manifests : List Path
  sources : List Path
  settings : List Text
deriving DecidableEq, Repr

inductive Request where
  | scan (paths : List Path) (out : Option Path)
  | merge (paths : List Path) (out : Option Path)
  | generate (inputs : Inputs) (outDir : Path)
  | preview (inputs : Inputs)
deriving DecidableEq, Repr

def collectingShape : Shape :=
  { options := helpOptions ++ [⟨"--out".toList, .one⟩], needsPlain := true }

def inputOptions : List OptionShape :=
  helpOptions ++ [⟨"--manifest".toList, .any⟩, ⟨"--source".toList, .any⟩, ⟨"--set".toList, .any⟩]

def generateShape : Shape :=
  { options := inputOptions ++ [⟨"--out-dir".toList, .one⟩], needed := ["--out-dir".toList] }

def previewShape : Shape :=
  { options := inputOptions }

namespace Given

def paths? (given : Given) (name : String) : Option (List Path) :=
  (given.values? name).map fun values => values.map Path.ofText

def path? (given : Given) (name : String) : Option Path :=
  (given.paths? name).bind List.head?

def plainPaths (given : Given) : List Path :=
  (given.plain.getD []).map Path.ofText

def inputs (given : Given) : Inputs :=
  { manifests := (given.paths? "--manifest").getD []
    sources := (given.paths? "--source").getD []
    settings := (given.values? "--set").getD [] }

end Given

/-- Reads the arguments behind the name of a command. -/
def ofNamed (name : Text) (arguments : List Text) : Except Stop Request := do
  if name = "scan".toList then
    let given ← collectingShape.read arguments
    pure (.scan given.plainPaths (given.path? "--out"))
  else if name = "merge".toList then
    let given ← collectingShape.read arguments
    pure (.merge given.plainPaths (given.path? "--out"))
  else if name = "generate".toList then
    let given ← generateShape.read arguments
    pure (.generate given.inputs ((given.path? "--out-dir").getD {}))
  else if name = "preview".toList then
    let given ← previewShape.read arguments
    pure (.preview given.inputs)
  else throw .misuse

def mainOptions : List OptionShape :=
  helpOptions ++ [⟨"--version".toList, .none⟩]

/-- Looks for the name of the command. Unknown options before it are an error, but only once the
command itself is read. -/
def ofRoles : List (Text × Role) → Except Stop Request
  | [] => .error .misuse
  | (_, .option shape value) :: _ => .error (flagStop shape value)
  | (_, .separator) :: _ => .error .misuse
  | (name, .plain) :: rest => ofNamed name (rest.map (·.1))
  | (_, .unknown) :: rest => do
    let _ ← ofRoles rest
    throw .misuse

def ofArguments (arguments : List Text) : Except Stop Request := do
  ofRoles (← roles mainOptions arguments)

end DeclBridge.Command
