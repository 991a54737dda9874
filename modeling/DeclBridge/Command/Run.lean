import DeclBridge.Command.Basic
import DeclBridge.Command.Inputs
import DeclBridge.Settings.Load
import DeclBridge.Swift.Runtime
import DeclBridge.Transform

/-!
Running commands on a tree of files. A run ends with an exit code or with a crash, and with the tree
as it is then.
-/

namespace DeclBridge.Command

open Text Workspace Swift

/-- What a command shows besides its messages. -/
inductive Shown where
  | text (content : Text)
  | swift (code : Text)
  | table (title : Text) (columns : List Text) (rows : List (List Text))
deriving DecidableEq, Repr

structure Report where
  exit : Except Crash Nat
  tree : Tree
  logs : List Log := []
  shown : List Shown := []
  /-- Plain output that is neither shown nor a message. -/
  stdout : Text := []

def crashed (tree : Tree) (logs : List Log) (crash : Crash) : Report :=
  { exit := .error crash, tree, logs }

def count (number : Nat) (noun : String) : Text :=
  ofNat number ++ noun.toList

section

variable (libraries : Libraries)

/-- What comes after some messages, which end the command instead when one of them cannot be shown.
-/
def telling (tree : Tree) (logs : List Log) (next : Report) : Report :=
  match libraries.tell logs with
  | (told, true) => { next with logs := told ++ next.logs }
  | (told, false) => crashed tree told .markup

def refused (tree : Tree) (reason : Text) : Report :=
  telling libraries tree [.error reason] { exit := .ok 1, tree }

/-- A failure is reported if it is a fault, and ends the command in any case. -/
def failed (tree : Tree) : Failure → Report
  | .fault fault => refused libraries tree fault.message
  | .crash crash => crashed tree [] crash

/-- Writes files to a directory, which is created if need be, and says so. -/
def produce (tree : Tree) (directory : Path) (files : List (Path × Text)) (said : List Log) :
    Report :=
  match tree.makeDirectory directory with
  | (ready, some fault) => crashed ready [] (.path fault)
  | (ready, none) =>
    match ready.writeFiles files with
    | (written, some fault) => crashed written [] (.path fault)
    | (written, none) => telling libraries written said { exit := .ok 0, tree := written }

/-- Shows a manifest, or writes it to a file and says so. -/
def deliver (tree : Tree) (text : Text) (out : Option Path) (success : Path → Text) : Report :=
  match out with
  | none => { exit := .ok 0, tree, shown := [.text text] }
  | some path => produce libraries tree path.parent [(path, text)] [.success (success path)]

def runScan (tree : Tree) (paths : List Path) (out : Option Path) : Report :=
  let (found, files) := allKotlinFiles tree paths
  telling libraries tree found <|
    if files.isEmpty then refused libraries tree "No Kotlin sources found.".toList
    else
      let (scanned, declarations) := scanFiles tree files
      let empty :=
        if declarations.isEmpty then
          [Log.warning ("No bridgeable declarations found in ".toList ++
            count files.length " file(s).")]
        else []
      telling libraries tree (scanned ++ empty) <|
        deliver libraries tree (Manifest.encode declarations) out fun path =>
          "Wrote ".toList ++ count declarations.length " declarations to " ++ Command.shown path

def runMerge (tree : Tree) (paths : List Path) (out : Option Path) : Report :=
  let (said, text) := mergeFiles tree paths
  telling libraries tree said <|
    deliver libraries tree text out fun path =>
      "Merged ".toList ++ count (Manifest.splitSections text).length " sections into " ++
        Command.shown path

def transformInputs (tree : Tree) (inputs : Inputs) (settings : Settings.Table) (form : Form) :
    Said (Except Failure (List Declaration × Generated)) :=
  let (configSaid, config) := Settings.loadHere libraries tree settings
  match config with
  | .error failure => (configSaid, .error failure)
  | .ok config =>
    let (loadSaid, declarations) := loadDeclarations tree inputs.manifests inputs.sources
    let (transformSaid, result) := transform config form declarations
    (configSaid ++ loadSaid ++ transformSaid,
      (result.mapError Failure.fault).map (declarations, ·))

/-- Writes the generated file and the one it relies on. -/
def writeGenerated (tree : Tree) (generated : Generated) (outDir : Path) : Report :=
  let codePath := outDir.child generatedFile
  let runtimePath := outDir.child runtimeFile
  produce libraries tree outDir
    [(codePath, generatedSource generated.code), (runtimePath, runtimeSource)]
    [.info ("Runtime support written to ".toList ++ Command.shown runtimePath),
      .success ("Transformed ".toList ++ count generated.transformed " declarations -> " ++
        Command.shown codePath)]

def runGenerate (tree : Tree) (inputs : Inputs) (outDir : Path) : Report :=
  let (settingsSaid, settings) := Settings.readAssignments inputs.settings
  telling libraries tree settingsSaid <|
    if inputs.manifests.isEmpty && inputs.sources.isEmpty then
      refused libraries tree "Nothing to do: pass --manifest and/or --source.".toList
    else
      let (said, result) := transformInputs libraries tree inputs settings .implementation
      telling libraries tree said <|
        match result with
        | .error failure => failed libraries tree failure
        | .ok (declarations, generated) =>
          let empty :=
            if generated.isEmpty then
              [Log.warning ("No declarations transformed (".toList ++
                count declarations.length " found).")]
            else []
          telling libraries tree empty (writeGenerated libraries tree generated outDir)

/-- How many declarations of each kind there are, and how many were transformed. -/
def summary (declarations : List Declaration) (generated : Generated) : Shown :=
  let row (kind : Kind) := [kind.tag, ofNat (declarations.countP (·.kind = kind))]
  .table "Declarations".toList ["Kind".toList, "Found".toList]
    (Kind.all.map row ++ [["[bold]transformed[/bold]".toList, ofNat generated.transformed]])

def runPreview (tree : Tree) (inputs : Inputs) : Report :=
  let (settingsSaid, settings) := Settings.readAssignments inputs.settings
  let (said, result) := transformInputs libraries tree inputs settings .preview
  telling libraries tree (settingsSaid ++ said) <|
    match result with
    | .error failure => failed libraries tree failure
    | .ok (declarations, generated) =>
      let (empty, code) :=
        if generated.isEmpty then ([Log.warning "Nothing to preview.".toList], [])
        else ([], [.swift generated.code])
      telling libraries tree empty
        { exit := .ok 0, tree, shown := code ++ [summary declarations generated] }

def run (tree : Tree) : Request → Report
  | .scan paths out => runScan libraries tree paths out
  | .merge paths out => runMerge libraries tree paths out
  | .generate inputs outDir => runGenerate libraries tree inputs outDir
  | .preview inputs => runPreview libraries tree inputs

def versionLine : Text := "ktbridge 0.0.1\n".toList

def runArguments (tree : Tree) (arguments : List Text) : Report :=
  match ofArguments arguments with
  | .ok command => run libraries tree command
  | .error .help => { exit := .ok 0, tree }
  | .error .version => { exit := .ok 0, tree, stdout := versionLine }
  | .error .misuse => { exit := .ok 2, tree }

end

end DeclBridge.Command
