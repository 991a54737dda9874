import DeclBridge.Log
import DeclBridge.Settings.Config
import DeclBridge.Swift.Enum
import DeclBridge.Swift.Function
import DeclBridge.Swift.Stream

/-!
Turning declarations into Swift code. Every declaration contributes texts of its own. For a preview
these simply follow one another, otherwise those for members of one type are gathered in one
extension, where the types come in the order in which they are first seen.
-/

namespace DeclBridge

open Swift

/-- What is rendered: signatures for a preview, or code to compile. -/
inductive Form where
  | preview
  | implementation
deriving DecidableEq, Repr

/-- A sum type whose variants are all declared elsewhere cannot become an enum. -/
def lacksVariants : Declaration → Bool
  | .sum declaration => declaration.variants.isEmpty
  | _ => false

def warnings (config : Config) (declaration : Declaration) : List Log :=
  if config.accepts declaration && lacksVariants declaration then
    [⟨.warning, "Sealed type ".toList ++ declaration.identity.qualifiedName ++
      " has no variants in scope; skipping".toList⟩]
  else []

/-- The Swift texts for an accepted declaration. The full form of a function is exported natively,
so only its overloads have to be generated. -/
def render (config : Config) (form : Form) (declaration : Declaration) :
    Except Fault (List Text) :=
  let label := declaration.identity.qualifiedName
  match declaration with
  | .sum declaration => do
    let spec := EnumSpec.ofSumType declaration config.extraConformances config.exhaustiveness
    pure [← enumGenerator.generate spec label]
  | .async declaration => do
    let spec := FunctionSpec.ofAsyncFunction declaration
    match form with
    | .preview => pure [← functionGenerator.generate spec label]
    | .implementation =>
      if declaration.parameters.any (·.default.isSome) then
        Swift.generateOverloads spec config.maxOverloads label
      else pure []
  | .stream declaration => do
    let spec := StreamSpec.ofStream declaration
    match form with
    | .preview => pure [← streamGenerator.generate spec label]
    | .implementation => pure [← streamGenerator.implement spec label]

def bodies (config : Config) (form : Form) (declaration : Declaration) : Except Fault (List Text) :=
  if config.accepts declaration && !lacksVariants declaration then render config form declaration
  else .ok []

/-- An input of the transformation. Its kind may be one that nothing is known about. -/
inductive Candidate where
  | known (declaration : Declaration)
  | foreign (kind : Text)
deriving DecidableEq, Repr

/-- Texts by the type whose members they are, in the order in which the types are first seen. -/
abbrev Groups := List (Option Text × List Text)

def Groups.add (owner : Option Text) (texts : List Text) : Groups → Groups
  | [] => [(owner, texts)]
  | (other, present) :: rest =>
    if other = owner then (other, present ++ texts) :: rest
    else (other, present) :: Groups.add owner texts rest

/-- Texts that belong to no type stand for themselves. -/
def Groups.sections (groups : Groups) : List Text :=
  groups.flatMap fun (owner, texts) =>
    match owner with
    | none => texts
    | some type => [extensionBlock type texts]

structure Progress where
  transformed : Nat := 0
  sections : List Text := []
  groups : Groups := []
deriving DecidableEq, Repr

/-- Takes in the texts of one declaration. One without texts does not count. -/
def Progress.add (progress : Progress) (form : Form) (owner : Option Text) (texts : List Text) :
    Progress :=
  if texts.isEmpty then progress
  else
    let transformed := progress.transformed + 1
    match form with
    | .preview => { progress with transformed, sections := progress.sections ++ texts }
    | .implementation => { progress with transformed, groups := progress.groups.add owner texts }

structure Generated where
  code : Text
  transformed : Nat
deriving DecidableEq, Repr

def Generated.isEmpty (generated : Generated) : Bool :=
  generated.transformed == 0

def Progress.generated (progress : Progress) : Generated :=
  ⟨Text.unparagraphs (progress.sections ++ progress.groups.sections), progress.transformed⟩

/-- Goes through the inputs in order, up to the first that fails. -/
def transformFrom (config : Config) (form : Form) (progress : Progress) :
    List Candidate → List Log × Except Fault Progress
  | [] => ([], .ok progress)
  | .foreign kind :: _ => ([], .error (.unregistered kind))
  | .known declaration :: rest =>
    let said := warnings config declaration
    match bodies config form declaration with
    | .error fault => (said, .error fault)
    | .ok texts =>
      let progress := progress.add form declaration.owner? texts
      let (more, result) := transformFrom config form progress rest
      (said ++ more, result)

/-- The code for some inputs, and what there is to say about them. -/
def transformCandidates (config : Config) (form : Form) (candidates : List Candidate) :
    List Log × Except Fault Generated :=
  let (said, result) := transformFrom config form {} candidates
  (said, result.map Progress.generated)

def transform (config : Config) (form : Form) (declarations : List Declaration) :
    List Log × Except Fault Generated :=
  transformCandidates config form (declarations.map .known)

end DeclBridge
