import DeclBridge.Fault
import DeclBridge.Swift.Layout
import DeclBridge.Swift.Spec

/-!
Generating Swift from a specification: all issues are collected first, and only a specification
without any is rendered. What fails while rendering is tagged with the kind and the name.
-/

namespace DeclBridge.Swift

open Text

/-- How the specifications of one kind are checked and rendered. -/
structure Generator (σ : Type) where
  kind : Kind
  name : σ → Text
  issues : σ → List Issue
  /-- The declaration without its body. -/
  signature : σ → Except Text Text
  implementation : σ → Except Text Text

namespace Generator

variable {σ : Type} (generator : Generator σ)

def validate (spec : σ) : Except Fault Unit :=
  match generator.issues spec with
  | [] => .ok ()
  | issues => .error (.invalid issues)

/-- Checks a specification and then renders it. A fault bears the label, or the name of the
specification where the label is empty. -/
def attempt (render : σ → Except Text α) (complaint : String) (spec : σ) (label : Option Text) :
    Except Fault α := do
  generator.validate spec
  match render spec with
  | .ok text => pure text
  | .error reason =>
    let name := (label.filter (!·.isEmpty)).getD (generator.name spec)
    .error (.generation (complaint.toList ++ ": ".toList ++ reason) generator.kind.tag name)

def generate (spec : σ) (label : Option Text) : Except Fault Text :=
  generator.attempt generator.signature "Failed to generate Swift declaration" spec label

def implement (spec : σ) (label : Option Text) : Except Fault Text :=
  generator.attempt generator.implementation "Failed to generate Swift implementation" spec label

end Generator

def blankIssue (name : Text) (message : String) (field : Text) : List Issue :=
  if isBlankText name then [⟨message.toList, field, name⟩] else []

/-- A path such as `cases[2]`. -/
def indexed (field : String) (index : Nat) : Text :=
  field.toList ++ '[' :: ofNat index ++ [']']

def parameterIssues (parameters : List SwiftParameter) : List Issue :=
  parameters.zipIdx.flatMap fun (parameter, index) =>
    blankIssue parameter.name "Parameter name cannot be blank"
      (indexed "parameters" index ++ ".name".toList)

namespace SwiftParameter

/-- `name: Type`, without the default. -/
def requiredText (parameter : SwiftParameter) : Except Text Text := do
  let type ← parameter.type.render
  pure (parameter.name ++ ": ".toList ++ type ++ if parameter.isVariadic then "...".toList else [])

/-- `name: Type = default`. -/
def text (parameter : SwiftParameter) : Except Text Text := do
  let required ← parameter.requiredText
  pure (required ++ parameter.default.elim [] (" = ".toList ++ ·))

/-- Passes a parameter on under its own name. -/
def forwarded (parameter : SwiftParameter) : Text :=
  parameter.name ++ ": ".toList ++ parameter.name

end SwiftParameter
end DeclBridge.Swift
