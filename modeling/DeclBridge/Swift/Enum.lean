import DeclBridge.Swift.Generator

/-!
Enums for sum types: one case per variant, with a labelled value for each of its properties.
-/

namespace DeclBridge.Swift

open Text

namespace EnumCase

/-- A name that is blank or does not start with a lowercase letter. -/
def nameIssues (case : EnumCase) (path : Text) : List Issue :=
  let field := path ++ ".name".toList
  if isBlankText case.name then blankIssue case.name "Case name cannot be blank" field
  else if case.name.head?.any isLower then []
  else
    [⟨"Case name '".toList ++ case.name ++ "' must start with a lowercase letter".toList, field,
      case.name⟩]

def issues (case : EnumCase) (path : Text) : List Issue :=
  case.nameIssues path ++ case.associatedValues.zipIdx.flatMap fun (value, index) =>
    blankIssue value.label "Associated value label cannot be blank"
      (path ++ '.' :: indexed "associated_values" index ++ ".label".toList)

def text (case : EnumCase) : Except Text Text := do
  let payload ← case.associatedValues.mapM fun value => do
    pure (value.label ++ ": ".toList ++ (← value.type.render))
  let values := if payload.isEmpty then [] else '(' :: commaSpaced payload ++ [')']
  pure ("case ".toList ++ case.name ++ values)

end EnumCase

namespace EnumSpec

def issues (spec : EnumSpec) : List Issue :=
  blankIssue spec.name "Enum name cannot be blank" "name".toList ++
  (if spec.cases.isEmpty then
    [{ message := "Enum must have at least one case".toList, field := "cases".toList }]
  else []) ++
  spec.cases.zipIdx.flatMap fun (case, index) => case.issues (indexed "cases" index)

def signature (spec : EnumSpec) : Except Text Text := do
  let cases ← spec.cases.mapM EnumCase.text
  let frozen := if spec.isFrozen then ["@frozen".toList] else []
  let conformances :=
    if spec.conformances.isEmpty then [] else ": ".toList ++ commaSpaced spec.conformances
  let header :=
    spec.access.text ++ " enum ".toList ++ spec.name ++ genericsClause spec.typeParameters ++
      conformances ++ " \x7b".toList
  pure (unlines (frozen ++ [header] ++ cases.map (indented 1) ++ ["\x7d".toList]))

end EnumSpec

/-- An enum is all declaration, so both forms are the same. -/
def enumGenerator : Generator EnumSpec where
  kind := .sum
  name := EnumSpec.name
  issues := EnumSpec.issues
  signature := EnumSpec.signature
  implementation := EnumSpec.signature

end DeclBridge.Swift
