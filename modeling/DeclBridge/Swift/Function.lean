import DeclBridge.Swift.Generator

/-!
Asynchronous functions for suspending ones. The implementation suspends on a continuation that the
callback of the native export resumes, on each of its paths exactly once. Overloads leave out
trailing parameters whose defaults are known and spell these out in the call.
-/

namespace DeclBridge.Swift

open Text

/-- How many parameters at the end of the list have a default. -/
def trailingDefaults (parameters : List SwiftParameter) : Nat :=
  (parameters.reverse.takeWhile (·.default.isSome)).length

namespace FunctionSpec

def issues (spec : FunctionSpec) : List Issue :=
  blankIssue spec.name "Function name cannot be blank" "name".toList ++
    parameterIssues spec.parameters

/-- What follows the parameter list. -/
def effects (spec : FunctionSpec) : Except Text Text := do
  let throwing := if spec.isThrowing then " throws".toList else []
  let result ←
    if spec.returnType.isVoid then pure [] else (" -> ".toList ++ ·) <$> spec.returnType.render
  pure (" async".toList ++ throwing ++ result)

/-- The declaration with a parameter list given as texts. -/
def header (spec : FunctionSpec) (parameters : List Text) : Except Text Text := do
  pure (spec.access.text ++ " func ".toList ++ spec.name ++ genericsClause spec.typeParameters ++
    '(' :: commaSpaced parameters ++ ')' :: (← spec.effects))

def signature (spec : FunctionSpec) : Except Text Text := do
  spec.header (← spec.parameters.mapM SwiftParameter.text)

/-- The lines that hand the outcome of the native call to the continuation. A result that is missing
without an error is an error of its own, unless null is a result. -/
def resumeLines (spec : FunctionSpec) : List Text :=
  let resume (outcome : String) := "continuation.resume(".toList ++ outcome.toList ++ [')']
  let onError :=
    ["if let error = error \x7b".toList, indented 1 (resume "throwing: error")]
  let otherwise (outcome : String) :=
    ["\x7d else \x7b".toList, indented 1 (resume outcome), "\x7d".toList]
  if spec.returnType.isVoid then
    if spec.isThrowing then onError ++ otherwise "returning: ()" else [resume "returning: ()"]
  else if spec.returnType.isOptional then
    if spec.isThrowing then onError ++ otherwise "returning: result"
    else [resume "returning: result"]
  else if spec.isThrowing then
    onError ++
      ["\x7d else if let result = result \x7b".toList, indented 1 (resume "returning: result")] ++
      otherwise "throwing: KtBridgeError.nullResult"
  else [resume "returning: result!"]

/-- The line that opens the continuation. Without a result its type has to be spelled out. -/
def continuationLine (spec : FunctionSpec) : Text :=
  let (keyword, failure) :=
    if spec.isThrowing then ("try await withCheckedThrowingContinuation", "Error")
    else ("await withCheckedContinuation", "Never")
  if spec.returnType.isVoid then
    keyword.toList ++ " \x7b (continuation: CheckedContinuation<Void, ".toList ++ failure.toList ++
      ">) in".toList
  else "return ".toList ++ keyword.toList ++ " \x7b continuation in".toList

def callbackParameters (spec : FunctionSpec) : Text :=
  (match spec.returnType.isVoid, spec.isThrowing with
  | true, true => "error"
  | true, false => "_"
  | false, true => "result, error"
  | false, false => "result, _").toList

/-- The native call up to the body of its callback. -/
def nativeCall (spec : FunctionSpec) : Text :=
  let target := if spec.isMember then "self.".toList ++ spec.name else spec.name
  let handler := "completionHandler: \x7b ".toList ++ spec.callbackParameters ++ " in".toList
  target ++ '(' :: commaSpaced (spec.parameters.map SwiftParameter.forwarded ++ [handler])

def implementation (spec : FunctionSpec) : Except Text Text := do
  let body :=
    [spec.continuationLine, indented 1 spec.nativeCall] ++ spec.resumeLines.map (indented 2) ++
      [indented 1 "\x7d)".toList, "\x7d".toList]
  pure (unlines [(← spec.signature) ++ " \x7b".toList, indentBlock 1 (unlines body), "\x7d".toList])

/-- The overload with the first `kept` parameters. The others are passed their defaults. -/
def overload (spec : FunctionSpec) (kept : Nat) : Except Text Text := do
  let header ← spec.header (← (spec.parameters.take kept).mapM SwiftParameter.requiredText)
  let omitted := (spec.parameters.drop kept).map fun parameter =>
    parameter.name ++ ": ".toList ++ parameter.default.getD []
  let arguments := (spec.parameters.take kept).map SwiftParameter.forwarded ++ omitted
  let call :=
    (if spec.returnType.isVoid then [] else "return ".toList) ++
      (if spec.isThrowing then "try ".toList else []) ++ "await ".toList ++ spec.name ++
      '(' :: commaSpaced arguments ++ [')']
  pure (unlines [header ++ " \x7b".toList, indented 1 call, "\x7d".toList])

/-- The overloads from the shortest parameter list on, at most `limit` of them. The full list is not
among them. -/
def overloads (limit : Nat) (spec : FunctionSpec) : Except Text (List Text) :=
  let defaults := trailingDefaults spec.parameters
  (List.range (min defaults limit)).mapM fun further =>
    spec.overload (spec.parameters.length - defaults + further)

end FunctionSpec

def functionGenerator : Generator FunctionSpec where
  kind := .async
  name := FunctionSpec.name
  issues := FunctionSpec.issues
  signature := FunctionSpec.signature
  implementation := FunctionSpec.implementation

/-- The overloads of a function. A negative limit is none at all. -/
def generateOverloads (spec : FunctionSpec) (limit : Int) (label : Option Text) :
    Except Fault (List Text) :=
  functionGenerator.attempt (FunctionSpec.overloads limit.toNat) "Failed to generate overloads" spec
    label

end DeclBridge.Swift
