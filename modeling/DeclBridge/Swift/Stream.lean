import DeclBridge.Swift.Generator

/-!
Asynchronous streams for flows. The collector forwards values to the continuation of the stream and
is cancelled when the consumer stops. Properties get a name of their own beside the native one.
-/

namespace DeclBridge.Swift

open Text

namespace StreamSpec

/-- A property leaves its own name to the native property. -/
def memberName (spec : StreamSpec) : Text :=
  if spec.isProperty then spec.name ++ "Stream".toList else spec.name

def issues (spec : StreamSpec) : List Issue :=
  blankIssue spec.name "Stream name cannot be blank" "name".toList ++
  parameterIssues spec.parameters ++
  if spec.isProperty && !spec.parameters.isEmpty then
    [{ message := "Stream property cannot take parameters".toList, field := "parameters".toList }]
  else []

def streamType (spec : StreamSpec) : Except Text Text := do
  pure ("AsyncStream<".toList ++ (← spec.elementType.render) ++ ['>'])

def header (spec : StreamSpec) : Except Text Text := do
  if spec.isProperty then
    pure (spec.access.text ++ " var ".toList ++ spec.memberName ++ ": ".toList ++
      (← spec.streamType))
  else
    let parameters ← spec.parameters.mapM SwiftParameter.text
    pure (spec.access.text ++ " func ".toList ++ spec.memberName ++
      genericsClause spec.typeParameters ++ '(' :: commaSpaced parameters ++ ") -> ".toList ++
      (← spec.streamType))

def signature (spec : StreamSpec) : Except Text Text := do
  pure ((← spec.header) ++ if spec.isProperty then " \x7b get \x7d".toList else [])

def source (spec : StreamSpec) : Text :=
  let target := if spec.isMember then "self.".toList ++ spec.name else spec.name
  if spec.isProperty then target
  else target ++ '(' :: commaSpaced (spec.parameters.map SwiftParameter.forwarded) ++ [')']

/-- The body of the stream, given the text of the element type. -/
def bodyLines (spec : StreamSpec) (element : Text) : List Text :=
  let line (levels : Nat) (text : String) := indented levels text.toList
  [ line 0 "return AsyncStream \x7b continuation in",
    line 1 "let collector = KtBridgeFlowCollector<" ++ element ++ ">(".toList,
    line 2 "onEmit: \x7b value in",
    line 3 "continuation.yield(value)",
    line 2 "\x7d,",
    line 2 "onComplete: \x7b",
    line 3 "continuation.finish()",
    line 2 "\x7d,",
    line 2 "onError: \x7b _ in",
    line 3 "continuation.finish()",
    line 2 "\x7d",
    line 1 ")",
    line 1 "continuation.onTermination = \x7b _ in",
    line 2 "collector.cancel()",
    line 1 "\x7d",
    indented 1 spec.source ++
      ".collect(collector: collector, completionHandler: \x7b error in".toList,
    line 2 "if let error = error \x7b",
    line 3 "collector.error(error)",
    line 2 "\x7d else \x7b",
    line 3 "collector.complete()",
    line 2 "\x7d",
    line 1 "\x7d)",
    line 0 "\x7d" ]

def implementation (spec : StreamSpec) : Except Text Text := do
  let body := spec.bodyLines (← spec.elementType.render)
  pure (unlines [(← spec.header) ++ " \x7b".toList, indentBlock 1 (unlines body), "\x7d".toList])

end StreamSpec

def streamGenerator : Generator StreamSpec where
  kind := .stream
  name := StreamSpec.name
  issues := StreamSpec.issues
  signature := StreamSpec.signature
  implementation := StreamSpec.implementation

end DeclBridge.Swift
