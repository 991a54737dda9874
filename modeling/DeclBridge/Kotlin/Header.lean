import DeclBridge.Text.Reader

/-!
Readers for the headers of the declarations in question. They work on text whose comments are gone
and whose literals are blank. Adoption markers and modifiers may come first.
-/

namespace DeclBridge.Kotlin

open Text

def modifiers : List String :=
  ["public", "internal", "private", "protected", "override", "open", "abstract", "final", "actual",
    "expect", "inline", "operator", "tailrec", "external"]

def skipModifiers (text : Text) : Text :=
  (many (oneKeyword? modifiers) text).2

/-- Parentheses up to the first that closes. -/
def parenthesised? (text : Text) : Option (Text × Text) := do
  cut ')' (← literal? "(" text)

/-- The text behind an adoption marker of one of the given names, its arguments and the blanks after
it. -/
def afterMarker? (names : List String) (text : Text) : Option Text := do
  let rest ← names.findSome? fun name => do
    let rest ← literal? name (← literal? "@" text)
    if rest.head?.any isWordChar then none else some rest
  match parenthesised? (skipBlanks rest) with
  | some (_, rest) => pure (skipBlanks rest)
  | none => pure (skipBlanks rest)

/-- A header with the length of the adoption marker before it, which is zero when there is none. -/
structure Marked (α : Type) where
  marker : Nat
  header : α

def marked? (names : List String) (header? : Text → Option (α × Text)) (text : Text) :
    Option (Marked α × Text) :=
  let withMarker := do
    let unmarked ← afterMarker? names text
    let (header, rest) ← header? unmarked
    pure (⟨text.length - unmarked.length, header⟩, rest)
  withMarker <|> (header? text).map fun (header, rest) => (⟨0, header⟩, rest)

/-- `sealed class Name` or `sealed interface Name`. -/
def sealedHeader? (text : Text) : Option (Text × Text) := do
  let rest ← keyword? "sealed" (skipModifiers text)
  let (_, rest) ← oneKeyword? ["class", "interface"] rest
  word? rest

/-- A clause in angle brackets that holds no `>`. -/
def simpleClause? (text : Text) : Option (Text × Text) := do
  cut '>' (← literal? "<" text)

/-- `fun <T> name(`, the type parameters being optional. -/
structure FunctionHeader where
  typeClause : Text
  name : Text

def functionHeader? (text : Text) : Option (FunctionHeader × Text) := do
  let rest ← keyword? "fun" text
  let (clause, rest) :=
    match simpleClause? rest with
    | some (entries, rest) => ('<' :: entries ++ ['>'], skipBlanks rest)
    | none => ([], rest)
  let (name, rest) ← word? rest
  pure (⟨clause, name⟩, ← mark? '(' rest)

def suspendHeader? (text : Text) : Option (FunctionHeader × Text) := do
  let rest ← keyword? "suspend" (skipModifiers text)
  functionHeader? (skipModifiers rest)

/-- Any function, up to its opening parenthesis, and whether it suspends. -/
def anyFunctionHeader? (text : Text) : Option ((Bool × FunctionHeader) × Text) := do
  let rest := skipModifiers text
  let (suspends, rest) :=
    match keyword? "suspend" rest with
    | some rest => (true, rest)
    | none => (false, rest)
  let (header, rest) ← functionHeader? (skipModifiers rest)
  pure ((suspends, header), rest)

/-- The types whose values arrive over time. -/
def flowTypes : List Text :=
  ["Flow".toList, "StateFlow".toList, "SharedFlow".toList]

/-- The text behind the `<` of a flow type, which may be written with its package. -/
def afterFlowType? (text : Text) : Option Text := do
  let (type, rest) ← dotted? text
  if flowTypes.contains (afterLast '.' type) then mark? '<' rest else none

/-- A colon and the blanks around it. -/
def afterColon? (text : Text) : Option Text :=
  (mark? ':' text).map skipBlanks

/-- `: Flow<` behind a parameter list. -/
def afterFlowReturn? (text : Text) : Option Text := do
  afterFlowType? (← afterColon? text)

def flowPropertyHeader? (text : Text) : Option (Text × Text) := do
  let (_, rest) ← oneKeyword? ["val", "var"] (skipModifiers text)
  let (name, rest) ← word? rest
  pure (name, ← afterFlowType? (← afterColon? rest))

/-- `data class Name(`, where a clause of type parameters may follow the name. -/
def dataCaseHeader? (before : Option Char) (text : Text) : Option (Text × Text) := do
  if atBoundary before then
    let rest ← keyword? "data" text
    let (name, rest) ← word? (← keyword? "class" rest)
    let rest :=
      match simpleClause? (skipBlanks rest) with
      | some (_, rest) => rest
      | none => rest
    pure (name, ← mark? '(' rest)
  else none

def supertype? (text : Text) : Option (Text × Text) := do
  dotted? (← afterColon? text)

structure ObjectHeader where
  name : Text
  supertype : Text

/-- `object Name : Supertype`, or the same as a data object. -/
def objectHeader? (before : Option Char) (text : Text) : Option (ObjectHeader × Text) := do
  if atBoundary before then
    let rest := (keyword? "data" text).getD text
    let (name, rest) ← word? (← keyword? "object" rest)
    let (supertype, rest) ← supertype? rest
    pure (⟨name, supertype⟩, rest)
  else none

/-- A keyword that names a type, with the name. -/
def typeHeader? (before : Option Char) (text : Text) : Option (Text × Text) := do
  if atBoundary before then
    let (_, rest) ← oneKeyword? ["class", "interface", "object"] text
    word? rest
  else none

/-- The name of the package, empty when no line names one. -/
def packageName : Bool → Text → Text
  | _, [] => []
  | atLineStart, c :: rest =>
    let named :=
      if atLineStart then (keyword? "package" (skipBlanks (c :: rest))).bind dotted? else none
    match named with
    | some (name, _) => name
    | none => packageName (c = '\n') rest

/-- The value of an argument `key = true` or `key = false` in the text of a marker. -/
def booleanArgument? (key : String) (text : Text) : Option (Bool × Text) := do
  let rest := skipBlanks (← mark? '=' (← literal? key text))
  ((literal? "true" rest).map (true, ·)) <|> ((literal? "false" rest).map (false, ·))

/-- The word of an argument `key = "word"` in the text of a marker. -/
def wordArgument? (key : String) (text : Text) : Option (Text × Text) := do
  let (word, rest) ← word? (← mark? '"' (← mark? '=' (← literal? key text)))
  pure (word, ← literal? "\"" rest)

end DeclBridge.Kotlin
