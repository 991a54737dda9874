import DeclBridge.Declaration
import DeclBridge.Kotlin.Header
import DeclBridge.Kotlin.Literal
import DeclBridge.Kotlin.TypeText

/-!
Parameter lists of functions and of data cases, given the text between the parentheses.
-/

namespace DeclBridge.Kotlin

open Text

/-- `@Name` or `@site:Name`, possibly with arguments, and the blanks after it. -/
def annotated? (text : Text) : Option (Text × Text) := do
  let (name, rest) ← run? (fun c => isDottedChar c || c = ':') (← literal? "@" text)
  let rest :=
    match parenthesised? rest with
    | some (_, rest) => rest
    | none => rest
  pure (name, ← gap? rest)

def skipAnnotations (text : Text) : Text :=
  (many annotated? text).2

def visibilities : List String :=
  ["private", "public", "internal", "protected", "override"]

def parameterModifiers : List String :=
  ["vararg", "noinline", "crossinline", "val", "var"] ++ visibilities

/-- The modifiers and the name of a parameter, and the text behind its colon. A modifier directly
before the colon is the name. -/
def parameterName? (text : Text) : Option ((List String × Text) × Text) :=
  let (found, rest) := many (oneKeyword? parameterModifiers) text
  match word? rest, found.getLast? with
  | some (name, rest), _ => (mark? ':' rest).map ((found, name), ·)
  | none, some last => (literal? ":" rest).map ((found.dropLast, last.toList), ·)
  | none, none => none

/-- Divides a nonempty text at an equals sign into type and default. The first character belongs to
the type whatever it is, and so does an equals sign that nothing follows. -/
def splitDefault (text : Text) : Text × Option Text :=
  match text with
  | [] => ([], none)
  | first :: rest =>
    match cut '=' rest with
    | some (type, c :: value) => (trimEnd (first :: type), some (skipBlanks (c :: value)))
    | _ => (text, none)

/-- Literals stand for themselves, any other expression is only known to be there. -/
def knownDefault (value : Text) : Text :=
  if isLiteralDefault (trim value) then trim value else unknownDefault

def readParameter? (entry : Text) : Option Parameter :=
  match parameterName? (skipAnnotations (skipBlanks entry)) with
  | none => none
  | some ((found, name), rest) =>
    match skipBlanks rest with
    | [] => none
    | rest =>
      let (type, value) := splitDefault rest
      let (type, isNullable) := splitNullMark (collapse type)
      some ⟨name, type, isNullable, value.map knownDefault, found.contains "vararg"⟩

/-- Entries that do not read as a name and a type are left out. -/
def readParameters (text : Text) : List Parameter :=
  (splitTopLevel text).filterMap readParameter?

/-- Entries of a data case that declare a property. -/
def declaresProperty (entry : Text) : Bool :=
  let text := (many (oneKeyword? visibilities) (skipAnnotations (skipBlanks entry))).2
  (do
    let (_, rest) ← oneKeyword? ["val", "var"] text
    let (_, rest) ← word? rest
    mark? ':' rest).isSome

/-- The properties of a data case. Plain parameters are no properties. -/
def readProperties (text : Text) : List Property :=
  ((splitTopLevel text).filter declaresProperty).filterMap fun entry =>
    (readParameter? entry).map fun read => ⟨read.name, read.type, read.isNullable⟩

end DeclBridge.Kotlin
