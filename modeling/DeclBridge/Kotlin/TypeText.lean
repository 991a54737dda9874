import DeclBridge.Kotlin.Bracket
import DeclBridge.Text.Reader

/-!
Reading type references: dotted names with generic arguments, function types, and the mark `?` for
types that admit null.
-/

namespace DeclBridge.Kotlin

def skipNullMark : Text → Text
  | '?' :: rest => rest
  | text => text

/-- The text behind an arrow and the blanks around it. -/
def afterArrow? (text : Text) : Option Text :=
  (Text.literal? "->" (Text.skipBlanks text)).map Text.skipBlanks

theorem length_afterArrow? {text rest : Text} (h : afterArrow? text = some rest) :
    rest.length ≤ text.length := by
  obtain ⟨read, found, rfl⟩ := Option.map_eq_some_iff.1 h
  have shorter := (List.dropWhile_sublist Text.isBlank (l := read)).length_le
  have skipped := (List.dropWhile_sublist Text.isBlank (l := text)).length_le
  have := congrArg List.length (Text.behind?_eq_some_iff.1 found)
  simp only [List.length_append, Text.skipBlanks] at *
  omega

/-- The text behind a named type with its generic arguments. An argument list that is never closed
makes the type unreadable. -/
def afterNamedType? (text : Text) : Option Text := do
  match ← Text.dotted? text with
  | (_, '<' :: arguments) => pure (skipNullMark (← Bracket.angle.inside arguments).2)
  | (_, rest) => pure (skipNullMark rest)

/-- The text behind a type. After an arrow the result type may be missing, and each level of a
function type may bring a null mark of its own. -/
def afterType? : Text → Option Text
  | '(' :: parameters =>
    match _parameters : Bracket.round.inside parameters with
    | none => none
    | some (_, after) =>
      match _arrow : afterArrow? after with
      | none => some (skipNullMark after)
      | some result => some (skipNullMark ((afterType? result).getD result))
  | text => afterNamedType? text
termination_by text => text.length
decreasing_by
  have inner := Bracket.length_inside _parameters
  have outer := length_afterArrow? _arrow
  simp only [List.length_cons]
  omega

/-- A type behind optional spaces and tabs, as it stands, and the text after it. -/
def readType? (text : Text) : Option (Text × Text) :=
  let text := text.dropWhile fun c => c = ' ' || c = '\t'
  (afterType? text).map fun rest => (text.take (text.length - rest.length), rest)

/-- The type that starts at an offset and the offset behind it. When there is none, reading stays
where it was. -/
def typeAt (text : Text) (offset : Nat) : Option Text × Nat :=
  match readType? (text.drop offset) with
  | some (type, rest) => (some type, text.length - rest.length)
  | none => (none, offset)

/-- The type parameters of a clause, with or without its angle brackets. Variance is kept. -/
def typeParameters (clause : Text) : List Text :=
  let clause := Text.trim clause
  let entries :=
    if clause.head? = some '<' && clause.getLast? = some '>' then (clause.drop 1).dropLast
    else clause
  splitTopLevel entries

/-- A type on one line without its null mark, and whether it had one. -/
def splitNullMark (type : Text) : Text × Bool :=
  if type.getLast? = some '?' then (Text.trim type.dropLast, true) else (type, false)

end DeclBridge.Kotlin
