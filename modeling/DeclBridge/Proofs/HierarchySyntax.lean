import DeclBridge.Proofs.HeaderPlaces

/-! Sources that consist of sealed interfaces and their cases, one on each line. A case belongs to
the interface that it names. It may stand anywhere, also before that interface and between the cases
of others. -/

namespace DeclBridge.Kotlin.Syntax

open Text

/-! Lines -/

/-- A name that does not end in `data` either, so that no object behind it becomes a data object. -/
structure TypeName extends Identifier where
  undated : ¬"data".toList <:+ text

/-- A property that the constructor of a class declares. -/
structure Field where
  name : Identifier
  type : TypeRef

inductive Line where
  | blank
  | sealed (name : TypeName)
  | data (name : TypeName) (fields : List Field) (parent : TypeName)
  | object (name parent : TypeName)

def Field.text (field : Field) : Text :=
  "val ".toList ++ field.name.text ++ ": ".toList ++ field.type.text

def Field.declared (field : Field) : Property :=
  { name := field.name.text, type := field.type.unmarked, isNullable := field.type.isMarked }

namespace Line

def text : Line → Text
  | blank => []
  | sealed name => "sealed interface ".toList ++ name.text
  | data name fields parent =>
    "data class ".toList ++ name.text ++ '(' :: commaSpaced (fields.map (·.text)) ++
      ") : ".toList ++ parent.text
  | object name parent => "object ".toList ++ name.text ++ " : ".toList ++ parent.text

theorem text_blank : blank.text = [] :=
  rfl

theorem text_sealed (name : TypeName) :
    (sealed name).text = "sealed interface ".toList ++ name.text :=
  rfl

theorem text_data (name : TypeName) (fields : List Field) (parent : TypeName) :
    (data name fields parent).text =
      "data class ".toList ++ name.text ++ '(' :: commaSpaced (fields.map (·.text)) ++
        ") : ".toList ++ parent.text :=
  rfl

theorem text_object (name parent : TypeName) :
    (object name parent).text = "object ".toList ++ name.text ++ " : ".toList ++ parent.text :=
  rfl

/-- The case that a line adds to the interface of a name. -/
def case? (interface : Text) : Line → Option Variant
  | data name fields parent =>
    if parent.text = interface then
      some { name := name.text, properties := fields.map (·.declared) }
    else none
  | object name parent =>
    if parent.text = interface then some { name := name.text, isObject := true } else none
  | _ => none

/-- The interface that a line declares, with the cases that the given lines add to it. -/
def sumType? (lines : List Line) : Line → Option SumType
  | sealed name =>
    some
      { qualifiedName := name.text, name := name.text, package := []
        variants := lines.filterMap (case? name.text) }
  | _ => none

end Line

/-- The text of some lines, without a break at the end unless the last line is blank. -/
def textOf (lines : List Line) : Text :=
  unlines (lines.map (·.text))

/-- The text behind a line that some lines follow. -/
def behind : List Line → Text
  | [] => []
  | line :: lines => '\n' :: textOf (line :: lines)

theorem textOf_cons (line : Line) (lines : List Line) :
    textOf (line :: lines) = line.text ++ behind lines := by
  cases lines with
  | nil => simp [textOf, unlines, behind]
  | cons next lines =>
    rw [textOf, behind, textOf, unlines, unlines, List.map_cons, List.map_cons,
      List.intercalate_cons_cons, List.append_assoc]
    rfl

/-- A line ends before a break or with the text. -/
theorem head_behind (lines : List Line) : ∀ c ∈ (behind lines).head?, c = '\n' := by
  cases lines with
  | nil => simp [behind]
  | cons line lines => simp [behind]

/-! Fields -/

namespace Field

variable (field : Field)

/-- A parameter of the same name and type. -/
def parameter : Parameter where
  name := field.name
  type := field.type

theorem text_eq : field.text = "val ".toList ++ field.parameter.print (·.text) := by
  have front : field.parameter.print (·.text) =
      field.name.text ++ ": ".toList ++ field.type.text := List.append_nil _
  rw [front, ← List.append_assoc, ← List.append_assoc]
  rfl

theorem balanced : Balanced false field.text := by
  have keyword : Balanced false "val ".toList := .of_plain (by decide)
  rw [text_eq]
  exact keyword.append (field.parameter.balanced Literal.balanced)

theorem isTrimmed_text : IsTrimmed field.text ∧ field.text ≠ [] := by
  obtain ⟨trimmed, nonempty⟩ := field.parameter.isTrimmed_print
  rw [text_eq]
  refine ⟨(trimmed.trimmedEnd.append_left nonempty _).isTrimmed ?_, by simp⟩
  rintro _ ⟨⟩
  rfl

/-- Wherever a name stands in a field, there is a mark behind it. -/
theorem isQuiet_text {words : List String} {rest : Text}
    (keywords : ∀ word ∈ words, IsWord word.toList)
    (apart : ∀ word ∈ words, ¬word.toList <:+ "val".toList)
    (ends : ∀ c ∈ rest.head?, isWordChar c = false ∧ isBlank c = false) :
    IsQuiet words rest field.text := by
  have type := isQuiet_of_spelling_ink field.type.spelling keywords ends
  have colon : IsQuiet words (field.type.text ++ rest) ": ".toList :=
    isQuiet_of_marks keywords (by decide)
  have spelling : Spelling false field.name.text := .word field.name
  have name := (isQuiet_of_spelling_ink spelling keywords (by
    rintro _ ⟨⟩
    decide)).append (colon.append type)
  have keyword : IsQuiet words (field.name.text ++ (": ".toList ++ field.type.text) ++ rest)
      "val ".toList := isQuiet_of_keyword "val" keywords (by decide) apart
  have whole := keyword.append name
  rwa [← List.append_assoc, ← List.append_assoc] at whole

end Field

end DeclBridge.Kotlin.Syntax
