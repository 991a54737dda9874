import DeclBridge.Declaration
import DeclBridge.Kotlin.Bracket
import DeclBridge.Kotlin.Literal
import DeclBridge.Text.Reader

/-!
Swift types, their text, and the Swift type and default value that stand for a Kotlin one. Function
types have no form of their own; they are carried over as names.
-/

namespace DeclBridge.Swift

open Text

inductive SwiftType where
  | named (name : Text)
  /-- A reference to a type parameter of the enclosing declaration. -/
  | generic (name : Text)
  | optional (wrapped : SwiftType)
  | array (element : SwiftType)
  | dictionary (key value : SwiftType)
  | void
  /-- A type without text, and why. -/
  | unrenderable (reason : Text)
deriving DecidableEq, Repr

namespace SwiftType

/-- The text of a type. One that is unrenderable contributes nothing. -/
def text : SwiftType → Text
  | named name => name
  | generic name => name
  | optional wrapped => wrapped.text ++ ['?']
  | array element => '[' :: element.text ++ [']']
  | dictionary key value => '[' :: key.text ++ ": ".toList ++ value.text ++ [']']
  | void => "Void".toList
  | unrenderable _ => []

/-- Why a type cannot be rendered: the first reason from left to right. -/
def defect? : SwiftType → Option Text
  | optional wrapped => wrapped.defect?
  | array element => element.defect?
  | dictionary key value => key.defect? <|> value.defect?
  | unrenderable reason => some reason
  | _ => none

def render (type : SwiftType) : Except Text Text :=
  match type.defect? with
  | some reason => .error reason
  | none => .ok type.text

def isVoid (type : SwiftType) : Bool :=
  type = void

def isOptional : SwiftType → Bool
  | optional _ => true
  | _ => false

end SwiftType

/-- The Swift names of Kotlin's scalars. -/
def scalars : List (Text × Text) :=
  [("String", "String"), ("Int", "Int32"), ("Long", "Int64"), ("Short", "Int16"), ("Byte", "Int8"),
    ("Float", "Float"), ("Double", "Double"), ("Boolean", "Bool"), ("Bool", "Bool"),
    ("Char", "Character"), ("ByteArray", "Data"), ("Throwable", "Error"), ("Exception", "Error"),
    ("Any", "Any")].map fun (kotlin, swift) => (kotlin.toList, swift.toList)

def voidNames : List Text :=
  ["Unit", "Void"].map String.toList

def arrayContainers : List Text :=
  ["List", "MutableList", "Collection", "Iterable", "Set", "MutableSet", "Array"].map String.toList

def dictionaryContainers : List Text :=
  ["Map", "MutableMap", "HashMap"].map String.toList

/-- A single capital stands for a type parameter. -/
def isTypeParameter (name : Text) : Bool :=
  match name with
  | [c] => 'A' ≤ c && c ≤ 'Z'
  | _ => false

/-- The Swift form of a type name without arguments. Packages do not matter for scalars, but a name
that is not one of them is kept with its package. -/
def mapName (name : Text) : SwiftType :=
  match scalars.lookup (afterLast '.' name) with
  | some swift => .named swift
  | none => if isTypeParameter name then .generic name else .named name

/-- The Swift form of a generic type, given those of its arguments. -/
def mapGeneric (container : Text) (arguments : List SwiftType) : SwiftType :=
  let named := SwiftType.named
    (container ++ '<' :: commaSpaced (arguments.map SwiftType.text) ++ ['>'])
  match arguments with
  | [element] => if arrayContainers.contains container then .array element else named
  | [key, value] => if dictionaryContainers.contains container then .dictionary key value else named
  | _ => named

/-- The container of a generic type and the text between its first `<` and the `>` at the end. -/
def containerOf? (name : Text) : Option (Text × Text) := do
  let (container, rest) ← dotted? name
  let rest ← mark? '<' rest
  if rest.getLast? = some '>' then some (container, rest.dropLast) else none

/-- A type without its outer null mark, and whether it had one. -/
def withoutNullMark (type : Text) : Text × Bool :=
  let type := trim type
  if type.getLast? = some '?' then (trim type.dropLast, true) else (type, false)

theorem length_withoutNullMark_le (type : Text) :
    (withoutNullMark type).1.length ≤ type.length := by
  have whole := length_trim_le type
  unfold withoutNullMark
  dsimp only
  split
  · have inner := length_trim_le (trim type).dropLast
    simp only [List.length_dropLast] at inner
    dsimp only
    omega
  · exact whole

theorem length_lt_of_containerOf? {name container inner : Text}
    (h : containerOf? name = some (container, inner)) : inner.length < name.length := by
  obtain ⟨⟨found, afterName⟩, read, h⟩ := Option.bind_eq_some_iff.1 h
  obtain ⟨behind, opened, h⟩ := Option.bind_eq_some_iff.1 h
  have name := (length_run? read).2
  have opener := length_mark? opened
  split at h
  · have same := congrArg (·.2.length) (Option.some.inj h)
    simp only [List.length_dropLast] at same
    omega
  · contradiction

/-- The Swift form of a Kotlin type. The void type has no optional. -/
def mapType (type : Text) (isNullable : Bool) : SwiftType :=
  let name := (withoutNullMark type).1
  let base :=
    if voidNames.contains name then .void
    else
      match _container : containerOf? name with
      | some (container, inner) =>
        mapGeneric (afterLast '.' container) <|
          (Kotlin.splitTopLevel inner).attach.map fun argument => mapType argument.1 false
      | none => mapName name
  if (isNullable || (withoutNullMark type).2) && !base.isVoid then .optional base else base
termination_by type.length
decreasing_by
  have entry := Kotlin.length_le_of_mem_splitTopLevel argument.2
  have inner := length_lt_of_containerOf? _container
  have outer : name.length ≤ type.length := length_withoutNullMark_le type
  omega

/-- A number of a Kotlin type without the letter that types it. -/
def untypedNumber? (value : Text) : Option Text :=
  match Kotlin.signedDecimal? value with
  | some (number, [c]) => if Kotlin.isNumberSuffix c then some number else none
  | _ => none

/-- The Swift form of a default value. Unknown ones have none. -/
def mapDefault (value : Option Text) : Option Text := do
  let value := trim (← value)
  if value = unknownDefault then none
  else if value = "null".toList then some "nil".toList
  else some ((untypedNumber? value).getD value)

end DeclBridge.Swift
