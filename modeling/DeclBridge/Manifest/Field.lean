import DeclBridge.Declaration
import DeclBridge.Kotlin.Bracket
import DeclBridge.Text.Case

/-!
The values of manifest entries: types with a null mark, parameters, variants, lists and truth
values. Each has a written form, and a reading that admits more than what is written.
-/

namespace DeclBridge.Manifest

open Text

def writeBool (value : Bool) : Text :=
  if value then "true".toList else "false".toList

/-- Everything but `true` in any case is false. -/
def readBool (text : Text) : Bool :=
  (trim text).flatMap lowerChar = "true".toList

def writeType (type : Text) (isNullable : Bool) : Text :=
  if isNullable then type ++ ['?'] else type

def readType (text : Text) : Text × Bool :=
  let text := trim text
  if text.getLast? = some '?' then (trim text.dropLast, true) else (text, false)

/-- Lists of names that may hold commas inside brackets. -/
def writeList (entries : List Text) : Text :=
  [','].intercalate entries

def readList (text : Text) : List Text :=
  Kotlin.splitTopLevel text

/-- The word that marks a variadic parameter. -/
def varargMark : Text := "vararg ".toList

/-- `vararg name:type?=default`, where the mark, the null mark and the default are optional. -/
def writeParameter (parameter : Parameter) : Text :=
  (if parameter.isVararg then varargMark else []) ++ parameter.name ++
    ':' :: writeType parameter.type parameter.isNullable ++
    parameter.default.elim [] ('=' :: ·)

/-- Needs a name and a type. The default is kept as it stands. -/
def readParameter? (text : Text) : Option Parameter := do
  let (isVararg, text) :=
    match behind? varargMark text with
    | some rest => (true, rest)
    | none => (false, text)
  let (name, rest) ← cut ':' text
  let (type, default) :=
    match cut '=' rest with
    | some (type, default) => (type, some default)
    | none => (rest, none)
  let (type, isNullable) := readType type
  if isBlankText name || type.isEmpty then none
  else some ⟨trim name, type, isNullable, default, isVararg⟩

def writeProperty (property : Property) : Text :=
  property.name ++ ':' :: writeType property.type property.isNullable

/-- Needs a name, but the type may be empty. -/
def readProperty? (text : Text) : Option Property := do
  let (name, type) ← cut ':' text
  let (type, isNullable) := readType type
  if isBlankText name then none else some ⟨trim name, type, isNullable⟩

/-- `name|property,property|isObject`. -/
def writeVariant (variant : Variant) : Text :=
  variant.name ++ '|' :: writeList (variant.properties.map writeProperty) ++
    '|' :: writeBool variant.isObject

/-- Needs all three fields and a name. Further fields, and properties without a name, are ignored.
-/
def readVariant? (text : Text) : Option Variant :=
  match text.splitOn '|' with
  | name :: properties :: isObject :: _ =>
    if isBlankText name then none
    else some ⟨trim name, (readList properties).filterMap readProperty?, readBool isObject⟩
  | _ => none

end DeclBridge.Manifest
