import DeclBridge.Swift.Type
import DeclBridge.Text.Case

/-!
What is to be generated: enums, asynchronous functions and streams in terms of Swift types, and how
each follows from a declaration.
-/

namespace DeclBridge.Swift

open Text

inductive Access where
  | isPublic
  | isInternal
  | isPrivate
deriving DecidableEq, Repr

def Access.text : Access → Text
  | isPublic => "public".toList
  | isInternal => "internal".toList
  | isPrivate => "private".toList

structure AssociatedValue where
  label : Text
  type : SwiftType
deriving DecidableEq, Repr

structure EnumCase where
  name : Text
  associatedValues : List AssociatedValue := []
deriving DecidableEq, Repr

structure EnumSpec where
  name : Text
  cases : List EnumCase
  typeParameters : List Text := []
  conformances : List Text := []
  isFrozen : Bool := true
  access : Access := .isPublic
deriving DecidableEq, Repr

/-- A parameter of a Swift function. Defaults that are absent or unknown are not told apart. -/
structure SwiftParameter where
  name : Text
  type : SwiftType
  default : Option Text := none
  isVariadic : Bool := false
deriving DecidableEq, Repr

structure FunctionSpec where
  name : Text
  parameters : List SwiftParameter := []
  returnType : SwiftType := .void
  typeParameters : List Text := []
  isThrowing : Bool := true
  access : Access := .isPublic
  isMember : Bool := false
deriving DecidableEq, Repr

structure StreamSpec where
  name : Text
  elementType : SwiftType
  parameters : List SwiftParameter := []
  isProperty : Bool := false
  typeParameters : List Text := []
  access : Access := .isPublic
  isMember : Bool := false
deriving DecidableEq, Repr

/-- `Success` becomes `success`. -/
def lowerFirst : Text → Text
  | [] => []
  | c :: rest => lowerChar c ++ rest

/-- The words before a type parameter that Swift does not have. -/
def typeParameterModifiers : List Text :=
  ["out", "in", "reified"].map String.toList

def stripVariance (typeParameter : Text) : Text :=
  [' '].intercalate ((words typeParameter).dropWhile typeParameterModifiers.contains)

def SwiftParameter.ofParameter (parameter : Parameter) : SwiftParameter :=
  { name := parameter.name
    type := mapType parameter.type parameter.isNullable
    default := mapDefault parameter.default
    isVariadic := parameter.isVararg }

def EnumCase.ofVariant (variant : Variant) : EnumCase :=
  { name := lowerFirst variant.name
    associatedValues := variant.properties.map fun property =>
      ⟨property.name, mapType property.type property.isNullable⟩ }

/-- The enum for a sum type. Further conformances come last, and `exhaustive` decides over the
declaration. -/
def EnumSpec.ofSumType (declaration : SumType) (further : List Text) (exhaustive : Option Bool) :
    EnumSpec :=
  { name := (declaration.rename.filter (!·.isEmpty)).getD declaration.name
    cases := declaration.variants.map EnumCase.ofVariant
    typeParameters := declaration.typeParameters.map stripVariance
    conformances := (declaration.conformances ++ further).eraseDups
    isFrozen := exhaustive.getD declaration.isExhaustive }

def FunctionSpec.ofAsyncFunction (declaration : AsyncFunction) : FunctionSpec :=
  { name := declaration.name
    parameters := declaration.parameters.map SwiftParameter.ofParameter
    returnType := mapType declaration.returnType false
    typeParameters := declaration.typeParameters.map stripVariance
    isThrowing := declaration.isFailable
    isMember := declaration.owner.isSome }

def StreamSpec.ofStream (declaration : Stream) : StreamSpec :=
  { name := declaration.name
    elementType := mapType declaration.elementType false
    parameters := declaration.parameters.map SwiftParameter.ofParameter
    isProperty := declaration.isProperty
    isMember := declaration.owner.isSome }

end DeclBridge.Swift
