import DeclBridge.Text.Basic

/-!
The declarations the bridge knows: sum types, asynchronous functions and streams of values, as they
are found in Kotlin sources and kept in manifests.
-/

namespace DeclBridge

inductive Kind where
  | sum
  | async
  | stream
deriving DecidableEq, Repr

namespace Kind

def all : List Kind := [sum, async, stream]

/-- The name of a kind in manifests and messages. -/
def tag : Kind → Text
  | sum => "sum".toList
  | async => "async".toList
  | stream => "stream".toList

def ofTag? (tag : Text) : Option Kind :=
  all.find? (·.tag = tag)

theorem ofTag?_tag (kind : Kind) : ofTag? kind.tag = some kind := by
  cases kind <;> rfl

end Kind

/-- The return type of a function that declares none. -/
def unitType : Text := "Unit".toList

/-- Stands for a default value whose text is not known. -/
def unknownDefault : Text := "default".toList

structure Property where
  name : Text
  type : Text
  isNullable : Bool := false
deriving DecidableEq, Repr

/-- A case of a sum type. Object cases have no properties. -/
structure Variant where
  name : Text
  properties : List Property := []
  isObject : Bool := false
deriving DecidableEq, Repr

/-- A parameter of a function. Required parameters have no default. -/
structure Parameter where
  name : Text
  type : Text
  isNullable : Bool := false
  default : Option Text := none
  isVararg : Bool := false
deriving DecidableEq, Repr

/-- What all declarations have: the name, the package, and the name that is unique within a kind. -/
structure Identity where
  qualifiedName : Text
  name : Text
  package : Text
deriving DecidableEq, Repr

/-- A sealed class or interface with its cases. -/
structure SumType extends Identity where
  typeParameters : List Text := []
  variants : List Variant := []
  rename : Option Text := none
  isExhaustive : Bool := true
  conformances : List Text := []
deriving DecidableEq, Repr

/-- A suspending function. `owner` is the type it is a member of. -/
structure AsyncFunction extends Identity where
  parameters : List Parameter := []
  returnType : Text := unitType
  typeParameters : List Text := []
  isFailable : Bool := true
  owner : Option Text := none
  isMarked : Bool := false
deriving DecidableEq, Repr

/-- A function or property whose values arrive over time. -/
structure Stream extends Identity where
  elementType : Text
  parameters : List Parameter := []
  owner : Option Text := none
  isProperty : Bool := false
  isMarked : Bool := false
deriving DecidableEq, Repr

inductive Declaration where
  | sum (declaration : SumType)
  | async (declaration : AsyncFunction)
  | stream (declaration : Stream)
deriving DecidableEq, Repr

namespace Declaration

def kind : Declaration → Kind
  | sum _ => .sum
  | async _ => .async
  | stream _ => .stream

def identity : Declaration → Identity
  | sum declaration => declaration.toIdentity
  | async declaration => declaration.toIdentity
  | stream declaration => declaration.toIdentity

/-- Declarations of one kind are told apart by their qualified names. -/
def key (declaration : Declaration) : Kind × Text :=
  (declaration.kind, declaration.identity.qualifiedName)

/-- The type whose members a declaration joins. Sum types stand on their own wherever they are
declared. -/
def owner? : Declaration → Option Text
  | sum _ => none
  | async declaration => declaration.owner
  | stream declaration => declaration.owner

/-- Marked for adoption. For a sum type the marker is what gives it its name in Swift. -/
def isMarked : Declaration → Bool
  | sum declaration => declaration.rename.isSome
  | async declaration => declaration.isMarked
  | stream declaration => declaration.isMarked

end Declaration

/-- The first declaration of every key, in order. -/
def firstPerKey (declarations : List Declaration) : List Declaration :=
  go [] declarations
where
  go (seen : List (Kind × Text)) : List Declaration → List Declaration
    | [] => []
    | declaration :: rest =>
      if declaration.key ∈ seen then go seen rest
      else declaration :: go (declaration.key :: seen) rest

end DeclBridge
