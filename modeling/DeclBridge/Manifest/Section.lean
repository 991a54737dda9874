import DeclBridge.Manifest.Field
import DeclBridge.Manifest.Line

/-!
A section of a manifest as data, and the declaration it describes. Every kind reads its own keys and
ignores all others; of a key that holds one value the first entry counts.
-/

namespace DeclBridge.Manifest

open Text

structure Section where
  kind : Kind
  qualifiedName : Text
  entries : List (Text × Text) := []
deriving DecidableEq, Repr

namespace Section

def first? (part : Section) (key : String) : Option Text :=
  part.entries.lookup key.toList

def values (part : Section) (key : String) : List Text :=
  (part.entries.filter (·.1 = key.toList)).map (·.2)

/-- The first value of a key, an empty one counting as none. -/
def nonempty? (part : Section) (key : String) : Option Text :=
  (part.first? key).filter (!·.isEmpty)

def bool (part : Section) (key : String) (default : Bool) : Bool :=
  ((part.first? key).map readBool).getD default

def list (part : Section) (key : String) : List Text :=
  readList ((part.first? key).getD [])

/-- A section that does not name its package is in the one its qualified name tells. -/
def package (part : Section) : Text :=
  (part.first? "namespace").getD (((cutLast '.' part.qualifiedName).map (·.1)).getD [])

def identity? (part : Section) : Option Identity :=
  (part.nonempty? "name").map fun name => ⟨part.qualifiedName, name, part.package⟩

def parameters (part : Section) : List Parameter :=
  (part.values "param").filterMap readParameter?

def sumType? (part : Section) : Option SumType :=
  part.identity?.map fun identity =>
    { toIdentity := identity
      typeParameters := part.list "typeParams"
      variants := (part.values "subclass").filterMap readVariant?
      rename := part.nonempty? "rename"
      isExhaustive := part.bool "exhaustive" true
      conformances := part.list "conformances" }

def asyncFunction? (part : Section) : Option AsyncFunction :=
  part.identity?.map fun identity =>
    { toIdentity := identity
      parameters := part.parameters
      returnType := (part.nonempty? "return").getD unitType
      typeParameters := part.list "typeParams"
      isFailable := part.bool "failable" true
      owner := part.nonempty? "class"
      isMarked := part.bool "hasAnnotation" false }

def stream? (part : Section) : Option Stream := do
  let identity ← part.identity?
  let elementType ← part.nonempty? "element"
  pure
    { toIdentity := identity
      elementType
      parameters := part.parameters
      owner := part.nonempty? "class"
      isProperty := part.bool "isProperty" false
      isMarked := part.bool "hasAnnotation" false }

/-- The declaration a section describes. Without the required keys there is none. -/
def declaration? (part : Section) : Option Declaration :=
  match part.kind with
  | .sum => part.sumType?.map .sum
  | .async => part.asyncFunction?.map .async
  | .stream => part.stream?.map .stream

end Section
end DeclBridge.Manifest
