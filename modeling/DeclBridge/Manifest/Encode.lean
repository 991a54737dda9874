import DeclBridge.Manifest.Field
import DeclBridge.Manifest.Line

/-!
Writing declarations as a manifest: the banner, then one section per declaration, separated by empty
lines. Entries that hold the usual value are left out.
-/

namespace DeclBridge.Manifest

open Text

def entry (key : String) (value : Text) : Text :=
  key.toList ++ '=' :: value

/-- No line at all for an empty value. -/
def optionalEntry (key : String) (value : Text) : List Text :=
  if value.isEmpty then [] else [entry key value]

/-- No line at all for an empty list. -/
def listEntry (key : String) (values : List Text) : List Text :=
  if values.isEmpty then [] else [entry key (writeList values)]

def flagEntry (key : String) (value : Bool) : List Text :=
  if value then [entry key (writeBool true)] else []

def sumLines (declaration : SumType) : List Text :=
  [entry "name" declaration.name, entry "namespace" declaration.package,
    entry "exhaustive" (writeBool declaration.isExhaustive)] ++
  optionalEntry "rename" (declaration.rename.getD []) ++
  listEntry "typeParams" declaration.typeParameters ++
  listEntry "conformances" declaration.conformances ++
  declaration.variants.map (entry "subclass" <| writeVariant ·)

def asyncLines (declaration : AsyncFunction) : List Text :=
  [entry "name" declaration.name, entry "namespace" declaration.package,
    entry "failable" (writeBool declaration.isFailable),
    entry "return" declaration.returnType] ++
  optionalEntry "class" (declaration.owner.getD []) ++
  flagEntry "hasAnnotation" declaration.isMarked ++
  listEntry "typeParams" declaration.typeParameters ++
  declaration.parameters.map (entry "param" <| writeParameter ·)

def streamLines (declaration : Stream) : List Text :=
  [entry "name" declaration.name, entry "namespace" declaration.package,
    entry "element" declaration.elementType] ++
  optionalEntry "class" (declaration.owner.getD []) ++
  flagEntry "isProperty" declaration.isProperty ++
  flagEntry "hasAnnotation" declaration.isMarked ++
  declaration.parameters.map (entry "param" <| writeParameter ·)

def entryLines : Declaration → List Text
  | .sum declaration => sumLines declaration
  | .async declaration => asyncLines declaration
  | .stream declaration => streamLines declaration

def sectionKey (declaration : Declaration) : SectionKey :=
  ⟨declaration.kind.tag, declaration.identity.qualifiedName⟩

def sectionLines (declaration : Declaration) : List Text :=
  (sectionKey declaration).header :: entryLines declaration

/-- A manifest of sections given as lines. -/
def ofSections (sections : List (List Text)) : Text :=
  unparagraphs (banner :: sections.map unlines) ++ ['\n']

def encode (declarations : List Declaration) : Text :=
  ofSections (declarations.map sectionLines)

end DeclBridge.Manifest
