import DeclBridge.Kotlin.Comment
import DeclBridge.Kotlin.Parameter
import DeclBridge.Kotlin.Scope

/-!
Finding the declarations of a Kotlin source. Headers are recognised on a copy of the text whose
literals are blank; the copy keeps every offset, so parameter lists and the arguments of markers are
read from the text itself. Nothing is an error: what does not read as a declaration is left out.
-/

namespace DeclBridge.Kotlin

open Text

structure Source where
  /-- The text without comments. -/
  text : Text
  /-- The same with blank literals. -/
  masked : Text
  package : Text
  scopes : ScopeIndex

def Source.ofText (source : Text) : Source :=
  let text := stripComments source
  let masked := maskLiterals text
  ⟨text, masked, packageName true masked, ScopeIndex.ofText text⟩

namespace Source

/-- The text between two offsets, with its literals. -/
def slice (source : Source) (start length : Nat) : Text :=
  (source.text.drop start).take length

def identity (source : Source) (owner : Option Text) (name : Text) : Identity :=
  let parts := [source.package, owner.getD [], name].filter (!·.isEmpty)
  ⟨['.'].intercalate parts, name, source.package⟩

/-- The places where a header stands outside all types that are never closed. -/
def places (source : Source) (header? : Lookbehind α) : List (Occurrence α) :=
  (occurrences header? source.masked).filter fun place =>
    !source.scopes.isUnterminated place.start

/-- The text of the marker of a header, empty when there is none. -/
def markerText (source : Source) (place : Occurrence (Marked α)) : Text :=
  source.slice place.start place.found.marker

/-- The cases of a sum type found as data classes, with their offsets. -/
def dataCases (source : Source) (parent : Text) : List (Nat × Variant) :=
  (source.places dataCaseHeader?).filterMap fun place => do
    let (inner, after) ← Bracket.round.inside place.rest
    let (supertype, _) ← supertype? after
    if afterLast '.' supertype = parent then
      let properties := readProperties (source.slice place.stop inner.length)
      pure (place.start, { name := place.found, properties })
    else none

/-- The cases of a sum type found as objects, with their offsets. -/
def objectCases (source : Source) (parent : Text) : List (Nat × Variant) :=
  (source.places objectHeader?).filterMap fun place =>
    if afterLast '.' place.found.supertype = parent then
      some (place.start, { name := place.found.name, isObject := true })
    else none

/-- The cases that name a sum type as their supertype, in the order of the text. -/
def variants (source : Source) (parent : Text) : List Variant :=
  ((source.dataCases parent ++ source.objectCases parent).mergeSort (·.1 ≤ ·.1)).map (·.2)

/-- The sum type whose header stands at a place. Its type parameters follow the name directly. -/
def sumType? (source : Source) (place : Occurrence (Marked Text)) : Option SumType := do
  let name := place.found.header
  let typeParameters ←
    match place.rest with
    | '<' :: rest =>
      (Bracket.angle.inside rest).map fun (entries, _) => typeParameters (trim entries)
    | _ => some []
  let marker := source.markerText place
  let rename :=
    if marker.isEmpty then none else some ((firstMatch? (wordArgument? "name") marker).getD name)
  let isExhaustive := (firstMatch? (booleanArgument? "exhaustive") marker).getD true
  let identity := source.identity (source.scopes.containingType place.start) name
  pure
    { toIdentity := identity, typeParameters, variants := source.variants name, rename,
      isExhaustive }

def sumTypes (source : Source) : List SumType :=
  let places := source.places fun _ => marked? ["SwiftEnum"] sealedHeader?
  let closed := places.filter fun place =>
    !source.scopes.isUnterminatedHeader (place.stop - place.found.header.length)
  closed.filterMap source.sumType?

def asyncFunction? (source : Source) (place : Occurrence (Marked FunctionHeader)) :
    Option AsyncFunction := do
  let header := place.found.header
  let (inner, after) ← Bracket.round.inside place.rest
  let returned := ((afterColon? after).bind readType?).map fun (type, _) => collapse type
  let marker := source.markerText place
  let owner := source.scopes.containingType place.start
  pure
    { toIdentity := source.identity owner header.name
      parameters := readParameters (source.slice place.stop inner.length)
      returnType := returned.getD unitType
      typeParameters := typeParameters header.typeClause
      isFailable := (firstMatch? (booleanArgument? "throwing") marker).getD true
      owner
      isMarked := !marker.isEmpty }

def asyncFunctions (source : Source) : List AsyncFunction :=
  let places := source.places fun _ => marked? ["SwiftAsync", "SwiftDefaults"] suspendHeader?
  places.filterMap source.asyncFunction?

/-- The type argument that leads up to the `>` of a flow type, unless it is blank. -/
def elementType? (text : Text) : Option Text := do
  let (inner, _) ← Bracket.angle.inside text
  if isBlankText inner then none else some (collapse inner)

/-- The function of a flow type whose header stands at a place. Suspending functions are not
streams. -/
def flowFunction? (source : Source) (place : Occurrence (Marked (Bool × FunctionHeader))) :
    Option Stream := do
  let (suspends, header) := place.found.header
  if suspends then none
  let (inner, after) ← Bracket.round.inside place.rest
  let elementType ← elementType? (← afterFlowReturn? after)
  let owner := source.scopes.containingType place.start
  pure
    { toIdentity := source.identity owner header.name
      elementType
      parameters := readParameters (source.slice place.stop inner.length)
      owner
      isMarked := place.found.marker ≠ 0 }

def flowProperty? (source : Source) (place : Occurrence (Marked Text)) : Option Stream := do
  let elementType ← elementType? place.rest
  let owner := source.scopes.containingType place.start
  pure
    { toIdentity := source.identity owner place.found.header
      elementType
      owner
      isProperty := true
      isMarked := place.found.marker ≠ 0 }

/-- The functions come first, then the properties. -/
def streams (source : Source) : List Stream :=
  let functions := source.places fun _ => marked? ["SwiftFlow"] anyFunctionHeader?
  let properties := source.places fun _ => marked? ["SwiftFlow"] flowPropertyHeader?
  functions.filterMap source.flowFunction? ++ properties.filterMap source.flowProperty?

end Source

/-- The sum types of a source, then its suspending functions, then its streams. -/
def scan (source : Text) : List Declaration :=
  let source := Source.ofText source
  source.sumTypes.map .sum ++ source.asyncFunctions.map .async ++ source.streams.map .stream

end DeclBridge.Kotlin
