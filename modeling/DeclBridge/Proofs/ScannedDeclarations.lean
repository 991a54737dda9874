import DeclBridge.Kotlin.Scan
import DeclBridge.Proofs.KotlinHeaders
import DeclBridge.Proofs.ManifestRoundTrip
import DeclBridge.Proofs.TypeTexts

/-! What scanning promises of every declaration it finds, whatever the source. Names are words and
types are plain. Type parameters and defaults are only trimmed, so they may go over several
lines. -/

namespace DeclBridge

open Text

structure Identity.Scanned (identity : Identity) : Prop where
  name : IsWord identity.name
  package : ∀ c ∈ identity.package, isDottedChar c = true
  qualifiedNamed : identity.qualifiedName ≠ []
  qualifiedName : ∀ c ∈ identity.qualifiedName, isDottedChar c = true

structure Property.Scanned (property : Property) : Prop where
  name : IsWord property.name
  type : IsPlain property.type
  marked : IsMarkedByFlag property.type property.isNullable

structure Variant.Scanned (variant : Variant) : Prop where
  name : IsWord variant.name
  properties : ∀ property ∈ variant.properties, property.Scanned

structure Parameter.Scanned (parameter : Parameter) : Prop where
  name : IsWord parameter.name
  type : IsPlain parameter.type
  marked : IsMarkedByFlag parameter.type parameter.isNullable
  default : ∀ value ∈ parameter.default, IsTrimmed value

structure IsScannedList (entries : List Text) : Prop extends IsWritableList entries where
  trimmed : ∀ entry ∈ entries, IsTrimmed entry

structure SumType.Scanned (declaration : SumType) : Prop where
  identity : declaration.toIdentity.Scanned
  typeParameters : IsScannedList declaration.typeParameters
  variants : ∀ variant ∈ declaration.variants, variant.Scanned
  rename : ∀ name ∈ declaration.rename, IsWord name
  conformances : declaration.conformances = []

structure AsyncFunction.Scanned (declaration : AsyncFunction) : Prop where
  identity : declaration.toIdentity.Scanned
  parameters : ∀ parameter ∈ declaration.parameters, parameter.Scanned
  returnType : IsPlain declaration.returnType ∧ declaration.returnType ≠ []
  typeParameters : IsScannedList declaration.typeParameters
  owner : ∀ name ∈ declaration.owner, IsWord name

structure Stream.Scanned (declaration : Stream) : Prop where
  identity : declaration.toIdentity.Scanned
  elementType : IsPlain declaration.elementType ∧ declaration.elementType ≠ []
  parameters : ∀ parameter ∈ declaration.parameters, parameter.Scanned
  owner : ∀ name ∈ declaration.owner, IsWord name

def Declaration.Scanned : Declaration → Prop
  | sum declaration => declaration.Scanned
  | async declaration => declaration.Scanned
  | stream declaration => declaration.Scanned

namespace Kotlin

/-! Parameters -/

theorem isWord_of_parameterName? {text name rest : Text} {modifiers : List String}
    (read : parameterName? text = some ((modifiers, name), rest)) : IsWord name := by
  have words : ∀ word ∈ parameterModifiers, IsWord word.toList := by decide
  unfold parameterName? at read
  dsimp only at read
  split at read
  · next named =>
    obtain ⟨_, -, same⟩ := Option.map_eq_some_iff.mp read
    cases same
    exact isWord_of_word? named
  · next last _ final =>
    obtain ⟨_, -, same⟩ := Option.map_eq_some_iff.mp read
    cases same
    obtain ⟨_, _, found⟩ := exists_of_mem_many (List.mem_of_getLast? final)
    exact words last (exists_of_oneKeyword? found).1
  · cases read

theorem isTrimmed_knownDefault (value : Text) : IsTrimmed (knownDefault value) := by
  unfold knownDefault
  split
  · exact isTrimmed_trim value
  · decide

theorem scanned_of_readParameter? {entry : Text} {parameter : Parameter}
    (read : readParameter? entry = some parameter) : parameter.Scanned := by
  unfold readParameter? at read
  split at read
  · cases read
  · next modifiers name rest named =>
    split at read
    · cases read
    · cases read
      refine ⟨isWord_of_parameterName? named, isPlain_splitNullMark (isPlain_collapse _),
        splitNullMark_unmarked, fun value given => ?_⟩
      obtain ⟨_, -, rfl⟩ := Option.map_eq_some_iff.mp given
      exact isTrimmed_knownDefault _

theorem scanned_of_mem_readParameters {text : Text} {parameter : Parameter}
    (found : parameter ∈ readParameters text) : parameter.Scanned := by
  obtain ⟨_, -, read⟩ := List.mem_filterMap.mp found
  exact scanned_of_readParameter? read

theorem scanned_of_mem_readProperties {text : Text} {property : Property}
    (found : property ∈ readProperties text) : property.Scanned := by
  obtain ⟨_, -, taken⟩ := List.mem_filterMap.mp found
  obtain ⟨parameter, read, rfl⟩ := Option.map_eq_some_iff.mp taken
  obtain ⟨name, type, marked, -⟩ := scanned_of_readParameter? read
  exact ⟨name, type, marked⟩

theorem isScannedList_splitTopLevel (text : Text) : IsScannedList (splitTopLevel text) :=
  ⟨⟨fun _ found => (isTrimmed_of_mem_splitTopLevel found).2, isSeparable_splitTopLevel text⟩,
    fun _ found => (isTrimmed_of_mem_splitTopLevel found).1⟩

/-! Declarations -/

namespace Source

variable {text : Text}

theorem exists_of_mem_places {source : Source} {header? : Lookbehind α} {place : Occurrence α}
    (found : place ∈ source.places header?) :
    ∃ before text, header? before text = some (place.found, place.rest) :=
  exists_of_mem_occurrences (List.mem_filter.mp found).1

theorem isWord_of_owner {offset : Nat} {name : Text}
    (found : (ofText text).scopes.containingType offset = some name) : IsWord name :=
  isWord_of_containingType found

theorem scanned_identity {offset : Nat} {name : Text} (named : IsWord name) :
    ((ofText text).identity ((ofText text).scopes.containingType offset) name).Scanned := by
  have package : ∀ c ∈ (ofText text).package, isDottedChar c = true :=
    fun c inside => isDottedChar_of_mem_packageName inside
  have dotted {word : Text} (isWord : IsWord word) : ∀ c ∈ word, isDottedChar c = true :=
    fun c inside => by simp [isDottedChar, isWord.wordChars c inside]
  refine ⟨named, package, ?_, fun c inside => ?_⟩
  · have part : name ∈ [(ofText text).package, ((ofText text).scopes.containingType offset).getD [],
        name].filter (!·.isEmpty) := by
      simp [named.nonempty]
    obtain ⟨c, inside⟩ := List.exists_mem_of_ne_nil name named.nonempty
    exact List.ne_nil_of_mem (subset_intercalate part inside)
  · rcases mem_intercalate inside with point | ⟨part, member, within⟩
    · rw [List.mem_singleton.mp point]
      rfl
    · simp only [List.mem_filter, List.mem_cons, List.not_mem_nil, or_false] at member
      obtain ⟨rfl | rfl | rfl, -⟩ := member
      · exact package c within
      · cases owned : (ofText text).scopes.containingType offset with
        | none =>
          rw [owned] at within
          cases within
        | some owner =>
          rw [owned] at within
          exact dotted (isWord_of_owner owned) c within
      · exact dotted named c within

theorem scanned_of_mem_variants {source : Source} {parent : Text} {variant : Variant}
    (found : variant ∈ source.variants parent) : variant.Scanned := by
  obtain ⟨⟨offset, _⟩, member, rfl⟩ := List.mem_map.mp found
  rcases List.mem_append.mp (List.mem_mergeSort.mp member) with member | member
  · obtain ⟨place, member, read⟩ := List.mem_filterMap.mp member
    obtain ⟨_, _, header⟩ := exists_of_mem_places member
    simp only [Option.bind_eq_bind, Option.bind_eq_some_iff, Prod.exists,
      Option.ite_none_right_eq_some, Option.pure_def, Option.some.injEq, Prod.mk.injEq] at read
    obtain ⟨inner, _, _, _, _, _, _, rfl, rfl⟩ := read
    exact ⟨isWord_of_dataCaseHeader? header, fun property => scanned_of_mem_readProperties⟩
  · obtain ⟨place, member, read⟩ := List.mem_filterMap.mp member
    obtain ⟨_, _, header⟩ := exists_of_mem_places member
    simp only [Option.ite_none_right_eq_some, Option.some.injEq, Prod.mk.injEq] at read
    obtain ⟨_, rfl, rfl⟩ := read
    exact ⟨isWord_of_objectHeader? header, by simp⟩

theorem scanned_of_sumType? {place : Occurrence (Marked Text)} {declaration : SumType}
    (named : IsWord place.found.header)
    (read : (ofText text).sumType? place = some declaration) : declaration.Scanned := by
  have identity : ((ofText text).identity
      ((ofText text).scopes.containingType place.start) place.found.header).Scanned :=
    scanned_identity named
  have variants : ∀ variant ∈ (ofText text).variants place.found.header, variant.Scanned :=
    fun variant => scanned_of_mem_variants
  have rename (marker : Text) : ∀ name ∈ (if marker.isEmpty then none else
      some ((firstMatch? (wordArgument? "name") marker).getD place.found.header)), IsWord name := by
    intro name given
    split at given
    · cases given
    · cases given
      cases found : firstMatch? (wordArgument? "name") marker with
      | none => exact named
      | some word =>
        obtain ⟨_, _, read⟩ := exists_of_firstMatch? found
        exact isWord_of_wordArgument? read
  unfold sumType? at read
  dsimp only at read
  split at read
  · obtain ⟨entries, clause, rest⟩ := Option.bind_eq_some_iff.mp read
    obtain ⟨_, _, rfl⟩ := Option.map_eq_some_iff.mp clause
    cases rest
    exact ⟨identity, isScannedList_splitTopLevel _, variants, rename _, rfl⟩
  · cases read
    exact ⟨identity, isScannedList_splitTopLevel [], variants, rename _, rfl⟩

theorem scanned_of_asyncFunction? {place : Occurrence (Marked FunctionHeader)}
    {declaration : AsyncFunction} (named : IsWord place.found.header.name)
    (read : (ofText text).asyncFunction? place = some declaration) : declaration.Scanned := by
  unfold asyncFunction? at read
  obtain ⟨⟨inner, after⟩, -, rest⟩ := Option.bind_eq_some_iff.mp read
  cases rest
  refine ⟨scanned_identity named,
    fun parameter => scanned_of_mem_readParameters, ?_, isScannedList_splitTopLevel _,
    fun name => isWord_of_owner⟩
  dsimp only
  cases returned : (afterColon? after).bind readType? with
  | none => decide
  | some parts =>
    obtain ⟨type, rest⟩ := parts
    obtain ⟨_, -, found⟩ := Option.bind_eq_some_iff.mp returned
    exact ⟨isPlain_collapse type, collapse_ne_nil (isBlankText_readType? found)⟩

theorem of_elementType? {text type : Text} (read : elementType? text = some type) :
    IsPlain type ∧ type ≠ [] := by
  simp only [elementType?, Option.bind_eq_bind, Option.bind_eq_some_iff, Prod.exists,
    Option.ite_none_left_eq_some, Option.some.injEq] at read
  obtain ⟨inner, _, _, inked, rfl⟩ := read
  exact ⟨isPlain_collapse inner, collapse_ne_nil (by simpa using inked)⟩

theorem scanned_of_flowFunction? {place : Occurrence (Marked (Bool × FunctionHeader))}
    {declaration : Stream} (named : IsWord place.found.header.2.name)
    (read : (ofText text).flowFunction? place = some declaration) : declaration.Scanned := by
  unfold flowFunction? at read
  dsimp only at read
  split at read
  · cases read
  · obtain ⟨⟨inner, after⟩, -, rest⟩ := Option.bind_eq_some_iff.mp read
    obtain ⟨behind, -, rest⟩ := Option.bind_eq_some_iff.mp rest
    obtain ⟨type, element, rest⟩ := Option.bind_eq_some_iff.mp rest
    cases rest
    exact ⟨scanned_identity named, of_elementType? element,
      fun parameter => scanned_of_mem_readParameters, fun name => isWord_of_owner⟩

theorem scanned_of_flowProperty? {place : Occurrence (Marked Text)} {declaration : Stream}
    (named : IsWord place.found.header)
    (read : (ofText text).flowProperty? place = some declaration) : declaration.Scanned := by
  unfold flowProperty? at read
  obtain ⟨type, element, rest⟩ := Option.bind_eq_some_iff.mp read
  cases rest
  exact ⟨scanned_identity named, of_elementType? element, by simp,
    fun name => isWord_of_owner⟩

end Source

/-- Every declaration that scanning finds keeps its promises. -/
theorem scanned_of_mem_scan {source : Text} {declaration : Declaration}
    (found : declaration ∈ scan source) : declaration.Scanned := by
  simp only [scan, List.mem_append, List.mem_map] at found
  obtain (⟨declaration, member, rfl⟩ | ⟨declaration, member, rfl⟩) | ⟨declaration, member, rfl⟩ :=
    found
  · obtain ⟨place, member, read⟩ := List.mem_filterMap.mp member
    obtain ⟨_, _, header⟩ := Source.exists_of_mem_places (List.mem_filter.mp member).1
    obtain ⟨_, header⟩ := exists_of_marked? header
    exact Source.scanned_of_sumType? (isWord_of_sealedHeader? header) read
  · obtain ⟨place, member, read⟩ := List.mem_filterMap.mp member
    obtain ⟨_, _, header⟩ := Source.exists_of_mem_places member
    obtain ⟨_, header⟩ := exists_of_marked? header
    exact Source.scanned_of_asyncFunction? (isWord_of_suspendHeader? header) read
  · rcases List.mem_append.mp member with member | member
    · obtain ⟨place, member, read⟩ := List.mem_filterMap.mp member
      obtain ⟨_, _, header⟩ := Source.exists_of_mem_places member
      obtain ⟨_, header⟩ := exists_of_marked? header
      exact Source.scanned_of_flowFunction? (isWord_of_anyFunctionHeader? header) read
    · obtain ⟨place, member, read⟩ := List.mem_filterMap.mp member
      obtain ⟨_, _, header⟩ := Source.exists_of_mem_places member
      obtain ⟨_, header⟩ := exists_of_marked? header
      exact Source.scanned_of_flowProperty? (isWord_of_flowPropertyHeader? header) read

end Kotlin
end DeclBridge
