import DeclBridge.Proofs.FieldCodecs

/-! Declarations survive being written as a manifest and read again. A section gives back what its
values give back, and these are known one by one, so the declarations that survive can be told
exactly. -/

namespace DeclBridge

open Text

namespace Manifest

/-! Looking up what was written -/

private theorem lookup_map_toList (pairs : List (String × Text)) (key : String) :
    (pairs.map fun pair => (pair.1.toList, pair.2)).lookup key.toList = pairs.lookup key := by
  induction pairs with
  | nil => rfl
  | cons pair pairs ih =>
    obtain ⟨other, value⟩ := pair
    by_cases same : key = other
    · simp [same]
    · have differs : key.toList ≠ other.toList := fun equal => same (String.toList_inj.mp equal)
      simp [List.lookup_cons, beq_false_of_ne same, beq_false_of_ne differs, ih]

theorem first?_writtenSection (declaration : Declaration) (key : String) :
    (writtenSection declaration).first? key = (pairs declaration).lookup key :=
  lookup_map_toList (pairs declaration) key

theorem values_writtenSection (declaration : Declaration) (key : String) :
    (writtenSection declaration).values key =
      ((pairs declaration).filter (·.1 = key)).map (·.2) := by
  simp [Section.values, writtenSection, List.filter_map, Function.comp_def, String.toList_inj]

@[simp]
private theorem lookup_cons_pair (key other : String) (value : Text)
    (rest : List (String × Text)) :
    ((key, value) :: rest).lookup other =
      if other = key then some value else rest.lookup other := by
  by_cases same : other = key
  · simp [same]
  · simp [List.lookup_cons, beq_false_of_ne same, same]

@[simp]
private theorem lookup_optionalPair (key other : String) (value : Option Text) :
    (optionalPair key (value.getD [])).lookup other =
      if other = key then value.filter (!·.isEmpty) else none := by
  cases value with
  | none => simp [optionalPair]
  | some text => cases text <;> simp [optionalPair, Option.filter]

@[simp]
private theorem lookup_listPair (key other : String) (values : List Text) :
    (listPair key values).lookup other =
      if other = key ∧ values ≠ [] then some (writeList values) else none := by
  cases values <;> simp [listPair]

@[simp]
private theorem lookup_flagPair (key other : String) (value : Bool) :
    (flagPair key value).lookup other =
      if other = key ∧ value = true then some (writeBool true) else none := by
  cases value <;> simp [flagPair]

@[simp]
private theorem lookup_map_pair {key other : String} (differs : other ≠ key) (items : List α)
    (write : α → Text) : (items.map ((key, write ·))).lookup other = none := by
  induction items with
  | nil => rfl
  | cons item items ih => simp [differs, ih]

@[simp]
private theorem filter_optionalPair {key other : String} (differs : key ≠ other)
    (value : Option Text) : (optionalPair key (value.getD [])).filter (·.1 = other) = [] := by
  unfold optionalPair
  split <;> simp [differs]

@[simp]
private theorem filter_listPair {key other : String} (differs : key ≠ other)
    (values : List Text) : (listPair key values).filter (·.1 = other) = [] := by
  unfold listPair
  split <;> simp [differs]

@[simp]
private theorem filter_flagPair {key other : String} (differs : key ≠ other)
    (value : Bool) : (flagPair key value).filter (·.1 = other) = [] := by
  unfold flagPair
  split <;> simp [differs]

/-! What a section gives back -/

section
variable {declaration : Declaration} {key : String}

private theorem list_of_lookup {values : List Text} (found : (pairs declaration).lookup key =
      if values ≠ [] then some (writeList values) else none) :
    (writtenSection declaration).list key = readList (writeList values) := by
  rw [Section.list, first?_writtenSection, found]
  cases values <;> rfl

private theorem nonempty?_of_lookup {value : Option Text}
    (found : (pairs declaration).lookup key = value.filter (!·.isEmpty)) :
    (writtenSection declaration).nonempty? key = value.filter (!·.isEmpty) := by
  rw [Section.nonempty?, first?_writtenSection, found, Option.filter_filter]
  simp

private theorem flag_of_lookup {value : Bool} (found : (pairs declaration).lookup key =
      if value = true then some (writeBool true) else none) :
    (writtenSection declaration).bool key false = value := by
  rw [Section.bool, first?_writtenSection, found]
  cases value
  · rfl
  · exact readBool_writeBool true

private theorem bool_of_lookup {value : Bool} (default : Bool)
    (found : (pairs declaration).lookup key = some (writeBool value)) :
    (writtenSection declaration).bool key default = value := by
  rw [Section.bool, first?_writtenSection, found]
  exact readBool_writeBool value

theorem identity?_writtenSection (declaration : Declaration) :
    (writtenSection declaration).identity? =
      if declaration.identity.name = [] then none else some declaration.identity := by
  have name : (pairs declaration).lookup "name" = some declaration.identity.name := by
    cases declaration <;> rfl
  have package : (pairs declaration).lookup "namespace" = some declaration.identity.package := by
    cases declaration <;> rfl
  simp only [Section.identity?, Section.nonempty?, Section.package, first?_writtenSection, name,
    package]
  by_cases unnamed : declaration.identity.name = [] <;> simp [unnamed, writtenSection]

end

theorem sumType?_writtenSection (declaration : SumType) :
    (writtenSection (.sum declaration)).sumType? =
      if declaration.name = [] then none
      else some { declaration with
        typeParameters := readList (writeList declaration.typeParameters)
        variants := (declaration.variants.map writeVariant).filterMap readVariant?
        rename := declaration.rename.filter (!·.isEmpty)
        conformances := readList (writeList declaration.conformances) } := by
  have typeParameters : (writtenSection (.sum declaration)).list "typeParams" =
      readList (writeList declaration.typeParameters) :=
    list_of_lookup (by simp [pairs, sumPairs, List.lookup_append])
  have conformances : (writtenSection (.sum declaration)).list "conformances" =
      readList (writeList declaration.conformances) :=
    list_of_lookup (by simp [pairs, sumPairs, List.lookup_append])
  have rename : (writtenSection (.sum declaration)).nonempty? "rename" =
      declaration.rename.filter (!·.isEmpty) :=
    nonempty?_of_lookup (by simp [pairs, sumPairs, List.lookup_append])
  have isExhaustive : (writtenSection (.sum declaration)).bool "exhaustive" true =
      declaration.isExhaustive :=
    bool_of_lookup true (by simp [pairs, sumPairs])
  have variants : (writtenSection (.sum declaration)).values "subclass" =
      declaration.variants.map writeVariant := by
    simp [values_writtenSection, pairs, sumPairs, List.filter_map, Function.comp_def]
  rw [Section.sumType?, identity?_writtenSection, typeParameters, conformances, rename,
    isExhaustive, variants]
  by_cases unnamed : declaration.name = [] <;> simp [Declaration.identity, unnamed]

theorem asyncFunction?_writtenSection (declaration : AsyncFunction) :
    (writtenSection (.async declaration)).asyncFunction? =
      if declaration.name = [] then none
      else some { declaration with
        parameters := (declaration.parameters.map writeParameter).filterMap readParameter?
        returnType := if declaration.returnType = [] then unitType else declaration.returnType
        typeParameters := readList (writeList declaration.typeParameters)
        owner := declaration.owner.filter (!·.isEmpty) } := by
  have typeParameters : (writtenSection (.async declaration)).list "typeParams" =
      readList (writeList declaration.typeParameters) :=
    list_of_lookup (by simp [pairs, asyncPairs, List.lookup_append])
  have owner : (writtenSection (.async declaration)).nonempty? "class" =
      declaration.owner.filter (!·.isEmpty) :=
    nonempty?_of_lookup (by simp [pairs, asyncPairs, List.lookup_append])
  have isFailable : (writtenSection (.async declaration)).bool "failable" true =
      declaration.isFailable :=
    bool_of_lookup true (by simp [pairs, asyncPairs])
  have isMarked : (writtenSection (.async declaration)).bool "hasAnnotation" false =
      declaration.isMarked :=
    flag_of_lookup (by simp [pairs, asyncPairs, List.lookup_append])
  have returnType : ((writtenSection (.async declaration)).nonempty? "return").getD unitType =
      if declaration.returnType = [] then unitType else declaration.returnType := by
    have found : (pairs (.async declaration)).lookup "return" = some declaration.returnType := by
      simp [pairs, asyncPairs]
    rw [Section.nonempty?, first?_writtenSection, found]
    by_cases untyped : declaration.returnType = [] <;> simp [untyped, Option.filter]
  have parameters : (writtenSection (.async declaration)).parameters =
      (declaration.parameters.map writeParameter).filterMap readParameter? := by
    simp [Section.parameters, values_writtenSection, pairs, asyncPairs, List.filter_map,
      Function.comp_def]
  rw [Section.asyncFunction?, identity?_writtenSection, typeParameters, owner, isFailable, isMarked,
    returnType, parameters]
  by_cases unnamed : declaration.name = [] <;> simp [Declaration.identity, unnamed]

theorem stream?_writtenSection (declaration : Stream) :
    (writtenSection (.stream declaration)).stream? =
      if declaration.name = [] ∨ declaration.elementType = [] then none
      else some { declaration with
        parameters := (declaration.parameters.map writeParameter).filterMap readParameter?
        owner := declaration.owner.filter (!·.isEmpty) } := by
  have owner : (writtenSection (.stream declaration)).nonempty? "class" =
      declaration.owner.filter (!·.isEmpty) :=
    nonempty?_of_lookup (by simp [pairs, streamPairs, List.lookup_append])
  have isProperty : (writtenSection (.stream declaration)).bool "isProperty" false =
      declaration.isProperty :=
    flag_of_lookup (by simp [pairs, streamPairs, List.lookup_append])
  have isMarked : (writtenSection (.stream declaration)).bool "hasAnnotation" false =
      declaration.isMarked :=
    flag_of_lookup (by simp [pairs, streamPairs, List.lookup_append])
  have elementType : (writtenSection (.stream declaration)).nonempty? "element" =
      if declaration.elementType = [] then none else some declaration.elementType := by
    have found : (pairs (.stream declaration)).lookup "element" = some declaration.elementType := by
      simp [pairs, streamPairs]
    rw [Section.nonempty?, first?_writtenSection, found]
    by_cases untyped : declaration.elementType = [] <;> simp [untyped]
  have parameters : (writtenSection (.stream declaration)).parameters =
      (declaration.parameters.map writeParameter).filterMap readParameter? := by
    simp [Section.parameters, values_writtenSection, pairs, streamPairs, List.filter_map,
      Function.comp_def]
  rw [Section.stream?, identity?_writtenSection, owner, isProperty, isMarked, elementType,
    parameters]
  by_cases unnamed : declaration.name = [] <;> by_cases untyped : declaration.elementType = [] <;>
    simp [Declaration.identity, unnamed, untyped]

end Manifest

/-! Declarations that read back -/

/-- The entries of a list survive being joined, for which it is enough that each is
self-contained. -/
structure IsWritableList (entries : List Text) : Prop where
  nonempty : ∀ entry ∈ entries, entry ≠ []
  separable : Kotlin.IsSeparable entries

structure SumType.Writable (declaration : SumType) : Prop where
  named : declaration.name ≠ []
  typeParameters : IsWritableList declaration.typeParameters
  variants : ∀ variant ∈ declaration.variants, variant.Writable
  rename : declaration.rename ≠ some []
  conformances : IsWritableList declaration.conformances

structure AsyncFunction.Writable (declaration : AsyncFunction) : Prop where
  named : declaration.name ≠ []
  parameters : ∀ parameter ∈ declaration.parameters, parameter.Writable
  returnType : declaration.returnType ≠ []
  typeParameters : IsWritableList declaration.typeParameters
  owner : declaration.owner ≠ some []

structure Stream.Writable (declaration : Stream) : Prop where
  named : declaration.name ≠ []
  elementType : declaration.elementType ≠ []
  parameters : ∀ parameter ∈ declaration.parameters, parameter.Writable
  owner : declaration.owner ≠ some []

/-- No value of the declaration is mistaken for another when it is read. -/
def Declaration.Writable : Declaration → Prop
  | sum declaration => declaration.Writable
  | async declaration => declaration.Writable
  | stream declaration => declaration.Writable

namespace Manifest

theorem readList_writeList_iff {entries : List Text} (plain : ∀ entry ∈ entries, IsPlain entry) :
    readList (writeList entries) = entries ↔ IsWritableList entries := by
  refine Kotlin.splitTopLevel_intercalate_eq_self_iff.trans ⟨?_, ?_⟩
  · rintro ⟨inner, separable⟩
    exact ⟨fun entry member => (inner entry member).2, separable⟩
  · rintro ⟨nonempty, separable⟩
    exact ⟨fun entry member => ⟨(plain entry member).trimmed, nonempty entry member⟩, separable⟩

private theorem filter_nonempty_eq_self_iff {value : Option Text} :
    value.filter (!·.isEmpty) = value ↔ value ≠ some [] := by
  cases value with
  | none => simp
  | some text => cases text <;> simp [Option.filter]

private theorem filterMap_writeParameter_iff {parameters : List Parameter}
    (safe : ∀ parameter ∈ parameters, parameter.LineSafe) :
    (parameters.map writeParameter).filterMap readParameter? = parameters ↔
      ∀ parameter ∈ parameters, parameter.Writable :=
  filterMap_map_eq_self_iff.trans <| forall₂_congr fun parameter member =>
    readParameter?_writeParameter_iff (safe parameter member)

private theorem sumType?_eq_some_iff {declaration : SumType} (safe : declaration.LineSafe) :
    (writtenSection (.sum declaration)).sumType? = some declaration ↔ declaration.Writable := by
  have typeParameters := readList_writeList_iff safe.typeParameters
  have conformances := readList_writeList_iff safe.conformances
  have variants : (declaration.variants.map writeVariant).filterMap readVariant? =
      declaration.variants ↔ ∀ variant ∈ declaration.variants, variant.Writable :=
    filterMap_map_eq_self_iff.trans <| forall₂_congr fun variant member =>
      readVariant?_writeVariant_iff (safe.variants variant member)
  rw [sumType?_writtenSection, Option.ite_none_left_eq_some, Option.some.injEq]
  constructor
  · rintro ⟨named, same⟩
    exact ⟨named, typeParameters.mp (congrArg SumType.typeParameters same),
      variants.mp (congrArg SumType.variants same),
      filter_nonempty_eq_self_iff.mp (congrArg SumType.rename same),
      conformances.mp (congrArg SumType.conformances same)⟩
  · intro writable
    rw [typeParameters.mpr writable.typeParameters, conformances.mpr writable.conformances,
      variants.mpr writable.variants, filter_nonempty_eq_self_iff.mpr writable.rename]
    exact ⟨writable.named, rfl⟩

private theorem asyncFunction?_eq_some_iff {declaration : AsyncFunction}
    (safe : declaration.LineSafe) :
    (writtenSection (.async declaration)).asyncFunction? = some declaration ↔
      declaration.Writable := by
  have typeParameters := readList_writeList_iff safe.typeParameters
  have parameters := filterMap_writeParameter_iff safe.parameters
  have returnType : (if declaration.returnType = [] then unitType else declaration.returnType) =
      declaration.returnType ↔ declaration.returnType ≠ [] := by
    by_cases untyped : declaration.returnType = []
    · simp [untyped, unitType]
    · simp [untyped]
  rw [asyncFunction?_writtenSection, Option.ite_none_left_eq_some, Option.some.injEq]
  constructor
  · rintro ⟨named, same⟩
    exact ⟨named, parameters.mp (congrArg AsyncFunction.parameters same),
      returnType.mp (congrArg AsyncFunction.returnType same),
      typeParameters.mp (congrArg AsyncFunction.typeParameters same),
      filter_nonempty_eq_self_iff.mp (congrArg AsyncFunction.owner same)⟩
  · intro writable
    rw [typeParameters.mpr writable.typeParameters, parameters.mpr writable.parameters,
      returnType.mpr writable.returnType, filter_nonempty_eq_self_iff.mpr writable.owner]
    exact ⟨writable.named, rfl⟩

private theorem stream?_eq_some_iff {declaration : Stream} (safe : declaration.LineSafe) :
    (writtenSection (.stream declaration)).stream? = some declaration ↔ declaration.Writable := by
  have parameters := filterMap_writeParameter_iff safe.parameters
  rw [stream?_writtenSection, Option.ite_none_left_eq_some, Option.some.injEq, not_or]
  constructor
  · rintro ⟨⟨named, typed⟩, same⟩
    exact ⟨named, typed, parameters.mp (congrArg Stream.parameters same),
      filter_nonempty_eq_self_iff.mp (congrArg Stream.owner same)⟩
  · intro writable
    rw [parameters.mpr writable.parameters, filter_nonempty_eq_self_iff.mpr writable.owner]
    exact ⟨⟨writable.named, writable.elementType⟩, rfl⟩

/-- A section that was written gives its declaration back exactly when no value of it is mistaken
for another. -/
theorem declaration?_rawSection_iff {declaration : Declaration} (safe : declaration.LineSafe) :
    (rawSection declaration).declaration? = some declaration ↔ declaration.Writable := by
  rw [RawSection.declaration?, section?_rawSection safe, Option.bind_some]
  cases declaration with
  | sum declaration =>
    change (writtenSection (.sum declaration)).sumType?.map Declaration.sum = _ ↔
      declaration.Writable
    simpa using sumType?_eq_some_iff safe
  | async declaration =>
    change (writtenSection (.async declaration)).asyncFunction?.map Declaration.async = _ ↔
      declaration.Writable
    simpa using asyncFunction?_eq_some_iff safe
  | stream declaration =>
    change (writtenSection (.stream declaration)).stream?.map Declaration.stream = _ ↔
      declaration.Writable
    simpa using stream?_eq_some_iff safe

theorem decode_encode {declarations : List Declaration}
    (safe : ∀ declaration ∈ declarations, declaration.LineSafe) :
    decode (encode declarations) =
      (declarations.map rawSection).filterMap RawSection.declaration? := by
  rw [decode_eq_filterMap, splitSections_encode safe]

/-- The round trip through a manifest. Declarations of any number and kind whose texts keep to their
lines come back as they were, in the same order, exactly when no value is mistaken for another. -/
theorem decode_encode_eq_self_iff {declarations : List Declaration}
    (safe : ∀ declaration ∈ declarations, declaration.LineSafe) :
    decode (encode declarations) = declarations ↔
      ∀ declaration ∈ declarations, declaration.Writable := by
  rw [decode_encode safe, filterMap_map_eq_self_iff]
  exact forall₂_congr fun declaration member =>
    declaration?_rawSection_iff (safe declaration member)

/-- One declaration of every kind with every sort of value. -/
theorem decode_encode_every_kind :
    let enum : SumType :=
      { qualifiedName := "p.Result".toList, name := "Result".toList, package := "p".toList
        typeParameters := ["out T : Map<K, V>".toList, "E".toList]
        variants :=
          [{ name := "Ok".toList
             properties := [⟨"value".toList, "(T, E) -> Unit".toList, false⟩,
               ⟨"next".toList, "T?".toList, true⟩] },
            { name := "Empty".toList, isObject := true }]
        rename := some "Outcome".toList
        conformances := ["Sendable".toList] }
    let function : AsyncFunction :=
      { qualifiedName := "A.load".toList, name := "load".toList, package := []
        parameters := [⟨"ids".toList, "Int".toList, true, none, true⟩,
          ⟨"text".toList, "Map<K, V>".toList, false, some " \"a = b, :\"".toList, false⟩]
        isFailable := false
        owner := some "A".toList }
    let values : Stream :=
      { qualifiedName := "values".toList, name := "values".toList, package := []
        elementType := "List<Int?>".toList, isProperty := true, isMarked := true }
    let declarations : List Declaration := [.sum enum, .async function, .stream values]
    decode (encode declarations) = declarations := by
  intro enum function values declarations
  have enumSafe : enum.LineSafe := by
    refine ⟨by constructor <;> decide, by decide, ?_, by rintro _ ⟨⟩; decide, by decide⟩
    simp only [enum, List.forall_mem_cons]
    refine ⟨⟨by decide, ?_⟩, ⟨by decide, by simp⟩, by simp⟩
    simp only [List.forall_mem_cons]
    exact ⟨⟨by decide, by decide⟩, ⟨by decide, by decide⟩, by simp⟩
  have functionSafe : function.LineSafe := by
    refine ⟨by constructor <;> decide, ?_, by decide, by simp [function], by rintro _ ⟨⟩; decide⟩
    simp only [function, List.forall_mem_cons]
    exact ⟨⟨by decide, by decide, by simp⟩, ⟨by decide, by decide, by rintro _ ⟨⟩; decide⟩, by simp⟩
  have valuesSafe : values.LineSafe :=
    ⟨by constructor <;> decide, by decide, by simp [values], by simp [values]⟩
  have enumWritable : enum.Writable := by
    refine ⟨by decide, ⟨by decide, by decide⟩, ?_, by decide, ⟨by decide, by decide⟩⟩
    simp only [enum, List.forall_mem_cons]
    refine ⟨⟨by decide, by decide, ?_, by decide, by decide, by decide⟩,
      ⟨by decide, by decide, by simp, by simp, by simp, trivial⟩, by simp⟩
    simp only [List.forall_mem_cons]
    exact ⟨⟨by decide, by decide, by decide⟩, ⟨by decide, by decide, by decide⟩, by simp⟩
  have functionWritable : function.Writable := by
    refine ⟨by decide, ?_, by decide, ⟨by decide, by decide⟩, by decide⟩
    simp only [function, List.forall_mem_cons]
    exact ⟨⟨by decide, by decide, by decide, by decide, by decide, by decide⟩,
      ⟨by decide, by decide, by decide, by decide, by decide, by decide⟩, by simp⟩
  have valuesWritable : values.Writable := ⟨by decide, by decide, by simp [values], by decide⟩
  refine (decode_encode_eq_self_iff ?_).mpr ?_ <;> simp only [declarations, List.forall_mem_cons]
  · exact ⟨enumSafe, functionSafe, valuesSafe, by simp⟩
  · exact ⟨enumWritable, functionWritable, valuesWritable, by simp⟩

end Manifest
end DeclBridge
