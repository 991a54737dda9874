import DeclBridge.Manifest.Encode
import DeclBridge.Proofs.ManifestSections
import DeclBridge.Proofs.Readers

/-! Every declaration is written as one section. When its texts are plain, so are the lines of the
section, and splitting a written manifest gives back one section for each declaration. -/

namespace DeclBridge

open Text

/-! Declarations that keep to their lines -/

structure Identity.LineSafe (identity : Identity) : Prop where
  qualifiedName : IsPlain identity.qualifiedName
  qualifiedNamed : identity.qualifiedName ≠ []
  unbracketed : ']' ∉ identity.qualifiedName
  name : IsPlain identity.name
  package : IsPlain identity.package

structure Property.LineSafe (property : Property) : Prop where
  name : IsPlain property.name
  type : IsPlain property.type

structure Variant.LineSafe (variant : Variant) : Prop where
  name : IsPlain variant.name
  properties : ∀ property ∈ variant.properties, property.LineSafe

/-- A default stands behind an equals sign and may start with blanks. -/
structure Parameter.LineSafe (parameter : Parameter) : Prop where
  name : IsPlain parameter.name
  type : IsPlain parameter.type
  default : ∀ value ∈ parameter.default, IsSingleLine value ∧ IsTrimmedEnd value

structure SumType.LineSafe (declaration : SumType) : Prop where
  identity : declaration.toIdentity.LineSafe
  typeParameters : ∀ entry ∈ declaration.typeParameters, IsPlain entry
  variants : ∀ variant ∈ declaration.variants, variant.LineSafe
  rename : ∀ name ∈ declaration.rename, IsPlain name
  conformances : ∀ entry ∈ declaration.conformances, IsPlain entry

structure AsyncFunction.LineSafe (declaration : AsyncFunction) : Prop where
  identity : declaration.toIdentity.LineSafe
  parameters : ∀ parameter ∈ declaration.parameters, parameter.LineSafe
  returnType : IsPlain declaration.returnType
  typeParameters : ∀ entry ∈ declaration.typeParameters, IsPlain entry
  owner : ∀ name ∈ declaration.owner, IsPlain name

structure Stream.LineSafe (declaration : Stream) : Prop where
  identity : declaration.toIdentity.LineSafe
  elementType : IsPlain declaration.elementType
  parameters : ∀ parameter ∈ declaration.parameters, parameter.LineSafe
  owner : ∀ name ∈ declaration.owner, IsPlain name

/-- Every text of the declaration is plain, and its qualified name fits into a header. -/
def Declaration.LineSafe : Declaration → Prop
  | sum declaration => declaration.LineSafe
  | async declaration => declaration.LineSafe
  | stream declaration => declaration.LineSafe

theorem Declaration.LineSafe.identity {declaration : Declaration} (safe : declaration.LineSafe) :
    declaration.identity.LineSafe := by
  cases declaration with
  | sum declaration => exact SumType.LineSafe.identity safe
  | async declaration => exact AsyncFunction.LineSafe.identity safe
  | stream declaration => exact Stream.LineSafe.identity safe

namespace Manifest

/-! Values -/

theorem isPlain_writeBool (value : Bool) : IsPlain (writeBool value) := by
  cases value <;> decide

theorem isPlain_writeType {type : Text} (plain : IsPlain type) (isNullable : Bool) :
    IsPlain (writeType type isNullable) := by
  cases isNullable with
  | false => exact plain
  | true => exact plain.append (isPlain_singleton rfl)

theorem isPlain_writeList {values : List Text} (plain : ∀ value ∈ values, IsPlain value) :
    IsPlain (writeList values) :=
  isPlain_intercalate (isPlain_singleton rfl) plain

theorem isPlain_writeProperty {property : Property} (safe : property.LineSafe) :
    IsPlain (writeProperty property) :=
  safe.name.append ((isPlain_writeType safe.type _).cons rfl)

theorem isPlain_writeVariant {variant : Variant} (safe : variant.LineSafe) :
    IsPlain (writeVariant variant) := by
  have properties : IsPlain (writeList (variant.properties.map writeProperty)) := by
    apply isPlain_writeList
    intro written member
    obtain ⟨property, inside, rfl⟩ := List.mem_map.mp member
    exact isPlain_writeProperty (safe.properties property inside)
  exact (safe.name.append (properties.cons rfl)).append ((isPlain_writeBool _).cons rfl)

theorem isPlain_writeParameter {parameter : Parameter} (safe : parameter.LineSafe) :
    IsPlain (writeParameter parameter) := by
  have default : IsPlain (parameter.default.elim [] ('=' :: ·)) := by
    cases given : parameter.default with
    | none => exact isPlain_nil
    | some value =>
      obtain ⟨single, back⟩ := safe.default value given
      exact isPlain_cons_of_trimmedEnd rfl single back
  have typed : IsPlain (parameter.name ++ ':' :: writeType parameter.type parameter.isNullable) :=
    safe.name.append ((isPlain_writeType safe.type _).cons rfl)
  cases variadic : parameter.isVararg with
  | false =>
    rw [writeParameter, variadic]
    simpa using typed.append default
  | true =>
    have behind : IsPlain (varargMark ++ (parameter.name ++
        ':' :: writeType parameter.type parameter.isNullable)) := by
      refine isPlain_cons_of_trimmedEnd rfl ?_ (typed.trimmed.trimmedEnd.append_left (by simp) _)
      exact isSingleLine_append.mpr ⟨by decide, typed.singleLine⟩
    rw [writeParameter, variadic]
    simpa using behind.append default

/-! Entries -/

def optionalPair (key : String) (value : Text) : List (String × Text) :=
  if value.isEmpty then [] else [(key, value)]

def listPair (key : String) (values : List Text) : List (String × Text) :=
  if values.isEmpty then [] else [(key, writeList values)]

def flagPair (key : String) (value : Bool) : List (String × Text) :=
  if value then [(key, writeBool true)] else []

def sumPairs (declaration : SumType) : List (String × Text) :=
  [("name", declaration.name), ("namespace", declaration.package),
    ("exhaustive", writeBool declaration.isExhaustive)] ++
  optionalPair "rename" (declaration.rename.getD []) ++
  listPair "typeParams" declaration.typeParameters ++
  listPair "conformances" declaration.conformances ++
  declaration.variants.map (("subclass", writeVariant ·))

def asyncPairs (declaration : AsyncFunction) : List (String × Text) :=
  [("name", declaration.name), ("namespace", declaration.package),
    ("failable", writeBool declaration.isFailable), ("return", declaration.returnType)] ++
  optionalPair "class" (declaration.owner.getD []) ++
  flagPair "hasAnnotation" declaration.isMarked ++
  listPair "typeParams" declaration.typeParameters ++
  declaration.parameters.map (("param", writeParameter ·))

def streamPairs (declaration : Stream) : List (String × Text) :=
  [("name", declaration.name), ("namespace", declaration.package),
    ("element", declaration.elementType)] ++
  optionalPair "class" (declaration.owner.getD []) ++
  flagPair "isProperty" declaration.isProperty ++
  flagPair "hasAnnotation" declaration.isMarked ++
  declaration.parameters.map (("param", writeParameter ·))

/-- The lines of a section before keys and values are joined. -/
def pairs : Declaration → List (String × Text)
  | .sum declaration => sumPairs declaration
  | .async declaration => asyncPairs declaration
  | .stream declaration => streamPairs declaration

private theorem map_optionalPair (key : String) (value : Text) :
    (optionalPair key value).map (fun pair => entry pair.1 pair.2) = optionalEntry key value := by
  unfold optionalPair optionalEntry
  split <;> rfl

private theorem map_listPair (key : String) (values : List Text) :
    (listPair key values).map (fun pair => entry pair.1 pair.2) = listEntry key values := by
  unfold listPair listEntry
  split <;> rfl

private theorem map_flagPair (key : String) (value : Bool) :
    (flagPair key value).map (fun pair => entry pair.1 pair.2) = flagEntry key value := by
  unfold flagPair flagEntry
  split <;> rfl

theorem entryLines_eq_map (declaration : Declaration) :
    entryLines declaration = (pairs declaration).map fun pair => entry pair.1 pair.2 := by
  cases declaration with
  | sum declaration =>
    simp [entryLines, sumLines, pairs, sumPairs, map_optionalPair, map_listPair]
  | async declaration =>
    simp [entryLines, asyncLines, pairs, asyncPairs, map_optionalPair, map_listPair, map_flagPair]
  | stream declaration =>
    simp [entryLines, streamLines, pairs, streamPairs, map_optionalPair, map_flagPair]

/-- A key and a value that one line can hold. -/
structure IsPair (pair : String × Text) : Prop where
  key : IsWord pair.1.toList
  value : IsPlain pair.2

namespace IsPair

theorem of_word {key : String} {value : Text} (word : IsWord key.toList) (plain : IsPlain value) :
    IsPair (key, value) :=
  ⟨word, plain⟩

theorem optionalPair {key : String} (word : IsWord key.toList) {value : Option Text}
    (plain : ∀ text ∈ value, IsPlain text) :
    ∀ pair ∈ optionalPair key (value.getD []), IsPair pair := by
  intro pair member
  cases value with
  | none => cases member
  | some text =>
    rw [Manifest.optionalPair] at member
    split at member
    · cases member
    · rw [List.mem_singleton.mp member]
      exact ⟨word, plain text rfl⟩

theorem listPair {key : String} (word : IsWord key.toList) {values : List Text}
    (plain : ∀ value ∈ values, IsPlain value) : ∀ pair ∈ listPair key values, IsPair pair := by
  intro pair member
  rw [Manifest.listPair] at member
  split at member
  · cases member
  · rw [List.mem_singleton.mp member]
    exact ⟨word, isPlain_writeList plain⟩

theorem flagPair {key : String} (word : IsWord key.toList) (value : Bool) :
    ∀ pair ∈ flagPair key value, IsPair pair := by
  intro pair member
  cases value with
  | false => cases member
  | true =>
    rw [List.mem_singleton.mp member]
    exact ⟨word, isPlain_writeBool true⟩

theorem map {key : String} (word : IsWord key.toList) {items : List α} {write : α → Text}
    (plain : ∀ item ∈ items, IsPlain (write item)) :
    ∀ pair ∈ items.map ((key, write ·)), IsPair pair := by
  intro pair member
  obtain ⟨item, inside, rfl⟩ := List.mem_map.mp member
  exact ⟨word, plain item inside⟩

end IsPair

private theorem isPair_of_mem_sumPairs {declaration : SumType} (safe : declaration.LineSafe) :
    ∀ pair ∈ sumPairs declaration, IsPair pair := by
  simp only [sumPairs, List.forall_mem_append]
  refine ⟨⟨⟨⟨?_, .optionalPair (by decide) safe.rename⟩, .listPair (by decide) safe.typeParameters⟩,
    .listPair (by decide) safe.conformances⟩,
    .map (by decide) fun variant member => isPlain_writeVariant (safe.variants variant member)⟩
  simp only [List.forall_mem_cons]
  exact ⟨.of_word (by decide) safe.identity.name, .of_word (by decide) safe.identity.package,
    .of_word (by decide) (isPlain_writeBool _), by simp⟩

private theorem isPair_of_mem_asyncPairs {declaration : AsyncFunction}
    (safe : declaration.LineSafe) : ∀ pair ∈ asyncPairs declaration, IsPair pair := by
  simp only [asyncPairs, List.forall_mem_append]
  refine ⟨⟨⟨⟨?_, .optionalPair (by decide) safe.owner⟩, .flagPair (by decide) _⟩,
    .listPair (by decide) safe.typeParameters⟩,
    .map (by decide) fun parameter member =>
      isPlain_writeParameter (safe.parameters parameter member)⟩
  simp only [List.forall_mem_cons]
  exact ⟨.of_word (by decide) safe.identity.name, .of_word (by decide) safe.identity.package,
    .of_word (by decide) (isPlain_writeBool _), .of_word (by decide) safe.returnType, by simp⟩

private theorem isPair_of_mem_streamPairs {declaration : Stream} (safe : declaration.LineSafe) :
    ∀ pair ∈ streamPairs declaration, IsPair pair := by
  simp only [streamPairs, List.forall_mem_append]
  refine ⟨⟨⟨⟨?_, .optionalPair (by decide) safe.owner⟩, .flagPair (by decide) _⟩,
    .flagPair (by decide) _⟩,
    .map (by decide) fun parameter member =>
      isPlain_writeParameter (safe.parameters parameter member)⟩
  simp only [List.forall_mem_cons]
  exact ⟨.of_word (by decide) safe.identity.name, .of_word (by decide) safe.identity.package,
    .of_word (by decide) safe.elementType, by simp⟩

theorem isPair_of_mem_pairs {declaration : Declaration} (safe : declaration.LineSafe) :
    ∀ pair ∈ pairs declaration, IsPair pair := by
  cases declaration with
  | sum declaration => exact isPair_of_mem_sumPairs safe
  | async declaration => exact isPair_of_mem_asyncPairs safe
  | stream declaration => exact isPair_of_mem_streamPairs safe

/-! Lines -/

section
variable {key : String} (word : IsWord key.toList) (value : Text)
include word

theorem exists_entry : ∃ c rest, entry key value = c :: rest ∧ isWordChar c = true := by
  obtain ⟨nonempty, inside⟩ := word
  cases same : key.toList with
  | nil => exact absurd same nonempty
  | cons c rest => exact ⟨c, rest ++ '=' :: value, by simp [entry, same], inside c (by simp [same])⟩

theorem isIgnored_entry : isIgnored (entry key value) = false := by
  obtain ⟨c, rest, same, inside⟩ := exists_entry word value
  have uncommented : c ≠ '#' := by
    rintro rfl
    exact absurd inside (by decide)
  simp [same, isIgnored, uncommented]

theorem readHeader?_entry : readHeader? (entry key value) = none := by
  obtain ⟨c, rest, same, inside⟩ := exists_entry word value
  have unopened : literal? "[" (c :: rest) = none := by
    have differs : '[' ≠ c := by
      rintro rfl
      exact absurd inside (by decide)
    simp [literal?, behind?, differs]
  simp [same, readHeader?, unopened]

theorem readEntry?_entry : readEntry? (entry key value) = some (key.toList, trim value) := by
  have unblank : isBlankText key.toList = false := by
    obtain ⟨nonempty, inside⟩ := word
    obtain ⟨c, member⟩ := List.exists_mem_of_ne_nil _ nonempty
    exact List.all_eq_false.mpr ⟨c, member, by simp [isBlank_of_isWordChar (inside c member)]⟩
  have trimmed : trim key.toList = key.toList := word.isPlain.trimmed
  have apart : '=' ∉ key.toList := word.not_mem (by decide)
  simp [entry, readEntry?, cut_append apart, unblank, trimmed]

end

theorem isKept_entry {pair : String × Text} (safe : IsPair pair) :
    IsKept (entry pair.1 pair.2) :=
  ⟨safe.key.isPlain.append (safe.value.cons rfl), isIgnored_entry safe.key pair.2⟩

theorem isWord_tag (kind : Kind) : IsWord kind.tag := by
  cases kind <;> decide

section
variable {qualifiedName : Text} (plain : IsPlain qualifiedName) (kind : Kind)
include plain

theorem readHeader?_header (nonempty : qualifiedName ≠ []) (unbracketed : ']' ∉ qualifiedName) :
    readHeader? (SectionKey.header ⟨kind.tag, qualifiedName⟩) =
      some ⟨kind.tag, qualifiedName⟩ := by
  have tagged (rest : Text) : word? (kind.tag ++ ':' :: rest) = some (kind.tag, ':' :: rest) :=
    run?_append (isWord_tag kind).nonempty (isWord_tag kind).wordChars (by simp; decide)
  have named : run? (· ≠ ']') (qualifiedName ++ [']']) = some (qualifiedName, [']']) := by
    refine run?_append nonempty (fun c inside => ?_) (by simp)
    simpa using fun same : c = ']' => unbracketed (same ▸ inside)
  have trimmed : trim qualifiedName = qualifiedName := plain.trimmed
  have opened := literal?_append "[" (kind.tag ++ ':' :: (qualifiedName ++ [']']))
  have marked := literal?_append ":" (qualifiedName ++ [']'])
  simp only [String.reduceToList, List.cons_append, List.nil_append] at opened marked
  simp only [readHeader?, SectionKey.header, List.append_assoc, List.cons_append, opened, tagged,
    marked, named, trimmed, Option.bind_eq_bind, Option.bind_some, if_true]

theorem isKept_header : IsKept (SectionKey.header ⟨kind.tag, qualifiedName⟩) := by
  have inner : IsPlain (kind.tag ++ ':' :: (qualifiedName ++ [']'])) :=
    (isWord_tag kind).isPlain.append ((plain.append (isPlain_singleton rfl)).cons rfl)
  refine ⟨?_, by simp [SectionKey.header, isIgnored]⟩
  simpa [SectionKey.header] using inner.cons (c := '[') rfl

end

/-! Sections -/

def rawSection (declaration : Declaration) : RawSection :=
  ⟨sectionKey declaration, sectionLines declaration⟩

theorem isKept_of_mem_sectionLines {declaration : Declaration} (safe : declaration.LineSafe) :
    ∀ line ∈ sectionLines declaration, IsKept line := by
  rw [sectionLines, entryLines_eq_map, List.forall_mem_cons]
  refine ⟨isKept_header safe.identity.qualifiedName _, fun line member => ?_⟩
  obtain ⟨pair, inside, rfl⟩ := List.mem_map.mp member
  exact isKept_entry (isPair_of_mem_pairs safe pair inside)

theorem wellFormed_rawSection {declaration : Declaration} (safe : declaration.LineSafe) :
    (rawSection declaration).WellFormed := by
  obtain ⟨qualifiedName, nonempty, unbracketed, -⟩ := safe.identity
  apply RawSection.WellFormed.intro (readHeader?_header qualifiedName _ nonempty unbracketed)
  intro line member
  rw [entryLines_eq_map] at member
  obtain ⟨pair, inside, rfl⟩ := List.mem_map.mp member
  exact readHeader?_entry (isPair_of_mem_pairs safe pair inside).key pair.2

/-- Nothing of a written manifest is lost or added when it is split. -/
theorem splitSections_encode {declarations : List Declaration}
    (safe : ∀ declaration ∈ declarations, declaration.LineSafe) :
    splitSections (encode declarations) = declarations.map rawSection := by
  have parts : declarations.map sectionLines = (declarations.map rawSection).map (·.lines) := by
    simp [rawSection, Function.comp_def]
  rw [encode, parts]
  refine splitSections_ofSections (fun part member => ?_) (fun part member => ?_)
  · obtain ⟨declaration, inside, rfl⟩ := List.mem_map.mp member
    exact wellFormed_rawSection (safe declaration inside)
  · obtain ⟨declaration, inside, rfl⟩ := List.mem_map.mp member
    exact isKept_of_mem_sectionLines (safe declaration inside)

def writtenSection (declaration : Declaration) : Section :=
  { kind := declaration.kind
    qualifiedName := declaration.identity.qualifiedName
    entries := (pairs declaration).map fun pair => (pair.1.toList, pair.2) }

/-- Reading a written section finds its entries as they were before they were joined. -/
theorem section?_rawSection {declaration : Declaration} (safe : declaration.LineSafe) :
    (rawSection declaration).section? = some (writtenSection declaration) := by
  have read : (entryLines declaration).filterMap readEntry? =
      (pairs declaration).map fun pair => (pair.1.toList, pair.2) := by
    rw [entryLines_eq_map, List.filterMap_map, ← List.filterMap_eq_map]
    refine List.filterMap_congr fun pair member => ?_
    obtain ⟨key, value⟩ := isPair_of_mem_pairs safe pair member
    have trimmed : trim pair.2 = pair.2 := value.trimmed
    simpa [trimmed] using readEntry?_entry key pair.2
  simp [RawSection.section?, rawSection, sectionLines, SectionKey.open?, sectionKey,
    Kind.ofTag?_tag, read, writtenSection]

end Manifest
end DeclBridge
