import DeclBridge.Proofs.ListSplitting
import DeclBridge.Proofs.ManifestEncoding
import Mathlib.Data.List.Forall2

/-! The values of manifest entries in both directions: what reading answers with always satisfies
the conditions under which a value is read back as it was written. -/

namespace DeclBridge

open Text

/-- Only the flag says that a type admits null. -/
def IsMarkedByFlag (type : Text) (isNullable : Bool) : Prop :=
  isNullable = false → type.getLast? ≠ some '?'

instance (type : Text) (isNullable : Bool) : Decidable (IsMarkedByFlag type isNullable) :=
  inferInstanceAs (Decidable (_ → _))

structure Parameter.Writable (parameter : Parameter) : Prop where
  named : parameter.name ≠ []
  undivided : ':' ∉ parameter.name
  unvaried : parameter.isVararg = false → ¬Manifest.varargMark <+: parameter.name
  typed : parameter.type ≠ []
  unassigned : '=' ∉ parameter.type
  marked : IsMarkedByFlag parameter.type parameter.isNullable

structure Property.Writable (property : Property) : Prop where
  named : property.name ≠ []
  undivided : ':' ∉ property.name
  marked : IsMarkedByFlag property.type property.isNullable

/-- The written properties have to survive being joined, for which it is enough that each is
self-contained. -/
structure Variant.Writable (variant : Variant) : Prop where
  named : variant.name ≠ []
  unbarred : '|' ∉ variant.name
  properties : ∀ property ∈ variant.properties, property.Writable
  unbarredNames : ∀ property ∈ variant.properties, '|' ∉ property.name
  unbarredTypes : ∀ property ∈ variant.properties, '|' ∉ property.type
  separable : Kotlin.IsSeparable (variant.properties.map Manifest.writeProperty)

namespace Manifest

/-! Types -/

theorem readBool_writeBool (value : Bool) : readBool (writeBool value) = value := by
  cases value <;> decide

theorem readType_writeType {type : Text} {isNullable : Bool} (trimmed : IsTrimmed type)
    (marked : IsMarkedByFlag type isNullable) :
    readType (writeType type isNullable) = (type, isNullable) := by
  have whole : trim type = type := trimmed
  cases isNullable with
  | false => simp [readType, writeType, whole, marked rfl]
  | true =>
    have appended : trim (type ++ ['?']) = type ++ ['?'] :=
      trimmed.append (isPlain_singleton rfl).trimmed
    simp [readType, writeType, appended, whole]

theorem isMarkedByFlag_readType (text : Text) :
    IsMarkedByFlag (readType text).1 (readType text).2 := by
  unfold readType
  dsimp only
  split
  · intro marked
    cases marked
  · next unmarked => exact fun _ => unmarked

theorem readType_subset (text : Text) : (readType text).1 ⊆ text := by
  unfold readType
  dsimp only
  split
  · have inner := List.Subset.trans (trim_subset _) (List.dropLast_subset (trim text))
    exact List.Subset.trans inner (trim_subset text)
  · exact trim_subset text

/-! Parameters -/

/-- The reading without its intermediate pairs. -/
theorem readParameter?_eq (text : Text) :
    readParameter? text =
      (cut ':' ((behind? varargMark text).getD text)).bind fun (name, rest) =>
        let (type, isNullable) := readType (((cut '=' rest).map (·.1)).getD rest)
        if isBlankText name || type.isEmpty then none
        else some ⟨trim name, type, isNullable, (cut '=' rest).map (·.2),
          (behind? varargMark text).isSome⟩ := by
  unfold readParameter?
  cases behind? varargMark text <;>
  · refine congrArg (Option.bind _) (funext fun parts => ?_)
    obtain ⟨name, rest⟩ := parts
    dsimp only
    cases cut '=' rest <;> rfl

/-- What stands behind the colon. -/
private def typedPart (parameter : Parameter) : Text :=
  writeType parameter.type parameter.isNullable ++ parameter.default.elim [] ('=' :: ·)

private theorem writeParameter_eq (parameter : Parameter) :
    writeParameter parameter = (if parameter.isVararg then varargMark else []) ++
      (parameter.name ++ ':' :: typedPart parameter) := by
  simp [writeParameter, typedPart]

/-- The mark is read when it was written, and not in a name. -/
private theorem behind?_writeParameter {parameter : Parameter}
    (unvaried : parameter.isVararg = false → ¬varargMark <+: parameter.name) :
    behind? varargMark (writeParameter parameter) =
      if parameter.isVararg then some (parameter.name ++ ':' :: typedPart parameter) else none := by
  rw [writeParameter_eq]
  cases variadic : parameter.isVararg with
  | true => exact behind?_eq_some_iff.mpr rfl
  | false =>
    apply Option.eq_none_iff_forall_ne_some.mpr
    intro rest found
    have start : varargMark <+: parameter.name ++ ':' :: typedPart parameter :=
      ⟨rest, (behind?_eq_some_iff.mp found).symm⟩
    apply unvaried variadic
    apply List.prefix_of_prefix_length_le start (List.prefix_append _ _)
    -- A longer mark would contain the colon.
    by_contra shorter
    have inside : parameter.name ++ [':'] <+: varargMark := by
      refine List.prefix_of_prefix_length_le ⟨typedPart parameter, by simp⟩ start ?_
      simp only [List.length_append, List.length_singleton]
      omega
    have colon : ':' ∈ varargMark := inside.subset (by simp)
    exact absurd colon (by decide)

private theorem cut_typedPart {parameter : Parameter} (unassigned : '=' ∉ parameter.type) :
    ((cut '=' (typedPart parameter)).map (·.1)).getD (typedPart parameter) =
        writeType parameter.type parameter.isNullable ∧
      (cut '=' (typedPart parameter)).map (·.2) = parameter.default := by
  have absent : '=' ∉ writeType parameter.type parameter.isNullable := by
    cases nullable : parameter.isNullable <;> simp [writeType, unassigned]
  cases given : parameter.default with
  | none => simp [typedPart, given, cut_eq_none absent]
  | some value => simp [typedPart, given, cut_append absent]

theorem readParameter?_writeParameter {parameter : Parameter} (safe : parameter.LineSafe)
    (writable : parameter.Writable) :
    readParameter? (writeParameter parameter) = some parameter := by
  have name : trim parameter.name = parameter.name := safe.name.trimmed
  have inked := safe.name.trimmed.isBlankText_eq_false writable.named
  have type := readType_writeType safe.type.trimmed writable.marked
  obtain ⟨before, default⟩ := cut_typedPart writable.unassigned
  have unmarked : (behind? varargMark (writeParameter parameter)).getD (writeParameter parameter) =
      parameter.name ++ ':' :: typedPart parameter := by
    rw [behind?_writeParameter writable.unvaried, writeParameter_eq]
    cases parameter.isVararg <;> rfl
  have variadic : (behind? varargMark (writeParameter parameter)).isSome = parameter.isVararg := by
    rw [behind?_writeParameter writable.unvaried]
    cases parameter.isVararg <;> rfl
  rw [readParameter?_eq, unmarked, cut_append writable.undivided, Option.bind_some, variadic]
  simp [before, default, type, inked, writable.typed, name]

/-- Whatever is read as a parameter has a name and a type that keep clear of the marks. -/
theorem of_readParameter? {text : Text} {parameter : Parameter}
    (read : readParameter? text = some parameter) :
    parameter.name ≠ [] ∧ ':' ∉ parameter.name ∧ parameter.type ≠ [] ∧ '=' ∉ parameter.type ∧
      IsMarkedByFlag parameter.type parameter.isNullable ∧
      parameter.isVararg = (behind? varargMark text).isSome ∧
      ∀ value ∈ parameter.default, value ⊆ text := by
  have behind : (behind? varargMark text).getD text ⊆ text := by
    cases found : behind? varargMark text with
    | none => exact List.Subset.refl text
    | some rest =>
      rw [behind?_eq_some_iff.mp found]
      exact List.subset_append_right _ _
  rw [readParameter?_eq] at read
  obtain ⟨⟨name, rest⟩, divided, read⟩ := Option.bind_eq_some_iff.mp read
  obtain ⟨whole, undivided⟩ := of_cut_eq_some divided
  simp only [Option.ite_none_left_eq_some, Option.some.injEq, Bool.or_eq_true, not_or,
    Bool.not_eq_true, List.isEmpty_eq_false_iff] at read
  obtain ⟨⟨inked, typed⟩, rfl⟩ := read
  refine ⟨trim_ne_nil inked, fun inside => undivided (trim_subset name inside), typed, ?_,
    isMarkedByFlag_readType _, rfl, ?_⟩
  · intro inside
    have inType := readType_subset _ inside
    cases assigned : cut '=' rest with
    | none =>
      rw [assigned] at inType
      exact not_mem_of_cut_eq_none assigned inType
    | some parts =>
      rw [assigned] at inType
      exact (of_cut_eq_some assigned).2 inType
  · intro value given c inside
    obtain ⟨⟨type, value⟩, assigned, rfl⟩ := Option.map_eq_some_iff.mp given
    apply behind
    simp [whole, (of_cut_eq_some assigned).1, inside]

/-- A parameter reads back exactly when its name and type keep clear of the marks. -/
theorem readParameter?_writeParameter_iff {parameter : Parameter} (safe : parameter.LineSafe) :
    readParameter? (writeParameter parameter) = some parameter ↔ parameter.Writable := by
  refine ⟨fun read => ?_, readParameter?_writeParameter safe⟩
  obtain ⟨named, undivided, typed, unassigned, marked, variadic, -⟩ := of_readParameter? read
  refine ⟨named, undivided, fun single start => ?_, typed, unassigned, marked⟩
  obtain ⟨rest, same⟩ := start
  have found : behind? varargMark (writeParameter parameter) =
      some (rest ++ ':' :: typedPart parameter) := by
    rw [behind?_eq_some_iff, writeParameter_eq, single, ← same]
    simp
  rw [found, single] at variadic
  cases variadic

/-! Properties -/

theorem readProperty?_writeProperty {property : Property} (safe : property.LineSafe)
    (writable : property.Writable) :
    readProperty? (writeProperty property) = some property := by
  have name : trim property.name = property.name := safe.name.trimmed
  have inked := safe.name.trimmed.isBlankText_eq_false writable.named
  have type := readType_writeType safe.type.trimmed writable.marked
  simp [readProperty?, writeProperty, cut_append writable.undivided, name, inked, type]

/-- The characters that are not blank. Reading and writing again keeps their number. -/
def inks (text : Text) : Nat :=
  text.countP (!isBlank ·)

@[simp]
theorem inks_append (first second : Text) : inks (first ++ second) = inks first + inks second :=
  List.countP_append

theorem inks_cons {c : Char} (ink : isBlank c = false) (text : Text) :
    inks (c :: text) = inks text + 1 :=
  List.countP_cons_of_pos (by simp [ink])

@[simp]
theorem inks_trim (text : Text) : inks (trim text) = inks text := by
  obtain ⟨front, back, whole, frontBlank, backBlank⟩ := exists_trim text
  have front : inks front = 0 := List.countP_eq_zero.mpr (by simpa using frontBlank)
  have back : inks back = 0 := List.countP_eq_zero.mpr (by simpa using backBlank)
  conv_rhs => rw [whole]
  simp [front, back]

theorem inks_writeType_readType (text : Text) :
    inks (writeType (readType text).1 (readType text).2) = inks text := by
  unfold readType
  dsimp only
  split
  · next marked =>
    obtain ⟨front, same⟩ := List.getLast?_eq_some_iff.mp marked
    have whole : inks (trim text) = inks front + 1 := by
      rw [same, inks_append]
      rfl
    rw [inks_trim] at whole
    simp only [writeType, if_true, same, List.dropLast_concat, inks_append, inks_trim, whole]
    rfl
  · exact inks_trim text

theorem of_readProperty? {text : Text} {property : Property}
    (read : readProperty? text = some property) :
    property.Writable ∧ property.name ⊆ text ∧ property.type ⊆ text ∧
      inks (writeProperty property) = inks text := by
  simp only [readProperty?, Option.bind_eq_bind, Option.bind_eq_some_iff, Prod.exists,
    Option.ite_none_left_eq_some, Option.some.injEq] at read
  obtain ⟨name, type, divided, inked, rfl⟩ := read
  obtain ⟨rfl, undivided⟩ := of_cut_eq_some divided
  refine ⟨⟨trim_ne_nil (by simpa using inked), fun inside => undivided (trim_subset name inside),
    isMarkedByFlag_readType type⟩, ?_, ?_, ?_⟩
  · exact List.Subset.trans (trim_subset name) (List.subset_append_left _ _)
  · have behind : type ⊆ name ++ ':' :: type :=
      List.Subset.trans (List.subset_cons_self _ _) (List.subset_append_right _ _)
    exact List.Subset.trans (readType_subset type) behind
  · have colon (rest : Text) : inks (':' :: rest) = inks rest + 1 := inks_cons rfl rest
    simp [writeProperty, colon, inks_writeType_readType]

/-! Lists of properties -/

/-- Every part counts for its characters and for the comma behind it. -/
private def weight : List Text → Nat
  | [] => 0
  | part :: parts => inks part + 1 + weight parts

private theorem weight_eq {parts : List Text} (nonempty : parts ≠ []) :
    weight parts = inks ([','].intercalate parts) + 1 := by
  induction parts with
  | nil => exact absurd rfl nonempty
  | cons part parts ih =>
    cases parts with
    | nil => simp [weight]
    | cons next more =>
      have rest := ih (by simp)
      have comma : inks [','] = 1 := rfl
      rw [List.intercalate_cons_cons, inks_append, inks_append, comma, Nat.add_assoc, ← rest]
      rfl

/-- Parts with as many characters each cannot be told apart once they are joined. -/
private theorem eq_of_inks_eq {parts others : List Text}
    (same : List.Forall₂ (fun part other => inks part = inks other) parts others)
    (joined : [','].intercalate parts = [','].intercalate others) : parts = others := by
  induction same with
  | nil => rfl
  | @cons part other parts others first rest ih =>
    cases rest with
    | nil => simpa using joined
    | @cons next nextOther more moreOthers =>
      simp only [List.intercalate_cons_cons, List.append_assoc, List.singleton_append] at joined
      -- If one part went on where the other ends, it would have the comma in addition.
      have aligned : part = other := by
        rcases List.append_eq_append_iff.mp joined with ⟨more, rfl, tails⟩ | ⟨more, rfl, tails⟩
        · cases more with
          | nil => simp
          | cons c more =>
            obtain ⟨rfl, -⟩ := List.cons.inj tails
            rw [inks_append, inks_cons rfl] at first
            omega
        · cases more with
          | nil => simp
          | cons c more =>
            obtain ⟨rfl, -⟩ := List.cons.inj tails
            rw [inks_append, inks_cons rfl] at first
            omega
      subst aligned
      have behind := List.cons.inj (List.append_cancel_left joined)
      rw [ih behind.2]

/-- A reader that keeps the characters loses weight exactly when it refuses a part. -/
private theorem weight_filterMap {read : Text → Option α} {write : α → Text}
    (keeps : ∀ {part item}, read part = some item → inks (write item) = inks part)
    (parts : List Text) :
    weight ((parts.filterMap read).map write) ≤ weight parts ∧
      (weight parts ≤ weight ((parts.filterMap read).map write) →
        List.Forall₂ (fun part item => read part = some item) parts (parts.filterMap read)) := by
  induction parts with
  | nil => simp
  | cons part parts ih =>
    obtain ⟨bound, exact⟩ := ih
    cases found : read part with
    | none =>
      rw [List.filterMap_cons_none found]
      have lighter : weight parts < weight (part :: parts) := by simp [weight]
      exact ⟨by omega, fun heavy => by omega⟩
    | some item =>
      have added : weight ((item :: parts.filterMap read).map write) =
          inks part + 1 + weight ((parts.filterMap read).map write) := by
        simp [weight, keeps found]
      have whole : weight (part :: parts) = inks part + 1 + weight parts := by simp [weight]
      rw [List.filterMap_cons_some found, added, whole]
      exact ⟨by omega, fun heavy => .cons found (exact (by omega))⟩

/-- If all properties are found again in what was written, they were cut where they were joined. -/
theorem isSeparable_map_writeProperty {properties : List Property}
    (read : (readList (writeList (properties.map writeProperty))).filterMap readProperty? =
      properties) : Kotlin.IsSeparable (properties.map writeProperty) := by
  by_cases nonempty : properties = []
  · simp [nonempty, Kotlin.IsSeparable]
  let written := properties.map writeProperty
  let pieces := Kotlin.Nesting.start.pieces ([','].intercalate written)
  obtain ⟨separable, joined⟩ := Kotlin.isSeparable_pieces ([','].intercalate written)
  have found : pieces.filterMap (fun piece => readProperty? (trim piece)) = properties := by
    rw [← read]
    change _ = ((pieces.map trim).filter (!·.isEmpty)).filterMap readProperty?
    rw [List.filterMap_filter, List.filterMap_map]
    apply List.filterMap_congr
    intro piece _
    cases empty : trim piece <;> simp [empty, readProperty?, cut]
  have keeps {piece : Text} {property : Property}
      (read : readProperty? (trim piece) = some property) :
      inks (writeProperty property) = inks piece := by
    rw [(of_readProperty? read).2.2.2, inks_trim]
  have heavy : weight pieces ≤ weight written := by
    rw [weight_eq (Kotlin.Nesting.pieces_ne_nil _ _), weight_eq (by simpa [written] using nonempty),
      joined]
  have paired := (weight_filterMap keeps pieces).2 (by rwa [found])
  rw [found] at paired
  have same : pieces = written := by
    refine eq_of_inks_eq ?_ joined
    rw [List.forall₂_map_right_iff]
    exact paired.imp fun piece property read => (keeps read).symm
  change Kotlin.IsSeparable written
  rw [← same]
  exact separable

/-! Variants -/

private theorem splitOn_writeVariant {variant : Variant} (unbarred : '|' ∉ variant.name)
    (names : ∀ property ∈ variant.properties, '|' ∉ property.name)
    (types : ∀ property ∈ variant.properties, '|' ∉ property.type) :
    (writeVariant variant).splitOn '|' =
      [variant.name, writeList (variant.properties.map writeProperty),
        writeBool variant.isObject] := by
  have properties : '|' ∉ writeList (variant.properties.map writeProperty) := by
    intro inside
    rcases mem_intercalate inside with inside | ⟨written, member, inside⟩
    · exact absurd inside (by decide)
    · obtain ⟨property, present, rfl⟩ := List.mem_map.mp member
      have name := names property present
      have type := types property present
      cases nullable : property.isNullable <;>
        simp [writeProperty, writeType, nullable, name, type] at inside
  have flag : '|' ∉ writeBool variant.isObject := by
    cases variant.isObject <;> decide
  have written : writeVariant variant = ['|'].intercalate
      [variant.name, writeList (variant.properties.map writeProperty),
        writeBool variant.isObject] := by
    simp [writeVariant, List.intercalate_cons_cons]
  rw [written]
  exact List.splitOn_intercalate '|' (by simp [unbarred, properties, flag]) (by simp)

theorem of_readVariant? {text : Text} {variant : Variant}
    (read : readVariant? text = some variant) :
    variant.name ≠ [] ∧ '|' ∉ variant.name ∧ ∀ property ∈ variant.properties,
      property.Writable ∧ '|' ∉ property.name ∧ '|' ∉ property.type := by
  unfold readVariant? at read
  split at read
  · next name properties isObject more fields =>
    rw [Option.ite_none_left_eq_some] at read
    obtain ⟨inked, same⟩ := read
    cases same
    have unbarred {field : Text} (member : field ∈ text.splitOn '|') : '|' ∉ field :=
      not_mem_of_mem_splitOn member
    rw [fields] at unbarred
    refine ⟨trim_ne_nil (by simpa using inked), fun inside => ?_, fun property member => ?_⟩
    · exact unbarred List.mem_cons_self (trim_subset name inside)
    · obtain ⟨entry, found, read⟩ := List.mem_filterMap.mp member
      obtain ⟨writable, nameInside, typeInside, -⟩ := of_readProperty? read
      have inside := Kotlin.subset_of_mem_splitTopLevel found
      have absent : '|' ∉ properties := unbarred (by simp)
      exact ⟨writable, fun bar => absent (inside (nameInside bar)),
        fun bar => absent (inside (typeInside bar))⟩
  · cases read

/-- The items that are found again when they are written and read one by one. -/
theorem filterMap_map_eq_self_iff {write : α → β} {read : β → Option α} {items : List α} :
    (items.map write).filterMap read = items ↔ ∀ item ∈ items, read (write item) = some item := by
  constructor
  · intro same
    induction items with
    | nil => simp
    | cons item items ih =>
      have bound := List.length_filterMap_le read (items.map write)
      rw [List.length_map] at bound
      cases found : read (write item) with
      | none =>
        rw [List.map_cons, List.filterMap_cons_none found] at same
        rw [same, List.length_cons] at bound
        omega
      | some other =>
        rw [List.map_cons, List.filterMap_cons_some found] at same
        obtain ⟨rfl, rest⟩ := List.cons.inj same
        exact List.forall_mem_cons.mpr ⟨found, ih rest⟩
  · intro found
    rw [List.filterMap_map]
    exact (List.filterMap_congr found).trans List.filterMap_some

theorem readVariant?_writeVariant_iff {variant : Variant} (safe : variant.LineSafe) :
    readVariant? (writeVariant variant) = some variant ↔ variant.Writable := by
  have read (unbarred : '|' ∉ variant.name)
      (names : ∀ property ∈ variant.properties, '|' ∉ property.name)
      (types : ∀ property ∈ variant.properties, '|' ∉ property.type) (named : variant.name ≠ []) :
      readVariant? (writeVariant variant) = some { variant with
        properties := (readList (writeList (variant.properties.map writeProperty))).filterMap
          readProperty? } := by
    have name : trim variant.name = variant.name := safe.name.trimmed
    have inked := safe.name.trimmed.isBlankText_eq_false named
    simp [readVariant?, splitOn_writeVariant unbarred names types, name, inked, readBool_writeBool]
  constructor
  · intro same
    obtain ⟨named, unbarred, properties⟩ := of_readVariant? same
    have names property member := (properties property member).2.1
    have types property member := (properties property member).2.2
    have writable property member := (properties property member).1
    refine ⟨named, unbarred, writable, names, types, ?_⟩
    rw [read unbarred names types named] at same
    exact isSeparable_map_writeProperty (congrArg Variant.properties (Option.some.inj same))
  · rintro ⟨named, unbarred, properties, names, types, separable⟩
    have written : ∀ entry ∈ variant.properties.map writeProperty,
        IsTrimmed entry ∧ entry ≠ [] := by
      intro entry member
      obtain ⟨property, inside, rfl⟩ := List.mem_map.mp member
      exact ⟨(isPlain_writeProperty (safe.properties property inside)).trimmed,
        by simp [writeProperty]⟩
    have entries : readList (writeList (variant.properties.map writeProperty)) =
        variant.properties.map writeProperty :=
      Kotlin.splitTopLevel_intercalate_eq_self_iff.mpr ⟨written, separable⟩
    rw [read unbarred names types named, entries, filterMap_map_eq_self_iff.mpr]
    exact fun property member =>
      readProperty?_writeProperty (safe.properties property member) (properties property member)

end Manifest
end DeclBridge
