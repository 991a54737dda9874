import DeclBridge.Proofs.DecodedDeclarations
import DeclBridge.Proofs.ScannedDeclarations

/-! Scanned declarations and manifests. Most of what a manifest requires is promised by scanning;
what is left are the texts that were taken over as they stand, and the types in which a mark of the
format occurs. -/

namespace DeclBridge

open Text

namespace Declaration

def parameters : Declaration → List Parameter
  | sum _ => []
  | async declaration => declaration.parameters
  | stream declaration => declaration.parameters

def variants : Declaration → List Variant
  | sum declaration => declaration.variants
  | async _ => []
  | stream _ => []

def typeParameters : Declaration → List Text
  | sum declaration => declaration.typeParameters
  | async declaration => declaration.typeParameters
  | stream _ => []

/-- The texts that scanning does not bring onto one line. -/
def uncollapsed (declaration : Declaration) : List Text :=
  declaration.typeParameters ++ declaration.parameters.filterMap (·.default)

/-- What scanning leaves open of the conditions under which a manifest gives a declaration back. -/
structure Representable (declaration : Declaration) : Prop where
  singleLine : ∀ text ∈ declaration.uncollapsed, IsSingleLine text
  typed : ∀ parameter ∈ declaration.parameters, parameter.type ≠ []
  unassigned : ∀ parameter ∈ declaration.parameters, '=' ∉ parameter.type
  unbarred : ∀ variant ∈ declaration.variants, ∀ property ∈ variant.properties,
    '|' ∉ property.type
  separable : ∀ variant ∈ declaration.variants,
    Kotlin.IsSeparable (variant.properties.map Manifest.writeProperty)

end Declaration

/-! From promises to conditions -/

theorem isPlain_of_dotted {text : Text} (dotted : ∀ c ∈ text, isDottedChar c = true) :
    IsPlain text :=
  isPlain_of_ink fun c inside => isBlank_of_isDottedChar (dotted c inside)

theorem Identity.Scanned.lineSafe {identity : Identity} (scanned : identity.Scanned) :
    identity.LineSafe := by
  refine ⟨isPlain_of_dotted scanned.qualifiedName, scanned.qualifiedNamed, fun bracket => ?_,
    scanned.name.isPlain, isPlain_of_dotted scanned.package⟩
  exact absurd (scanned.qualifiedName _ bracket) (by decide)

theorem Parameter.Scanned.lineSafe {parameter : Parameter} (scanned : parameter.Scanned)
    (single : ∀ value ∈ parameter.default, IsSingleLine value) : parameter.LineSafe :=
  ⟨scanned.name.isPlain, scanned.type,
    fun value given => ⟨single value given, (scanned.default value given).trimmedEnd⟩⟩

theorem Variant.Scanned.lineSafe {variant : Variant} (scanned : variant.Scanned) :
    variant.LineSafe :=
  ⟨scanned.name.isPlain, fun property member =>
    ⟨(scanned.properties property member).name.isPlain, (scanned.properties property member).type⟩⟩

theorem IsScannedList.isPlain {entries : List Text} (scanned : IsScannedList entries)
    (single : ∀ entry ∈ entries, IsSingleLine entry) : ∀ entry ∈ entries, IsPlain entry :=
  fun entry member => ⟨single entry member, scanned.trimmed entry member⟩

theorem Declaration.Scanned.lineSafe {declaration : Declaration} (scanned : declaration.Scanned)
    (single : ∀ text ∈ declaration.uncollapsed, IsSingleLine text) : declaration.LineSafe := by
  have listed := (List.forall_mem_append.mp single).1
  have defaulted : ∀ parameter ∈ declaration.parameters, ∀ value ∈ parameter.default,
      IsSingleLine value := fun parameter member value given =>
    (List.forall_mem_append.mp single).2 value (List.mem_filterMap.mpr ⟨parameter, member, given⟩)
  cases declaration with
  | sum declaration =>
    obtain ⟨identity, typeParameters, variants, rename, conformances⟩ := scanned
    exact ⟨identity.lineSafe, typeParameters.isPlain listed,
      fun variant member => (variants variant member).lineSafe,
      fun name given => (rename name given).isPlain, by simp [conformances]⟩
  | async declaration =>
    obtain ⟨identity, parameters, returnType, typeParameters, owner⟩ := scanned
    exact ⟨identity.lineSafe,
      fun parameter member => (parameters parameter member).lineSafe (defaulted parameter member),
      returnType.1, typeParameters.isPlain listed, fun name given => (owner name given).isPlain⟩
  | stream declaration =>
    obtain ⟨identity, elementType, parameters, owner⟩ := scanned
    exact ⟨identity.lineSafe, elementType.1,
      fun parameter member => (parameters parameter member).lineSafe (defaulted parameter member),
      fun name given => (owner name given).isPlain⟩

private theorem ne_some_nil {value : Option Text} (named : ∀ name ∈ value, IsWord name) :
    value ≠ some [] := by
  rintro rfl
  exact (named [] rfl).nonempty rfl

/-- A word does not contain the blank of the mark. -/
theorem Parameter.Scanned.writable {parameter : Parameter} (scanned : parameter.Scanned)
    (typed : parameter.type ≠ []) (unassigned : '=' ∉ parameter.type) : parameter.Writable := by
  refine ⟨scanned.name.nonempty, scanned.name.not_mem (by decide), fun _ start => ?_, typed,
    unassigned, scanned.marked⟩
  have blank : ' ' ∈ parameter.name := start.subset (by decide)
  exact scanned.name.not_mem (by decide) blank

theorem Variant.Scanned.writable {variant : Variant} (scanned : variant.Scanned)
    (unbarred : ∀ property ∈ variant.properties, '|' ∉ property.type)
    (separable : Kotlin.IsSeparable (variant.properties.map Manifest.writeProperty)) :
    variant.Writable := by
  refine ⟨scanned.name.nonempty, scanned.name.not_mem (by decide), fun property member => ?_,
    fun property member => ?_, unbarred, separable⟩
  · obtain ⟨name, -, marked⟩ := scanned.properties property member
    exact ⟨name.nonempty, name.not_mem (by decide), marked⟩
  · exact (scanned.properties property member).name.not_mem (by decide)

theorem Declaration.Scanned.writable {declaration : Declaration} (scanned : declaration.Scanned)
    (representable : declaration.Representable) : declaration.Writable := by
  obtain ⟨-, typed, unassigned, unbarred, separable⟩ := representable
  cases declaration with
  | sum declaration =>
    obtain ⟨identity, typeParameters, variants, rename, conformances⟩ := scanned
    refine ⟨identity.name.nonempty, typeParameters.toIsWritableList, fun variant member => ?_,
      ne_some_nil rename, ?_⟩
    · exact (variants variant member).writable (unbarred variant member) (separable variant member)
    · rw [conformances]
      exact ⟨by simp, trivial⟩
  | async declaration =>
    obtain ⟨identity, parameters, returnType, typeParameters, owner⟩ := scanned
    refine ⟨identity.name.nonempty, fun parameter member => ?_, returnType.2,
      typeParameters.toIsWritableList, ne_some_nil owner⟩
    exact (parameters parameter member).writable (typed parameter member)
      (unassigned parameter member)
  | stream declaration =>
    obtain ⟨identity, elementType, parameters, owner⟩ := scanned
    refine ⟨identity.name.nonempty, elementType.2, fun parameter member => ?_, ne_some_nil owner⟩
    exact (parameters parameter member).writable (typed parameter member)
      (unassigned parameter member)

theorem Declaration.representable_of_writable {declaration : Declaration}
    (single : ∀ text ∈ declaration.uncollapsed, IsSingleLine text)
    (writable : declaration.Writable) : declaration.Representable := by
  cases declaration with
  | sum declaration =>
    have variants := SumType.Writable.variants writable
    exact ⟨single, by simp [parameters], by simp [parameters],
      fun variant member => (variants variant member).unbarredTypes,
      fun variant member => (variants variant member).separable⟩
  | async declaration =>
    have parameters := AsyncFunction.Writable.parameters writable
    exact ⟨single, fun parameter member => (parameters parameter member).typed,
      fun parameter member => (parameters parameter member).unassigned, by simp [variants],
      by simp [variants]⟩
  | stream declaration =>
    have parameters := Stream.Writable.parameters writable
    exact ⟨single, fun parameter member => (parameters parameter member).typed,
      fun parameter member => (parameters parameter member).unassigned, by simp [variants],
      by simp [variants]⟩

/-! What reading a manifest cannot give -/

namespace Manifest

/-- Whatever text is read, no value of it goes over several lines. -/
theorem isSingleLine_of_mem_decode {text : Text} {declaration : Declaration}
    (found : declaration ∈ decode text) : ∀ text ∈ declaration.uncollapsed, IsSingleLine text := by
  have identity : Identity.LineSafe ⟨['x'], [], []⟩ := by constructor <;> decide
  have safe := (decoded_of_mem_decode found).values identity
  have defaulted {parameters : List Parameter}
      (safe : ∀ parameter ∈ parameters, parameter.LineSafe) :
      ∀ value ∈ parameters.filterMap (·.default), IsSingleLine value := by
    intro value given
    obtain ⟨parameter, member, given⟩ := List.mem_filterMap.mp given
    exact ((safe parameter member).default value given).1
  cases declaration with
  | sum declaration =>
    have typeParameters := SumType.LineSafe.typeParameters safe
    exact List.forall_mem_append.mpr
      ⟨fun entry member => (typeParameters entry member).singleLine,
        by simp [Declaration.parameters]⟩
  | async declaration =>
    have typeParameters := AsyncFunction.LineSafe.typeParameters safe
    have parameters := AsyncFunction.LineSafe.parameters safe
    exact List.forall_mem_append.mpr
      ⟨fun entry member => (typeParameters entry member).singleLine, defaulted parameters⟩
  | stream declaration =>
    have parameters := Stream.LineSafe.parameters safe
    exact List.forall_mem_append.mpr
      ⟨by simp [Declaration.typeParameters], defaulted parameters⟩

/-- Scanned declarations come back from a manifest exactly when type parameters and defaults are on
one line, types keep clear of the marks of the entry they stand in, and the properties of no case
run into each other. Everything else that a manifest requires holds for every source. -/
theorem decode_encode_scan_iff (source : Text) :
    decode (encode (Kotlin.scan source)) = Kotlin.scan source ↔
      ∀ declaration ∈ Kotlin.scan source, declaration.Representable := by
  have scanned : ∀ declaration ∈ Kotlin.scan source, declaration.Scanned :=
    fun declaration => Kotlin.scanned_of_mem_scan
  constructor
  · intro same declaration member
    -- What was read back is on one line, and therefore what was written is.
    have single : ∀ declaration ∈ Kotlin.scan source,
        ∀ text ∈ declaration.uncollapsed, IsSingleLine text := by
      intro declaration member
      rw [← same] at member
      exact isSingleLine_of_mem_decode member
    have safe declaration member :=
      (scanned declaration member).lineSafe (single declaration member)
    rw [decode_encode safe, filterMap_map_eq_self_iff] at same
    exact Declaration.representable_of_writable (single declaration member)
      ((declaration?_rawSection_iff (safe declaration member)).mp (same declaration member))
  · intro representable
    have safe declaration member :=
      (scanned declaration member).lineSafe (representable declaration member).singleLine
    rw [decode_encode safe, filterMap_map_eq_self_iff]
    intro declaration member
    exact (declaration?_rawSection_iff (safe declaration member)).mpr
      ((scanned declaration member).writable (representable declaration member))

/-- A bound on a line of its own is cut off. -/
theorem scanned_bound_lost_at_line_break :
    let source := "suspend fun <T :\n Any> f(x: T): T".toList
    decode (encode (Kotlin.scan source)) ≠ Kotlin.scan source := by
  decide +kernel

end Manifest
end DeclBridge
