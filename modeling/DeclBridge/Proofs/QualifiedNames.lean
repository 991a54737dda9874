import DeclBridge.Proofs.TypeExpressions
import DeclBridge.Proofs.DefaultOverloads

/-! Names with and without their packages. The tables of scalars and of containers are asked for the
simple name, so a package in front of these makes no difference wherever they stand. The table of
void types is asked for the whole name. -/

namespace DeclBridge.Swift

open Text

/-! One occurrence of a name -/

/-- Two types that only differ in one occurrence of a simple name, which has a package in the second
one. It is told whether the name has arguments there. -/
inductive Qualified (package : List Word) (simple : Word) (isApplied : Bool) :
    TypeExpr → TypeExpr → Prop where
  | here {before arguments isNullable after} (told : isApplied = !arguments.isEmpty) :
    Qualified package simple isApplied
      (.apply before ⟨[], simple⟩ arguments isNullable after)
      (.apply before ⟨package, simple⟩ arguments isNullable after)
  | inside {argument other before name} (front back : List TypeExpr) {isNullable after}
    (within : Qualified package simple isApplied argument other) :
    Qualified package simple isApplied
      (.apply before name (front ++ argument :: back) isNullable after)
      (.apply before name (front ++ other :: back) isNullable after)

/-! Where the package makes no difference -/

namespace DottedName

/-- With arguments only the simple name matters. -/
theorem applied_package {arguments : List SwiftType} (nonempty : arguments ≠ [])
    (package other : List Word) (simple : Word) :
    applied ⟨package, simple⟩ arguments = applied ⟨other, simple⟩ arguments := by
  rw [applied_eq_mapGeneric _ nonempty, applied_eq_mapGeneric _ nonempty]

theorem alone_scalar {name : DottedName} {swift : Text}
    (scalar : scalars.lookup name.simple.text = some swift) : name.alone = .named swift := by
  have inhabited : ∀ void ∈ voidNames, scalars.lookup void = none := by decide
  have present : ¬(name.package = [] ∧ voidNames.contains name.simple.text = true) := by
    rintro ⟨-, void⟩
    rw [inhabited _ (List.contains_iff_mem.mp void)] at scalar
    cases scalar
  rw [alone, if_neg present, scalar]

end DottedName

namespace Qualified

variable {package : List Word} {simple : Word} {isApplied : Bool} {type qualified : TypeExpr}

theorem swift_eq (occurrence : Qualified package simple isApplied type qualified)
    (known : isApplied = true ∨ IsScalar simple.text) : qualified.swift = type.swift := by
  induction occurrence with
  | @here before arguments isNullable after told =>
    rw [TypeExpr.swift_apply, TypeExpr.swift_apply]
    cases arguments with
    | nil =>
      rcases known with applied | scalar
      · exact absurd (applied.symm.trans told) (by decide)
      · obtain ⟨swift, found⟩ := Option.isSome_iff_exists.mp scalar
        have kept (package : List Word) : DottedName.alone ⟨package, simple⟩ = .named swift :=
          DottedName.alone_scalar found
        rw [List.map_nil, DottedName.applied, DottedName.applied, kept, kept]
    | cons first others => rw [DottedName.applied_package (by simp) package []]
  | inside front back _ ih => simp only [TypeExpr.swift_apply, List.map_append, List.map_cons, ih]

end Qualified

/-! Where it makes one -/

/-- Among parts that are joined, each stands in the same surroundings whatever it is. -/
theorem exists_commaSpaced_around (front back : List Text) :
    ∃ left right, ∀ part, commaSpaced (front ++ part :: back) = left ++ part ++ right := by
  induction front with
  | nil =>
    cases back with
    | nil => exact ⟨[], [], fun part => by simp [commaSpaced_singleton]⟩
    | cons next more =>
      refine ⟨[], [',', ' '] ++ commaSpaced (next :: more), fun part => ?_⟩
      rw [List.nil_append, commaSpaced_cons_cons, List.nil_append, List.append_assoc]
  | cons first front ih =>
    obtain ⟨left, right, around⟩ := ih
    refine ⟨first ++ [',', ' '] ++ left, right, fun part => ?_⟩
    have joined : commaSpaced (first :: (front ++ part :: back)) =
        first ++ [',', ' '] ++ commaSpaced (front ++ part :: back) := by
      cases front <;> exact commaSpaced_cons_cons _ _ _
    rw [List.cons_append, joined, around]
    simp

namespace DottedName

/-- An applied name is rendered around the text of each of its arguments, and it is not void. -/
theorem exists_text_around (name : DottedName) (front back : List SwiftType) :
    ∃ left right, ∀ argument : SwiftType,
      let type := name.applied (front ++ argument :: back)
      type.text = left ++ argument.text ++ right ∧ type.isVoid = false := by
  by_cases container : IsContainer name.simple.text (front.length + (back.length + 1))
  · rcases container with ⟨array, size⟩ | ⟨dictionary, size⟩
    · obtain rfl : front = [] := List.length_eq_zero_iff.mp (by omega)
      obtain rfl : back = [] := List.length_eq_zero_iff.mp (by omega)
      exact ⟨['['], [']'], fun argument =>
        by simp [applied, array, SwiftType.text, SwiftType.isVoid]⟩
    · cases front with
      | nil =>
        obtain ⟨value, rfl⟩ := List.length_eq_one_iff.mp (show back.length = 1 by simpa using size)
        exact ⟨['['], ": ".toList ++ value.text ++ [']'], fun argument =>
          by simp [applied, dictionary, SwiftType.text, SwiftType.isVoid]⟩
      | cons key front =>
        rw [List.length_cons] at size
        obtain rfl : front = [] := List.length_eq_zero_iff.mp (by omega)
        obtain rfl : back = [] := List.length_eq_zero_iff.mp (by omega)
        exact ⟨'[' :: key.text ++ ": ".toList, [']'], fun argument =>
          by simp [applied, dictionary, SwiftType.text, SwiftType.isVoid]⟩
  · obtain ⟨left, right, around⟩ :=
      exists_commaSpaced_around (front.map SwiftType.text) (back.map SwiftType.text)
    refine ⟨name.simple.text ++ '<' :: left, right ++ ['>'], fun argument => ?_⟩
    have kept := name.applied_of_not_container (show front ++ argument :: back ≠ [] by simp)
      (by simpa using container)
    dsimp only
    rw [kept, SwiftType.text, List.map_append, List.map_cons, around]
    simp [SwiftType.isVoid]

/-- A name that is no scalar keeps its package, and the point behind it. -/
theorem alone_packaged {name : DottedName} (packaged : name.package ≠ [])
    (unknown : ¬IsScalar name.simple.text) : name.alone = .named name.text := by
  have absent : scalars.lookup name.simple.text = none :=
    Option.not_isSome_iff_eq_none.mp unknown
  rw [alone, if_neg fun void => packaged void.1, absent]
  exact if_neg fun single => packaged single.1

theorem pointless_alone {simple : Word} (unknown : ¬IsScalar simple.text) :
    '.' ∉ (alone ⟨[], simple⟩).text := by
  have pointless : '.' ∉ simple.text := simple.isWord.not_mem (by decide)
  have absent : scalars.lookup simple.text = none := Option.not_isSome_iff_eq_none.mp unknown
  have bare : text ⟨[], simple⟩ = simple.text := text_of_bare _ rfl
  unfold alone
  dsimp only
  rw [absent, bare]
  dsimp only
  split
  · decide
  · split <;> exact pointless

end DottedName

theorem SwiftType.mem_text_orNull {c : Char} (differs : c ≠ '?') (isNullable : Bool)
    {type : SwiftType} : c ∈ (type.orNull isNullable).text ↔ c ∈ type.text := by
  unfold SwiftType.orNull
  split <;> simp [SwiftType.text, differs]

namespace Qualified

variable {package : List Word} {simple : Word} {isApplied : Bool} {type qualified : TypeExpr}

theorem text_swift_ne (occurrence : Qualified package simple isApplied type qualified)
    (packaged : package ≠ []) (bare : isApplied = false) (unknown : ¬IsScalar simple.text) :
    qualified.swift.text ≠ type.swift.text := by
  induction occurrence with
  | @here before arguments isNullable after told =>
    obtain rfl : arguments = [] := by simpa [bare] using told
    rw [TypeExpr.swift_apply, TypeExpr.swift_apply]
    intro same
    have point : '.' ∈ (DottedName.alone ⟨package, simple⟩).text := by
      rw [DottedName.alone_packaged packaged unknown, SwiftType.text]
      obtain ⟨bare, -⟩ | ⟨-, front, text⟩ := DottedName.text_cases ⟨package, simple⟩
      · exact absurd bare packaged
      · simp [text]
    rw [← SwiftType.mem_text_orNull (by decide) isNullable] at point
    have pointless := mt (SwiftType.mem_text_orNull (by decide) isNullable).mp
      (DottedName.pointless_alone unknown)
    exact pointless (same ▸ point)
  | @inside argument other before name front back isNullable after _ ih =>
    obtain ⟨left, right, around⟩ :=
      name.exists_text_around (front.map TypeExpr.swift) (back.map TypeExpr.swift)
    have rendered (argument : TypeExpr) :
        (TypeExpr.apply before name (front ++ argument :: back) isNullable after).swift.text =
          left ++ argument.swift.text ++ (right ++ nullMark isNullable) := by
      obtain ⟨text, inhabited⟩ := around argument.swift
      rw [TypeExpr.swift_apply, List.map_append, List.map_cons, SwiftType.orNull, inhabited]
      cases isNullable <;> simp [SwiftType.text, text, nullMark]
    rw [rendered, rendered]
    intro same
    exact ih (List.append_cancel_left (List.append_cancel_right same))

end Qualified

/-- What follows the parameters tells return types with different texts apart. -/
theorem FunctionSpec.text_of_effects {spec other : FunctionSpec}
    (renderable : spec.returnType.defect? = none) (alsoRenderable : other.returnType.defect? = none)
    (throwing : spec.isThrowing = other.isThrowing) (same : spec.effects = other.effects) :
    spec.returnType.text = other.returnType.text := by
  have void {type : SwiftType} (isVoid : type.isVoid = true) : type = .void := by
    simpa [SwiftType.isVoid] using isVoid
  rw [effects_eq renderable, effects_eq alsoRenderable, throwing] at same
  have results := List.append_cancel_left (Except.ok.inj same)
  cases first : spec.returnType.isVoid <;> cases second : other.returnType.isVoid <;>
    rw [first, second] at results
  · exact List.append_cancel_left results
  · cases results
  · cases results
  · rw [void first, void second]

/-- A package before one occurrence of a name, at whatever depth, is no difference to the mapped
type just if the name is a scalar or has arguments there. Then it is none to the generated function
either. All other names that stand alone, those of the void types among them, are kept with their
packages, which shows in what follows the parameters of the function. -/
theorem mapType_qualified_iff {package : List Word} (packaged : package ≠ []) {simple : Word}
    {isApplied : Bool} {type qualified : TypeExpr}
    (occurrence : Qualified package simple isApplied type qualified)
    (declaration : AsyncFunction) :
    let spec (type : TypeExpr) :=
      FunctionSpec.ofAsyncFunction { declaration with returnType := type.text }
    (mapType qualified.text false = mapType type.text false ↔
        isApplied = true ∨ IsScalar simple.text) ∧
      ((spec qualified).effects = (spec type).effects ↔ isApplied = true ∨ IsScalar simple.text) ∧
      (isApplied = true ∨ IsScalar simple.text → ∀ label,
        functionGenerator.implement (spec qualified) label =
          functionGenerator.implement (spec type) label) := by
  intro spec
  have kept (known : isApplied = true ∨ IsScalar simple.text) :
      mapType qualified.text false = mapType type.text false := by
    rw [TypeExpr.mapType_text, TypeExpr.mapType_text, occurrence.swift_eq known]
  have told (same : (mapType qualified.text false).text = (mapType type.text false).text) :
      isApplied = true ∨ IsScalar simple.text := by
    rw [TypeExpr.mapType_text, TypeExpr.mapType_text] at same
    by_contra unknown
    rw [not_or, Bool.not_eq_true] at unknown
    exact occurrence.text_swift_ne packaged unknown.1 unknown.2 same
  have sameSpec (known : isApplied = true ∨ IsScalar simple.text) : spec qualified = spec type := by
    simp only [spec, FunctionSpec.ofAsyncFunction, kept known]
  refine ⟨⟨fun same => told (congrArg _ same), kept⟩, ⟨fun same => told ?_, fun known => ?_⟩, ?_⟩
  · have renderable (type : TypeExpr) : (spec type).returnType.defect? = none :=
      defect?_mapType type.text false
    exact FunctionSpec.text_of_effects (renderable qualified) (renderable type) rfl same
  · rw [sameSpec known]
  · intro known label
    rw [sameSpec known]

/-- The scalar in a list of numbers. -/
theorem mapType_qualified_iff_int :
    mapType "List<kotlin.Int>".toList false = mapType "List<Int>".toList false := by
  let kotlin : Word := ⟨"kotlin".toList, by decide⟩
  let int : Word := ⟨"Int".toList, by decide⟩
  let list (number : DottedName) : TypeExpr :=
    .apply {} ⟨[], ⟨"List".toList, by decide⟩⟩ [.apply {} number [] false {}] false {}
  have occurrence : Qualified [kotlin] int false (list ⟨[], int⟩) (list ⟨[kotlin], int⟩) :=
    .inside [] [] (.here rfl)
  let declaration : AsyncFunction :=
    { qualifiedName := "app.load".toList, name := "load".toList, package := "app".toList }
  exact (mapType_qualified_iff (by simp) occurrence declaration).1.mpr (.inr rfl)

/-- A function without a result has one of a type that is not there when the package is told. -/
theorem mapType_qualified_unit :
    let spec (returnType : String) := FunctionSpec.ofAsyncFunction
      { qualifiedName := "app.load".toList, name := "load".toList, package := "app".toList,
        returnType := returnType.toList }
    mapType "Unit".toList false = .void ∧
      mapType "kotlin.Unit".toList false = .named "kotlin.Unit".toList ∧
      (spec "Unit").effects = .ok " async throws".toList ∧
      (spec "kotlin.Unit").effects = .ok " async throws -> kotlin.Unit".toList := by
  intro spec
  have bare : mapType "Unit".toList false = .void := by
    rw [mapType_eq]
    decide
  have qualified : mapType "kotlin.Unit".toList false = .named "kotlin.Unit".toList := by
    rw [mapType_eq]
    decide +kernel
  refine ⟨bare, qualified, ?_, ?_⟩
  · simp only [spec, FunctionSpec.ofAsyncFunction, bare]
    decide
  · simp only [spec, FunctionSpec.ofAsyncFunction, qualified]
    decide

end DeclBridge.Swift
