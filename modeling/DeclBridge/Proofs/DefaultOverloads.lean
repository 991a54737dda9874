import DeclBridge.Proofs.MappedTypes
import DeclBridge.Swift.Function
import Mathlib.Data.List.Range

/-! Overloads for parameters with defaults. Each of them leaves out some of the last parameters and
makes one call with an argument for every parameter. A call has more arguments than the overload
that makes it has parameters, so no overload calls itself. -/

namespace DeclBridge

open Text

/-- There is a default, and it does not stand for one whose text is not known. -/
def Parameter.HasKnownDefault (parameter : Parameter) : Prop :=
  ∃ value ∈ parameter.default, trim value ≠ unknownDefault

namespace Swift

/-! Functions -/

namespace FunctionSpec

/-- Every type has a text. -/
structure IsRenderable (spec : FunctionSpec) : Prop where
  parameters : ∀ parameter ∈ spec.parameters, parameter.type.defect? = none
  returnType : spec.returnType.defect? = none

/-- The last parameters have known defaults: all of these, and not the one before them. -/
structure IsDivided (spec : FunctionSpec) (required defaulted : List SwiftParameter) : Prop where
  whole : spec.parameters = required ++ defaulted
  known : ∀ parameter ∈ defaulted, parameter.default.isSome = true
  unknown : ∀ parameter ∈ required.getLast?, parameter.default = none

end FunctionSpec

/-! Overloads -/

/-- The parameters that an overload declares, and the arguments of its call with their labels. -/
structure Overload where
  declared : List SwiftParameter
  arguments : List (Text × Text)
deriving DecidableEq

/-- A parameter as it is declared without a default. -/
def SwiftParameter.declaration (parameter : SwiftParameter) : Text :=
  parameter.name ++ ": ".toList ++ parameter.type.text ++
    if parameter.isVariadic then "...".toList else []

namespace Overload

variable (overload : Overload) (spec : FunctionSpec)

/-- The head of the function, with the parameters of the overload in place of its own. -/
def head : Text :=
  spec.access.text ++ " func ".toList ++ spec.name ++ genericsClause spec.typeParameters ++
    '(' :: commaSpaced (overload.declared.map SwiftParameter.declaration) ++ ") async".toList ++
      (if spec.isThrowing then " throws".toList else []) ++
        if spec.returnType.isVoid then [] else " -> ".toList ++ spec.returnType.text

/-- The call of the function. -/
def call : Text :=
  (if spec.returnType.isVoid then [] else "return ".toList) ++
    (if spec.isThrowing then "try ".toList else []) ++ "await ".toList ++ spec.name ++
      '(' :: commaSpaced (overload.arguments.map fun (label, value) =>
        label ++ ": ".toList ++ value) ++ [')']

def text : Text :=
  unlines [overload.head spec ++ " \x7b".toList, "    ".toList ++ overload.call spec,
    "\x7d".toList]

end Overload

namespace FunctionSpec

variable {spec : FunctionSpec} {required defaulted : List SwiftParameter}

/-- The overload that keeps the first `kept` parameters and passes the others their defaults. -/
def keeping (spec : FunctionSpec) (kept : Nat) : Overload where
  declared := spec.parameters.take kept
  arguments := spec.parameters.mapIdx fun index parameter =>
    (parameter.name, if index < kept then parameter.name else parameter.default.getD [])

/-- The overloads from the one with the first `required` parameters on. -/
def overloadsFrom (spec : FunctionSpec) (required count : Nat) : List Overload :=
  (List.range count).map fun further => spec.keeping (required + further)

theorem length_declared_of_mem {count : Nat} {overload : Overload}
    (whole : spec.parameters = required ++ defaulted) (bound : count ≤ defaulted.length)
    (member : overload ∈ spec.overloadsFrom required.length count) :
    overload.declared.length < spec.parameters.length ∧
      overload.arguments.length = spec.parameters.length := by
  obtain ⟨further, inside, rfl⟩ := List.mem_map.mp member
  have early := List.mem_range.mp inside
  have size : spec.parameters.length = required.length + defaulted.length := by
    rw [whole, List.length_append]
  refine ⟨?_, List.length_mapIdx⟩
  simp only [keeping, List.length_take]
  omega

/-- Each overload declares one parameter more than the one before it. -/
theorem map_length_declared {count : Nat} (whole : spec.parameters = required ++ defaulted)
    (bound : count ≤ defaulted.length) :
    (spec.overloadsFrom required.length count).map (·.declared.length) =
      List.range' required.length count := by
  rw [overloadsFrom, List.map_map, List.range'_eq_map_range]
  refine List.map_congr_left fun further inside => ?_
  have early := List.mem_range.mp inside
  have size : spec.parameters.length = required.length + defaulted.length := by
    rw [whole, List.length_append]
  simp only [Function.comp_apply, keeping, List.length_take]
  omega

theorem overloadsFrom_append (spec : FunctionSpec) (required : Nat) {count larger : Nat}
    (more : count ≤ larger) :
    spec.overloadsFrom required larger = spec.overloadsFrom required count ++
      spec.overloadsFrom (required + count) (larger - count) := by
  obtain ⟨further, rfl⟩ := Nat.exists_eq_add_of_le more
  rw [Nat.add_sub_cancel_left, overloadsFrom, List.range_add, List.map_append, List.map_map]
  refine congrArg _ (List.map_congr_left fun index _ => ?_)
  rw [Nat.add_assoc]
  rfl

end FunctionSpec

/-! Rendering -/

private theorem ok_bind {ε α β : Type} (value : α) (next : α → Except ε β) :
    (.ok value >>= next : Except ε β) = next value := rfl

theorem SwiftParameter.requiredText_eq {parameter : SwiftParameter}
    (renderable : parameter.type.defect? = none) :
    parameter.requiredText = .ok parameter.declaration := by
  rw [SwiftParameter.requiredText, SwiftType.render_eq renderable]
  rfl

theorem mapM_requiredText {parameters : List SwiftParameter}
    (renderable : ∀ parameter ∈ parameters, parameter.type.defect? = none) :
    parameters.mapM SwiftParameter.requiredText =
      .ok (parameters.map SwiftParameter.declaration) := by
  induction parameters with
  | nil => rfl
  | cons parameter parameters ih =>
    obtain ⟨first, others⟩ := List.forall_mem_cons.mp renderable
    rw [List.mapM_cons, SwiftParameter.requiredText_eq first, ih others]
    rfl

/-- What is passed on and what is left out make up one argument list. -/
theorem map_arguments (parameters : List SwiftParameter) (kept : Nat) :
    (parameters.take kept).map SwiftParameter.forwarded ++
        ((parameters.drop kept).map fun parameter =>
          parameter.name ++ ": ".toList ++ parameter.default.getD []) =
      (parameters.mapIdx fun index parameter =>
        (parameter.name, if index < kept then parameter.name else parameter.default.getD [])).map
          fun (label, value) => label ++ ": ".toList ++ value := by
  induction parameters generalizing kept with
  | nil => simp
  | cons parameter parameters ih =>
    rw [List.mapIdx_cons, List.map_cons]
    cases kept with
    | zero =>
      have behind := ih 0
      simp only [List.take_zero, List.drop_zero, List.map_nil, List.nil_append,
        Nat.not_lt_zero, if_false] at behind ⊢
      rw [List.map_cons, behind]
    | succ kept =>
      have behind := ih kept
      simp only [Nat.add_lt_add_iff_right, Nat.zero_lt_succ, if_true, List.take_succ_cons,
        List.drop_succ_cons, List.map_cons, List.cons_append]
      rw [behind]
      rfl

namespace FunctionSpec

variable {spec : FunctionSpec} {required defaulted : List SwiftParameter}

theorem effects_eq (renderable : spec.returnType.defect? = none) :
    spec.effects = .ok (" async".toList ++ (if spec.isThrowing then " throws".toList else []) ++
      if spec.returnType.isVoid then [] else " -> ".toList ++ spec.returnType.text) := by
  rw [effects, SwiftType.render_eq renderable]
  split <;> rfl

theorem header_eq (renderable : spec.returnType.defect? = none) (overload : Overload) :
    spec.header (overload.declared.map SwiftParameter.declaration) = .ok (overload.head spec) := by
  rw [header, effects_eq renderable, ok_bind, Overload.head]
  simp only [List.append_assoc, List.cons_append]
  rfl

theorem overload_eq (renderable : spec.IsRenderable) (kept : Nat) :
    spec.overload kept = .ok ((spec.keeping kept).text spec) := by
  have declared : (spec.parameters.take kept).mapM SwiftParameter.requiredText =
      .ok ((spec.keeping kept).declared.map SwiftParameter.declaration) :=
    mapM_requiredText fun parameter member =>
      renderable.parameters parameter (List.mem_of_mem_take member)
  simp only [overload, declared, ok_bind, header_eq renderable.returnType, map_arguments]
  rfl

/-- The known defaults at the end are counted, and no others. -/
theorem IsDivided.trailingDefaults_eq (divided : spec.IsDivided required defaulted) :
    trailingDefaults spec.parameters = defaulted.length := by
  have stops : required.reverse.takeWhile (·.default.isSome) = [] := by
    cases last : required.reverse with
    | nil => rfl
    | cons parameter others =>
      have absent : parameter.default = none := by
        refine divided.unknown parameter ?_
        rw [← List.head?_reverse, last]
        rfl
      exact List.takeWhile_cons_of_neg (by simp [absent])
  have known : ∀ parameter ∈ defaulted.reverse, parameter.default.isSome = true :=
    fun parameter member => divided.known parameter (List.mem_reverse.mp member)
  rw [trailingDefaults, divided.whole, List.reverse_append, List.takeWhile_append_of_pos known,
    stops, List.append_nil, List.length_reverse]

theorem attempt_eq {σ α : Type} {generator : Generator σ} {render : σ → Except Text α} {spec : σ}
    {value : α} (valid : generator.issues spec = []) (rendered : render spec = .ok value)
    (complaint : String) (label : Option Text) :
    generator.attempt render complaint spec label = .ok value := by
  rw [Generator.attempt, Generator.validate, valid, rendered]
  rfl

/-- The overloads, from the one without any of the defaulted parameters on. -/
theorem IsDivided.generateOverloads_eq (divided : spec.IsDivided required defaulted)
    (valid : spec.issues = []) (renderable : spec.IsRenderable) (limit : Int)
    (label : Option Text) :
    generateOverloads spec limit label = .ok
      ((spec.overloadsFrom required.length (min defaulted.length limit.toNat)).map
        (·.text spec)) := by
  refine attempt_eq valid ?_ _ label
  have first : spec.parameters.length - trailingDefaults spec.parameters = required.length := by
    rw [divided.trailingDefaults_eq, divided.whole, List.length_append, Nat.add_sub_cancel]
  have rendered : (fun further => spec.overload (required.length + further)) =
      fun further => pure ((spec.keeping (required.length + further)).text spec) := by
    funext further
    exact overload_eq renderable _
  rw [overloads, first, divided.trailingDefaults_eq, rendered, List.mapM_pure, overloadsFrom,
    List.map_map]
  rfl

end FunctionSpec

/-! Declarations -/

theorem mapDefault_isSome_iff {value : Option Text} :
    (mapDefault value).isSome = true ↔ ∃ text ∈ value, trim text ≠ unknownDefault := by
  cases value with
  | none => simp [mapDefault]
  | some text =>
    simp only [mapDefault, Option.bind_eq_bind, Option.bind_some, Option.mem_def,
      Option.some.injEq, exists_eq_left']
    split
    · next unknown => simp [unknown]
    · next known => split <;> simp [known]

namespace FunctionSpec

variable {declaration : AsyncFunction}

theorem isRenderable_ofAsyncFunction (declaration : AsyncFunction) :
    (ofAsyncFunction declaration).IsRenderable where
  parameters := List.forall_mem_map.mpr fun parameter _ =>
    defect?_mapType parameter.type parameter.isNullable
  returnType := defect?_mapType declaration.returnType false

theorem isDivided_ofAsyncFunction {required defaulted : List Parameter}
    (whole : declaration.parameters = required ++ defaulted)
    (known : ∀ parameter ∈ defaulted, parameter.HasKnownDefault)
    (unknown : ∀ parameter ∈ required.getLast?, ¬parameter.HasKnownDefault) :
    (ofAsyncFunction declaration).IsDivided (required.map .ofParameter)
      (defaulted.map .ofParameter) where
  whole := by
    rw [← List.map_append, ← whole]
    rfl
  known := List.forall_mem_map.mpr fun parameter member =>
    mapDefault_isSome_iff.mpr (known parameter member)
  unknown := by
    intro mapped last
    rw [List.getLast?_map] at last
    obtain ⟨parameter, member, rfl⟩ := Option.map_eq_some_iff.mp last
    exact Option.not_isSome_iff_eq_none.mp
      (mt mapDefault_isSome_iff.mp (unknown parameter member))

end FunctionSpec

/-- A function whose last `k` parameters have known defaults, and not the one before, has as many
overloads as the limit admits, at most `k`. The first one declares none of these parameters, each
further one declares one more. Its call passes all arguments in order, those it does not declare as
their defaults. A higher limit only adds overloads at the end. In a declaration the known defaults
are those that are there and do not stand for an unknown one. -/
theorem generateOverloads_exact :
    (∀ (spec : FunctionSpec) (required defaulted : List SwiftParameter) (limit : Int)
        (label : Option Text),
      spec.issues = [] → spec.IsRenderable → spec.IsDivided required defaulted →
      ∃ overloads : List Overload,
        generateOverloads spec limit label = .ok (overloads.map (·.text spec)) ∧
        overloads.length = min defaulted.length (max limit 0).toNat ∧
        (∀ (j : Nat) (overload : Overload), overloads[j]? = some overload →
          let kept := spec.parameters.length - defaulted.length + j
          overload.declared = spec.parameters.take kept ∧
          overload.arguments = spec.parameters.mapIdx fun index parameter =>
            (parameter.name,
              if index < kept then parameter.name else parameter.default.getD [])) ∧
        (∀ overload ∈ overloads, overload.declared.length < spec.parameters.length ∧
          overload.declared.length < overload.arguments.length) ∧
        (overloads.map (·.declared.length)).Nodup ∧
        ∀ larger ≥ limit, ∃ more : List Overload,
          generateOverloads spec larger label = .ok ((overloads ++ more).map (·.text spec))) ∧
    ∀ (declaration : AsyncFunction) (required defaulted : List Parameter),
      declaration.parameters = required ++ defaulted →
      (∀ parameter ∈ defaulted, parameter.HasKnownDefault) →
      (∀ parameter ∈ required.getLast?, ¬parameter.HasKnownDefault) →
      (FunctionSpec.ofAsyncFunction declaration).IsRenderable ∧
      (FunctionSpec.ofAsyncFunction declaration).IsDivided
        (required.map SwiftParameter.ofParameter) (defaulted.map SwiftParameter.ofParameter) := by
  refine ⟨?_, fun declaration required defaulted whole known unknown =>
    ⟨FunctionSpec.isRenderable_ofAsyncFunction declaration,
      FunctionSpec.isDivided_ofAsyncFunction whole known unknown⟩⟩
  intro spec required defaulted limit label valid renderable divided
  have generated (limit : Int) := divided.generateOverloads_eq valid renderable limit label
  have bound : min defaulted.length limit.toNat ≤ defaulted.length := Nat.min_le_left _ _
  refine ⟨_, generated limit, ?_, ?_, ?_, ?_, ?_⟩
  · rw [FunctionSpec.overloadsFrom, List.length_map, List.length_range]
    omega
  · intro j overload found
    have count : spec.parameters.length - defaulted.length = required.length := by
      rw [divided.whole, List.length_append, Nat.add_sub_cancel]
    obtain ⟨inside, rfl⟩ := List.getElem?_eq_some_iff.mp found
    simp only [FunctionSpec.overloadsFrom, List.getElem_map, List.getElem_range, count]
    exact ⟨rfl, rfl⟩
  · intro overload member
    obtain ⟨fewer, all⟩ := FunctionSpec.length_declared_of_mem divided.whole bound member
    exact ⟨fewer, all ▸ fewer⟩
  · rw [FunctionSpec.map_length_declared divided.whole bound]
    exact List.nodup_range'
  · intro larger higher
    have more : min defaulted.length limit.toNat ≤ min defaulted.length larger.toNat := by
      have := Int.toNat_le_toNat higher
      omega
    exact ⟨_, by rw [generated larger, FunctionSpec.overloadsFrom_append spec _ more]⟩

/-- Of the two defaults at the end only the first is left out where one overload is admitted. -/
theorem generateOverloads_exact_limited :
    let id : Parameter := { name := "id".toList, type := "Int".toList }
    let deep : Parameter :=
      { name := "deep".toList, type := "Boolean".toList, default := some "true".toList }
    let size : Parameter :=
      { name := "size".toList, type := "Long".toList, default := some "10L".toList }
    let declaration : AsyncFunction :=
      { qualifiedName := "app.load".toList, name := "load".toList, package := "app".toList,
        parameters := [id, deep, size] }
    let spec := FunctionSpec.ofAsyncFunction declaration
    spec.issues = [] ∧
      ∃ overloads : List Overload,
        generateOverloads spec 1 none = .ok (overloads.map (·.text spec)) ∧
        overloads.length = 1 := by
  intro id deep size declaration spec
  have known : ∀ parameter ∈ [deep, size], parameter.HasKnownDefault := by
    refine List.forall_mem_cons.mpr ⟨⟨"true".toList, rfl, by decide⟩, ?_⟩
    exact List.forall_mem_singleton.mpr ⟨"10L".toList, rfl, by decide⟩
  have unknown : ∀ parameter ∈ [id].getLast?, ¬parameter.HasKnownDefault := by
    rintro _ ⟨⟩ ⟨value, present, -⟩
    cases present
  have valid : spec.issues = [] := by decide
  obtain ⟨renderable, divided⟩ := generateOverloads_exact.2 declaration [id] _ rfl known unknown
  obtain ⟨overloads, generated, length, -⟩ :=
    generateOverloads_exact.1 spec _ _ 1 none valid renderable divided
  exact ⟨valid, overloads, generated, length⟩

example :
    let number : SwiftType := .named "Int32".toList
    let spec : FunctionSpec :=
      { name := "f".toList
        parameters :=
          [{ name := "a".toList, type := number },
            { name := "b".toList, type := number, default := some "1".toList }] }
    generateOverloads spec 5 none =
      .ok [unlines ["public func f(a: Int32) async throws \x7b".toList,
        "    try await f(a: a, b: 1)".toList, "\x7d".toList]] := by
  decide +kernel

end Swift

end DeclBridge
