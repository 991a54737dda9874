import DeclBridge.Transform

/-! A configuration decides about each declaration before anything else happens to it. What it does
not admit could as well be left out beforehand: it is neither checked nor warned about, and the
others do not notice that it is gone. -/

namespace DeclBridge

namespace Config

/-- The kind of a declaration is switched on, and where markers are required it has one. The marker
of a sum type is its name in Swift. -/
def Admits (config : Config) : Declaration → Prop
  | .sum declaration =>
    config.transformSumTypes = true ∧ (config.requireMarkers = true → declaration.rename ≠ none)
  | .async declaration =>
    config.generateOverloads = true ∧ (config.requireMarkers = true → declaration.isMarked = true)
  | .stream declaration =>
    config.transformStreams = true ∧ (config.requireMarkers = true → declaration.isMarked = true)

/-- The same options for whatever is rendered, but nothing is left out. -/
def unfiltered (config : Config) : Config :=
  { config with
    requireMarkers := false
    generateOverloads := true
    transformStreams := true
    transformSumTypes := true }

variable (config : Config)

theorem accepts_iff_admits (declaration : Declaration) :
    config.accepts declaration = true ↔ config.Admits declaration := by
  have implied (required marked : Bool) :
      (!required || marked) = true ↔ (required = true → marked = true) := by
    cases required <;> simp
  rw [accepts, Bool.and_eq_true, implied]
  cases declaration with
  | sum declaration =>
    have named : declaration.rename.isSome = true ↔ declaration.rename ≠ none :=
      Option.isSome_iff_ne_none
    rw [Admits, ← named]
    rfl
  | async declaration => rfl
  | stream declaration => rfl

instance : DecidablePred config.Admits := fun declaration =>
  decidable_of_iff _ (config.accepts_iff_admits declaration)

theorem accepts_unfiltered (declaration : Declaration) :
    config.unfiltered.accepts declaration = true := by
  cases declaration <;> rfl

end Config

section

variable {config : Config} {form : Form} {declaration : Declaration}

/-! One declaration -/

/-- Rendering does not look at the filters. -/
theorem render_unfiltered :
    render config.unfiltered form declaration = render config form declaration := by
  cases declaration <;> rfl

theorem bodies_of_admits (admitted : config.Admits declaration) :
    bodies config.unfiltered form declaration = bodies config form declaration := by
  have accepted := (config.accepts_iff_admits declaration).mpr admitted
  rw [bodies, bodies, config.accepts_unfiltered, accepted, render_unfiltered]

theorem warnings_of_admits (admitted : config.Admits declaration) :
    warnings config.unfiltered declaration = warnings config declaration := by
  have accepted := (config.accepts_iff_admits declaration).mpr admitted
  rw [warnings, warnings, config.accepts_unfiltered, accepted]

/-- What is not admitted yields no text and no fault, whatever is wrong with it. -/
theorem bodies_of_not_admits (refused : ¬config.Admits declaration) :
    bodies config form declaration = .ok [] := by
  have rejected := mt (config.accepts_iff_admits declaration).mp refused
  rw [bodies, Bool.eq_false_iff.mpr rejected]
  rfl

theorem warnings_of_not_admits (refused : ¬config.Admits declaration) :
    warnings config declaration = [] := by
  have rejected := mt (config.accepts_iff_admits declaration).mp refused
  rw [warnings, Bool.eq_false_iff.mpr rejected]
  rfl

end

/-! Runs -/

/-- From any progress on, a run is the same as one that never meets what is not admitted. -/
theorem transformFrom_filter_admits (config : Config) (form : Form) (progress : Progress)
    (declarations : List Declaration) :
    transformFrom config.unfiltered form progress
        ((declarations.filter fun declaration => config.Admits declaration).map .known) =
      transformFrom config form progress (declarations.map .known) := by
  induction declarations generalizing progress with
  | nil => rfl
  | cons declaration declarations ih =>
    rw [List.filter_cons]
    by_cases admitted : config.Admits declaration
    · rw [if_pos (decide_eq_true admitted), List.map_cons, List.map_cons, transformFrom,
        transformFrom, bodies_of_admits admitted, warnings_of_admits admitted]
      cases bodies config form declaration with
      | error fault => rfl
      | ok texts => simp only [ih]
    · have passed : transformFrom config form progress
          (.known declaration :: declarations.map .known) =
            transformFrom config form progress (declarations.map .known) := by
        rw [transformFrom, bodies_of_not_admits admitted, warnings_of_not_admits admitted]
        rfl
      rw [if_neg (by simpa using admitted), List.map_cons, passed, ih]

/-- The filters of a configuration are exactly a filter of its input: code, count, warnings and
fault are those of the admitted declarations when nothing is filtered. -/
theorem transform_filter_admits (config : Config) (form : Form) (declarations : List Declaration) :
    transform config.unfiltered form
        (declarations.filter fun declaration => config.Admits declaration) =
      transform config form declarations := by
  have run := transformFrom_filter_admits config form {} declarations
  rw [transform, transform, transformCandidates, transformCandidates, run]

/-- An invalid function does no harm where functions are switched off. -/
example :
    let blank : AsyncFunction := { qualifiedName := [], name := [], package := [] }
    let config : Config := { generateOverloads := false }
    (transform config .preview [.async blank]).2.toOption = some ⟨[], 0⟩ ∧
      (transform config.unfiltered .preview [.async blank]).2.toOption = none := by
  decide

end DeclBridge
