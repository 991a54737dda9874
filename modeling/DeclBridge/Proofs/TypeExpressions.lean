import DeclBridge.Proofs.BalancedTexts
import DeclBridge.Proofs.MappedTypes

/-! Types as trees: a name, the arguments it is applied to, and a null mark. A tree has a text and a
Swift type, both made part by part, and mapping the text gives the Swift type. -/

namespace DeclBridge.Swift

open Text

/-! Names -/

structure Word where
  text : Text
  isWord : IsWord text

def IsScalar (name : Text) : Prop :=
  (scalars.lookup name).isSome = true

/-- A name with the packages it is in, if they are told. -/
structure DottedName where
  package : List Word := []
  simple : Word

namespace DottedName

/-- A point follows every package. -/
def text (name : DottedName) : Text :=
  name.package.flatMap (·.text ++ ['.']) ++ name.simple.text

variable (name : DottedName)

theorem text_ne_nil : name.text ≠ [] := by
  simp [text, name.simple.isWord.nonempty]

theorem isDottedChar_text : ∀ c ∈ name.text, isDottedChar c = true := by
  have dotted {word : Word} : ∀ c ∈ word.text, isDottedChar c = true :=
    fun c inside => by simp [isDottedChar, word.isWord.wordChars c inside]
  intro c inside
  rcases List.mem_append.mp inside with inside | inside
  · obtain ⟨part, -, inside⟩ := List.mem_flatMap.mp inside
    rcases List.mem_append.mp inside with inside | point
    · exact dotted c inside
    · rw [List.mem_singleton.mp point]
      decide
  · exact dotted c inside

theorem isBlank_text : ∀ c ∈ name.text, isBlank c = false :=
  fun c inside => isBlank_of_isDottedChar (name.isDottedChar_text c inside)

theorem not_mem_simple {mark : Char} (outside : isWordChar mark = false) :
    mark ∉ name.simple.text :=
  name.simple.isWord.not_mem outside

theorem text_of_bare (bare : name.package = []) : name.text = name.simple.text := by
  simp [text, bare]

/-- Either there is no package, or a point separates it from the simple name. -/
theorem text_cases : name.package = [] ∧ name.text = name.simple.text ∨
    name.package ≠ [] ∧ ∃ front, name.text = front ++ '.' :: name.simple.text := by
  rcases List.eq_nil_or_concat name.package with bare | ⟨packages, last, packaged⟩
  · exact .inl ⟨bare, name.text_of_bare bare⟩
  · have nonempty : name.package ≠ [] := by simp [packaged]
    refine .inr ⟨nonempty, packages.flatMap (·.text ++ ['.']) ++ last.text, ?_⟩
    simp [text, packaged]

theorem afterLast_text : afterLast '.' name.text = name.simple.text := by
  have pointless : '.' ∉ name.simple.text := name.not_mem_simple (by decide)
  obtain ⟨-, same⟩ | ⟨-, front, same⟩ := name.text_cases
  · rw [same, afterLast_of_not_mem pointless]
  · rw [same, afterLast_append_cons pointless]

/-- What the tables say of texts without points, they say of names without packages. -/
theorem text_mem_iff {texts : List Text} (pointless : ∀ text ∈ texts, '.' ∉ text) :
    name.text ∈ texts ↔ name.package = [] ∧ name.simple.text ∈ texts := by
  obtain ⟨bare, same⟩ | ⟨packaged, front, same⟩ := name.text_cases
  · simp [bare, same]
  · refine iff_of_false (fun member => pointless _ member (by simp [same])) fun ⟨bare, _⟩ => ?_
    exact packaged bare

theorem isTypeParameter_text : isTypeParameter name.text = true ↔
    name.package = [] ∧ isTypeParameter name.simple.text = true := by
  obtain ⟨bare, same⟩ | ⟨packaged, front, same⟩ := name.text_cases
  · simp [bare, same]
  · refine iff_of_false (fun single => ?_) fun ⟨bare, _⟩ => packaged bare
    unfold isTypeParameter at single
    split at single
    · next c alone =>
      -- A single character would have to be the point and the simple name at once.
      have length := congrArg List.length (same.symm.trans alone)
      have nonempty := List.length_pos_iff.mpr name.simple.isWord.nonempty
      simp only [List.length_append, List.length_cons, List.length_nil] at length
      omega
    · cases single

end DottedName

/-! Trees -/

structure Blanks where
  text : Text := []
  blank : ∀ c ∈ text, isBlank c = true := by simp

/-- A name with its arguments, if any, and one null mark at most. Blanks may stand around it. -/
inductive TypeExpr where
  | apply (before : Blanks) (name : DottedName) (arguments : List TypeExpr) (isNullable : Bool)
    (after : Blanks)

def nullMark (isNullable : Bool) : Text :=
  if isNullable then ['?'] else []

/-- A type without arguments has no brackets. -/
def argumentClause : List Text → Text
  | [] => []
  | first :: others => '<' :: [','].intercalate (first :: others) ++ ['>']

/-- The optional of a type. There is none of the void type. -/
def SwiftType.orNull (isNullable : Bool) (type : SwiftType) : SwiftType :=
  if isNullable && !type.isVoid then .optional type else type

/-- The Swift type for a name that stands alone: the void type and type parameters have no package,
scalars may have one, and all other names are kept. -/
def DottedName.alone (name : DottedName) : SwiftType :=
  if name.package = [] ∧ voidNames.contains name.simple.text then .void
  else
    match scalars.lookup name.simple.text with
    | some swift => .named swift
    | none =>
      if name.package = [] ∧ isTypeParameter name.simple.text then .generic name.simple.text
      else .named name.text

/-- The containers that hold as many types. -/
def IsContainer (simple : Text) (size : Nat) : Prop :=
  simple ∈ arrayContainers ∧ size = 1 ∨ simple ∈ dictionaryContainers ∧ size = 2

/-- The Swift type for a name with arguments: arrays and dictionaries for those that hold one type
or two, and otherwise the simple name with the texts of the arguments. -/
def DottedName.applied (name : DottedName) (arguments : List SwiftType) : SwiftType :=
  let kept := SwiftType.named
    (name.simple.text ++ '<' :: commaSpaced (arguments.map SwiftType.text) ++ ['>'])
  match arguments with
  | [] => name.alone
  | [element] => if arrayContainers.contains name.simple.text then .array element else kept
  | [key, value] =>
    if dictionaryContainers.contains name.simple.text then .dictionary key value else kept
  | _ => kept

namespace TypeExpr

mutual

def text : TypeExpr → Text
  | apply before name arguments isNullable after =>
    before.text ++ (name.text ++ argumentClause (textsOf arguments) ++ nullMark isNullable) ++
      after.text

def textsOf : List TypeExpr → List Text
  | [] => []
  | type :: types => type.text :: textsOf types

end

mutual

def swift : TypeExpr → SwiftType
  | apply _ name arguments isNullable _ => (name.applied (swiftsOf arguments)).orNull isNullable

def swiftsOf : List TypeExpr → List SwiftType
  | [] => []
  | type :: types => type.swift :: swiftsOf types

end

theorem textsOf_eq_map (types : List TypeExpr) : textsOf types = types.map text := by
  induction types with
  | nil => rfl
  | cons type types ih => rw [textsOf, ih, List.map_cons]

theorem swiftsOf_eq_map (types : List TypeExpr) : swiftsOf types = types.map swift := by
  induction types with
  | nil => rfl
  | cons type types ih => rw [swiftsOf, ih, List.map_cons]

theorem text_apply (before : Blanks) (name : DottedName) (arguments : List TypeExpr)
    (isNullable : Bool) (after : Blanks) :
    (apply before name arguments isNullable after).text =
      before.text ++ (name.text ++ argumentClause (arguments.map text) ++ nullMark isNullable) ++
        after.text := by
  rw [text, textsOf_eq_map]

theorem swift_apply (before : Blanks) (name : DottedName) (arguments : List TypeExpr)
    (isNullable : Bool) (after : Blanks) :
    (apply before name arguments isNullable after).swift =
      (name.applied (arguments.map swift)).orNull isNullable := by
  rw [swift, swiftsOf_eq_map]

/-- Induction with one hypothesis for every argument. -/
@[elab_as_elim]
theorem induct {motive : TypeExpr → Prop}
    (apply : ∀ before name arguments isNullable after,
      (∀ argument ∈ arguments, motive argument) →
      motive (apply before name arguments isNullable after)) :
    ∀ type, motive type
  | .apply before name arguments isNullable after =>
    apply before name arguments isNullable after fun argument _ => induct apply argument

end TypeExpr

/-! Names as texts -/

namespace DottedName

variable (name : DottedName)

theorem dotted?_text {rest : Text} (ends : ∀ c ∈ rest.head?, isDottedChar c = false) :
    dotted? (name.text ++ rest) = some (name.text, rest) :=
  run?_append name.text_ne_nil name.isDottedChar_text ends

/-- A name that stands alone is mapped as the tables say. -/
theorem mapBase_text : mapBase name.text = name.alone := by
  have noArguments : containerOf? name.text = none := by
    have whole : dotted? (name.text ++ []) = some (name.text, []) := name.dotted?_text (by simp)
    rw [List.append_nil] at whole
    simp [containerOf?, whole, mark?, skipBlanks]
  have void : name.text ∈ voidNames ↔ name.package = [] ∧ name.simple.text ∈ voidNames :=
    name.text_mem_iff (by decide)
  have single : isTypeParameter name.text = true ↔
      name.package = [] ∧ isTypeParameter name.simple.text = true := name.isTypeParameter_text
  rw [mapBase, noArguments, alone]
  simp only [List.contains_iff_mem, void, mapName, name.afterLast_text, single]
  split
  · rfl
  · cases scalars.lookup name.simple.text with
    | some swift => rfl
    | none =>
      dsimp only
      split
      · next letter => rw [name.text_of_bare letter.1]
      · rfl

theorem containerOf?_arguments (inner : Text) :
    containerOf? (name.text ++ '<' :: inner ++ ['>']) = some (name.text, inner) := by
  have front : dotted? (name.text ++ '<' :: (inner ++ ['>'])) =
      some (name.text, '<' :: (inner ++ ['>'])) :=
    name.dotted?_text (by rintro _ ⟨⟩; decide)
  have opener : mark? '<' ('<' :: (inner ++ ['>'])) = some (inner ++ ['>']) := by
    have ink : skipBlanks ('<' :: (inner ++ ['>'])) = '<' :: (inner ++ ['>']) :=
      skipBlanks_eq_self_iff.mpr (by rintro _ ⟨⟩; decide)
    rw [mark?, ink]
    rfl
  rw [List.append_assoc, List.cons_append, containerOf?, front]
  simp [opener]

/-- The arguments of a name are mapped one by one. -/
theorem mapBase_arguments (inner : Text) :
    mapBase (name.text ++ '<' :: inner ++ ['>']) =
      mapGeneric name.simple.text ((Kotlin.splitTopLevel inner).map (mapType · false)) := by
  have opened : name.text ++ '<' :: inner ++ ['>'] ∉ voidNames := by
    have plain : ∀ void ∈ voidNames, '<' ∉ void := by decide
    exact fun member => plain _ member (by simp)
  rw [mapBase, name.containerOf?_arguments, if_neg (by simpa using opened)]
  dsimp only
  rw [name.afterLast_text]

theorem applied_eq_mapGeneric {arguments : List SwiftType} (nonempty : arguments ≠ []) :
    name.applied arguments = mapGeneric name.simple.text arguments := by
  match arguments with
  | [] => exact absurd rfl nonempty
  | [element] => simp [applied, mapGeneric]
  | [key, value] => simp [applied, mapGeneric]
  | _ :: _ :: _ :: _ => rfl

theorem applied_of_not_container {arguments : List SwiftType} (nonempty : arguments ≠ [])
    (other : ¬IsContainer name.simple.text arguments.length) :
    name.applied arguments = .named
      (name.simple.text ++ '<' :: commaSpaced (arguments.map SwiftType.text) ++ ['>']) := by
  match arguments with
  | [] => exact absurd rfl nonempty
  | [element] =>
    have kept : name.simple.text ∉ arrayContainers := fun array => other (.inl ⟨array, rfl⟩)
    simp [applied, kept]
  | [key, value] =>
    have kept : name.simple.text ∉ dictionaryContainers :=
      fun dictionary => other (.inr ⟨dictionary, rfl⟩)
    simp [applied, kept]
  | _ :: _ :: _ :: _ => rfl

end DottedName

/-! Trees as texts -/

theorem withoutNullMark_padded {core : Text} (trimmed : IsTrimmed core)
    (unmarked : core.getLast? ≠ some '?') (before after : Blanks) (isNullable : Bool) :
    withoutNullMark (before.text ++ (core ++ nullMark isNullable) ++ after.text) =
      (core, isNullable) := by
  have mark : IsTrimmed (nullMark isNullable) := by cases isNullable <;> decide
  rw [withoutNullMark, (trimmed.append mark).trim_padded before.blank after.blank]
  cases isNullable with
  | false => simp [nullMark, unmarked]
  | true => simp [nullMark, show trim core = core from trimmed]

theorem mapType_trim (type : Text) (isNullable : Bool) :
    mapType (trim type) isNullable = mapType type isNullable := by
  have again : trim (trim type) = trim type := isTrimmed_trim type
  rw [mapType_eq, mapType_eq, withoutNullMark, withoutNullMark, again]

theorem isTrimmed_argumentClause (entries : List Text) : IsTrimmed (argumentClause entries) := by
  cases entries with
  | nil => rfl
  | cons entry entries =>
    refine isTrimmed_iff.mpr ⟨by rintro _ ⟨⟩; decide, ?_⟩
    rw [argumentClause, List.getLast?_concat]
    rintro _ ⟨⟩
    decide

namespace DottedName

variable (name : DottedName) (entries : List Text)

theorem isTrimmed_applied : IsTrimmed (name.text ++ argumentClause entries) :=
  (isTrimmed_of_ink name.isBlank_text).append (isTrimmed_argumentClause entries)

theorem getLast?_applied : (name.text ++ argumentClause entries).getLast? ≠ some '?' := by
  cases entries with
  | nil =>
    rw [argumentClause, List.append_nil]
    intro last
    exact absurd (name.isDottedChar_text _ (List.mem_of_getLast? last)) (by decide)
  | cons entry entries =>
    rw [argumentClause, ← List.append_assoc, List.getLast?_concat]
    decide

variable {entries}

/-- Arguments that close what they open are cut where they were joined. -/
theorem mapBase_applied (selfContained : ∀ entry ∈ entries, Kotlin.IsSelfContained entry)
    (inked : ∀ entry ∈ entries, isBlankText entry = false) :
    mapBase (name.text ++ argumentClause entries) =
      name.applied (entries.map (mapType · false)) := by
  cases entries with
  | nil =>
    rw [argumentClause, List.append_nil]
    exact name.mapBase_text
  | cons first others =>
    have separable := Kotlin.isSeparable_of_isSelfContained selfContained
    have trimmed : (mapType · false) ∘ trim = (mapType · false) :=
      funext fun entry => mapType_trim entry false
    rw [argumentClause, ← List.append_assoc, name.mapBase_arguments,
      Kotlin.splitTopLevel_intercalate (by simp) separable inked, List.map_map, trimmed,
      name.applied_eq_mapGeneric (by simp)]

/-- A type is mapped to its name with its arguments mapped, whatever these are. -/
theorem mapType_applied (selfContained : ∀ entry ∈ entries, Kotlin.IsSelfContained entry)
    (inked : ∀ entry ∈ entries, isBlankText entry = false) (before after : Blanks)
    (isNullable : Bool) :
    mapType (before.text ++ (name.text ++ argumentClause entries ++ nullMark isNullable) ++
        after.text) false =
      (name.applied (entries.map (mapType · false))).orNull isNullable := by
  have divided := withoutNullMark_padded (name.isTrimmed_applied entries)
    (name.getLast?_applied entries) before after isNullable
  rw [mapType_eq, divided]
  dsimp only
  rw [name.mapBase_applied selfContained inked, Bool.false_or, SwiftType.orNull]

end DottedName

namespace TypeExpr

theorem balanced (type : TypeExpr) : Kotlin.Balanced false type.text := by
  induction type using induct with
  | apply before name arguments isNullable after inner =>
    have named : Kotlin.Balanced false name.text := .of_dotted name.isDottedChar_text
    have clause : Kotlin.Balanced false (argumentClause (arguments.map text)) := by
      cases arguments with
      | nil => exact .nil
      | cons first others =>
        refine .bracketed .angle (Kotlin.balanced_intercalate ?_ (List.forall_mem_map.mpr inner))
        exact .plain (by decide) (fun _ => rfl) .nil
    have mark : Kotlin.Balanced false (nullMark isNullable) := by
      cases isNullable with
      | false => exact .nil
      | true => exact .cons (by decide) .nil
    rw [text_apply]
    have front : Kotlin.Balanced false before.text := .of_blank before.blank
    exact (front.append ((named.append clause).append mark)).append (.of_blank after.blank)

theorem isBlankText_text (type : TypeExpr) : isBlankText type.text = false := by
  obtain ⟨before, name, arguments, isNullable, after⟩ := type
  obtain ⟨c, inside⟩ := List.exists_mem_of_ne_nil _ name.text_ne_nil
  refine List.all_eq_false.mpr ⟨c, ?_, by simp [name.isBlank_text c inside]⟩
  rw [text_apply]
  simp [inside]

/-- The text of a type is mapped part by part. -/
theorem mapType_text (type : TypeExpr) : mapType type.text false = type.swift := by
  induction type using induct with
  | apply before name arguments isNullable after inner =>
    have selfContained : ∀ entry ∈ arguments.map text, Kotlin.IsSelfContained entry :=
      List.forall_mem_map.mpr fun argument _ => argument.balanced.isSelfContained
    have inked : ∀ entry ∈ arguments.map text, isBlankText entry = false :=
      List.forall_mem_map.mpr fun argument _ => argument.isBlankText_text
    have mapped : (arguments.map text).map (mapType · false) = arguments.map swift := by
      rw [List.map_map]
      exact List.map_congr_left inner
    rw [text_apply, swift_apply, name.mapType_applied selfContained inked, mapped]

end TypeExpr

/-- Mapping types is a homomorphism: the Swift type for the text of a type is made of those for its
parts, at every depth and whatever blanks stand around the arguments. A null mark is rendered behind
all that renders the type it belongs to, and not at all behind the void type. -/
theorem mapType_typeExpr :
    (∀ type : TypeExpr, mapType type.text false = type.swift) ∧
      ∀ (before : Blanks) (name : DottedName) (arguments : List TypeExpr) (after : Blanks),
        let base := name.applied (arguments.map TypeExpr.swift)
        (mapType (TypeExpr.apply before name arguments true after).text false).render =
          .ok (base.text ++ if base.isVoid then [] else ['?']) := by
  refine ⟨TypeExpr.mapType_text, fun before name arguments after => ?_⟩
  have renderable := defect?_mapType (TypeExpr.apply before name arguments true after).text false
  dsimp only
  rw [SwiftType.render_eq renderable, TypeExpr.mapType_text, TypeExpr.swift_apply, SwiftType.orNull]
  cases (name.applied (arguments.map TypeExpr.swift)).isVoid with
  | false => rfl
  | true => simp

end DeclBridge.Swift
