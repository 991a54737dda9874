import DeclBridge.Proofs.TypeExpressions
import DeclBridge.Proofs.TypeGrammar

/-! Function types have no form of their own in Swift types and are kept as names, alone as well as
in containers. The table of scalars is asked for what stands behind the last point of a name,
though, and does not tell a function type from the qualified name it may end with. -/

namespace DeclBridge.Swift

open Text

def functionType (parameters result : Text) : Text :=
  '(' :: parameters ++ ") -> ".toList ++ result

/-- The text ends with a point and the name of a scalar. -/
def EndsInScalar (text : Text) : Prop :=
  ∃ front scalar, text = front ++ '.' :: scalar ∧ IsScalar scalar

/-! Names of scalars -/

theorem isWord_of_isScalar {scalar : Text} (known : IsScalar scalar) : IsWord scalar := by
  have words : ∀ entry ∈ scalars, IsWord entry.1 := by decide
  obtain ⟨entry, member, same⟩ := List.lookup_isSome_iff.mp known
  rw [eq_of_beq same]
  exact words entry member

theorem not_mem_of_isScalar {mark : Char} {scalar : Text} (known : IsScalar scalar)
    (outside : isWordChar mark = false) : mark ∉ scalar :=
  (isWord_of_isScalar known).not_mem outside

theorem afterLast_of_endsInScalar {front scalar : Text} (known : IsScalar scalar) :
    afterLast '.' (front ++ '.' :: scalar) = scalar :=
  afterLast_append_cons (not_mem_of_isScalar known (by decide)) front

theorem endsInScalar_append_cons_iff {front tail : Text} (absent : '.' ∉ tail) :
    EndsInScalar (front ++ '.' :: tail) ↔ IsScalar tail := by
  refine ⟨fun ⟨other, scalar, same, known⟩ => ?_, fun known => ⟨front, tail, rfl, known⟩⟩
  have last := congrArg (afterLast '.') same
  rw [afterLast_append_cons absent, afterLast_of_endsInScalar known] at last
  exact last ▸ known

/-- Only the result of a function type can be taken for a scalar. -/
theorem isScalar_afterLast_functionType (parameters result : Text) :
    IsScalar (afterLast '.' (functionType parameters result)) ↔ EndsInScalar result := by
  by_cases point : '.' ∈ result
  · obtain ⟨front, tail, rfl, absent⟩ := exists_last_of_mem point
    rw [functionType, ← List.append_assoc, afterLast_append_cons absent,
      endsInScalar_append_cons_iff absent]
  · have head : '.' ∉ ") -> ".toList := by decide
    rw [functionType, afterLast_append point, afterLast_append head]
    refine iff_of_false (fun known => ?_) fun ⟨front, scalar, same, _⟩ => point (by simp [same])
    exact not_mem_of_isScalar known (show isWordChar ')' = false by decide) (by simp)

/-! Texts without a container -/

/-- A container is a name in front of brackets, the last of which ends the text. -/
theorem exists_of_containerOf? {name container inner : Text}
    (found : containerOf? name = some (container, inner)) :
    container ≠ [] ∧ (∀ c ∈ container, isDottedChar c = true) ∧
      ∃ blanks, name = container ++ blanks ++ '<' :: inner ++ ['>'] := by
  obtain ⟨⟨front, behind⟩, named, found⟩ := Option.bind_eq_some_iff.mp found
  obtain ⟨rest, opened, found⟩ := Option.bind_eq_some_iff.mp found
  rw [mark?_eq] at opened
  have skipped : skipBlanks behind = '<' :: rest := behind?_eq_some_iff.mp opened
  have gap : behind = behind.takeWhile isBlank ++ '<' :: rest := by
    rw [← skipped, skipBlanks, List.takeWhile_append_dropWhile]
  obtain ⟨nonempty, taken, left⟩ := run?_eq_some_iff.mp named
  have whole : name = front ++ behind := by rw [← taken, ← left, List.takeWhile_append_dropWhile]
  split at found
  · next last =>
    obtain ⟨init, rfl⟩ := List.getLast?_eq_some_iff.mp last
    cases found
    refine ⟨nonempty, fun c inside => List.mem_takeWhile_imp (taken ▸ inside),
      behind.takeWhile isBlank, ?_⟩
    rw [List.dropLast_concat, whole]
    nth_rewrite 1 [gap]
    simp
  · cases found

theorem containerOf?_eq_none {name : Text} (last : name.getLast? ≠ some '>') :
    containerOf? name = none := by
  cases found : containerOf? name with
  | none => rfl
  | some generic =>
    obtain ⟨-, -, blanks, same⟩ := exists_of_containerOf? found
    exact absurd (by rw [same, List.getLast?_concat]) last

theorem mapBase_eq_mapName {name : Text} (inhabited : name ∉ voidNames)
    (single : containerOf? name = none) : mapBase name = mapName name := by
  simp [mapBase, inhabited, single]

/-- Whatever ends in the qualified name of a scalar is mapped to the scalar. -/
theorem mapType_of_scalar {scalar swift : Text} (found : scalars.lookup scalar = some swift)
    (front : Text) : mapType (front ++ '.' :: scalar) false = .named swift := by
  have known : IsScalar scalar := by rw [IsScalar, found, Option.isSome_some]
  have isWord := isWord_of_isScalar known
  have last (front : Text) {mark : Char} (outside : isWordChar mark = false) :
      (front ++ '.' :: scalar).getLast? ≠ some mark := by
    rw [List.append_cons, List.getLast?_append_of_ne_nil _ isWord.nonempty]
    exact fun last => isWord.not_mem outside (List.mem_of_getLast? last)
  have trimmed : trim (front ++ '.' :: scalar) = skipBlanks front ++ '.' :: scalar := by
    rw [trim_append_cons (by decide), isWord.isPlain.trimmed.trimmedEnd]
  have unmarked : withoutNullMark (front ++ '.' :: scalar) =
      (skipBlanks front ++ '.' :: scalar, false) := by
    rw [withoutNullMark, trimmed, if_neg (last _ (by decide))]
  have pointless : ∀ void ∈ voidNames, '.' ∉ void := by decide
  have inhabited : skipBlanks front ++ '.' :: scalar ∉ voidNames :=
    fun void => pointless _ void (by simp)
  rw [mapType_eq, unmarked]
  dsimp only
  rw [mapBase_eq_mapName inhabited (containerOf?_eq_none (last _ (by decide))), mapName,
    afterLast_of_endsInScalar known, found]
  rfl

/-! What is mapped to a name in parentheses -/

theorem name_of_mapName {name rest : Text} (mapped : mapName name = .named ('(' :: rest)) :
    name = '(' :: rest := by
  have letters : ∀ entry ∈ scalars, '(' ∉ entry.2 := by decide
  unfold mapName at mapped
  split at mapped
  · next swift found =>
    obtain ⟨before, after, entries, -⟩ := List.lookup_eq_some_iff.mp found
    have outside := letters (afterLast '.' name, swift) (by rw [entries]; simp)
    cases mapped
    exact absurd List.mem_cons_self outside
  · split at mapped
    · cases mapped
    · exact SwiftType.named.inj mapped

theorem mapGeneric_ne_round {simple : Text} (outside : '(' ∉ simple) (arguments : List SwiftType)
    (rest : Text) : mapGeneric simple arguments ≠ .named ('(' :: rest) := by
  have kept (inner : Text) :
      SwiftType.named (simple ++ '<' :: inner ++ ['>']) ≠ .named ('(' :: rest) := by
    intro same
    cases simple with
    | nil => cases same
    | cons c simple =>
      have first := (List.cons.inj (SwiftType.named.inj same)).1
      exact outside (first ▸ List.mem_cons_self)
  unfold mapGeneric
  split
  · split
    · simp
    · exact kept _
  · split
    · simp
    · exact kept _
  · exact kept _

/-- What begins with a parenthesis is the name of no shorter type. -/
theorem length_le_of_mapType_round {text rest : Text}
    (mapped : mapType text false = .named ('(' :: rest)) : ('(' :: rest).length ≤ text.length := by
  suffices same : (withoutNullMark text).1 = '(' :: rest by
    rw [← same]
    exact length_withoutNullMark_le text
  have base : mapBase (withoutNullMark text).1 = .named ('(' :: rest) := by
    rw [mapType_eq] at mapped
    dsimp only at mapped
    split at mapped
    · cases mapped
    · exact mapped
  rw [mapBase] at base
  split at base
  · cases base
  · cases found : containerOf? (withoutNullMark text).1 with
    | none =>
      rw [found] at base
      exact name_of_mapName base
    | some generic =>
      obtain ⟨-, dotted, -⟩ := exists_of_containerOf? found
      rw [found] at base
      refine absurd base (mapGeneric_ne_round (fun inside => ?_) _ rest)
      exact absurd (dotted _ (afterLast_subset _ _ inside)) (by decide)

/-! Function types -/

section

variable {parameters result : Text} (ends : ∃ c ∈ result.getLast?, isBlank c = false ∧ c ≠ '?')
include ends

theorem getLast?_functionType : (functionType parameters result).getLast? = result.getLast? := by
  obtain ⟨c, last, -⟩ := ends
  have nonempty : result ≠ [] := by
    rintro rfl
    cases last
  rw [functionType, List.getLast?_append_of_ne_nil _ nonempty]

theorem isTrimmed_functionType : IsTrimmed (functionType parameters result) := by
  refine isTrimmed_iff.mpr ⟨by rintro _ ⟨⟩; decide, fun d last => ?_⟩
  rw [getLast?_functionType ends] at last
  obtain ⟨c, found, ink, -⟩ := ends
  rwa [Option.mem_unique last found]

theorem withoutNullMark_functionType :
    withoutNullMark (functionType parameters result) = (functionType parameters result, false) := by
  have unmarked : (functionType parameters result).getLast? ≠ some '?' := by
    rw [getLast?_functionType ends]
    obtain ⟨c, found, -, differs⟩ := ends
    exact fun mark => differs (Option.mem_unique found mark)
  rw [withoutNullMark, isTrimmed_functionType ends, if_neg unmarked]

theorem mapType_functionType_eq :
    mapType (functionType parameters result) false = mapName (functionType parameters result) := by
  have inhabited : functionType parameters result ∉ voidNames := by
    have letters : ∀ void ∈ voidNames, '(' ∉ void := by decide
    exact fun void => letters _ void (by simp [functionType])
  rw [mapType_eq, withoutNullMark_functionType ends]
  dsimp only
  rw [mapBase_eq_mapName inhabited rfl]
  rfl

/-- A function type is kept unless its result ends in the qualified name of a scalar. -/
theorem mapType_functionType_kept (other : ¬EndsInScalar result) :
    mapType (functionType parameters result) false = .named (functionType parameters result) := by
  have unknown := mt (isScalar_afterLast_functionType parameters result).mp other
  have absent : scalars.lookup (afterLast '.' (functionType parameters result)) = none :=
    Option.not_isSome_iff_eq_none.mp unknown
  have long : isTypeParameter (functionType parameters result) = false := by
    unfold functionType isTypeParameter
    cases parameters <;> rfl
  rw [mapType_functionType_eq ends, mapName, absent]
  simp [long]

end

/-- Otherwise it is mapped as its result is. -/
theorem mapType_functionType_collapsed {result : Text} (scalar : EndsInScalar result)
    (parameters : Text) :
    mapType (functionType parameters result) false = mapType result false := by
  obtain ⟨front, scalar, rfl, known⟩ := scalar
  obtain ⟨swift, found⟩ := Option.isSome_iff_exists.mp known
  rw [functionType, ← List.append_assoc, mapType_of_scalar found, mapType_of_scalar found]

theorem mapType_result_ne (parameters result : Text) :
    mapType result false ≠ .named (functionType parameters result) := by
  intro mapped
  have short : (functionType parameters result).length ≤ result.length :=
    length_le_of_mapType_round mapped
  simp only [functionType, List.cons_append, List.length_cons, List.length_append] at short
  omega

end DeclBridge.Swift

/-! Function types among the types of a list -/

namespace DeclBridge.Kotlin

open Text

namespace IsTypeText

variable {isMarked : Bool} {text : Text}

/-- Looking for the next comma passes over a type. -/
theorem takes (type : IsTypeText isMarked text) {state : Nesting} (opened : state.IsOpen false) :
    state.Takes text state := by
  have name {name : Text} (dotted : ∀ c ∈ name, isDottedChar c = true) : state.Takes name state :=
    (Balanced.of_dotted dotted).takes opened
  have gap {blanks : Text} (blank : ∀ c ∈ blanks, isBlank c = true) : state.Takes blanks state :=
    (Balanced.of_blank blank).takes opened
  induction type with
  | named _ dotted => exact name dotted
  | generic _ dotted enclosed =>
    rw [List.append_assoc]
    exact (name dotted).trans (enclosed.takes .angle opened)
  | grouped enclosed => exact enclosed.takes .round opened
  | @function _ parameters before after result enclosed leading trailing _ ih =>
    have list := enclosed.takes .round opened
    have arrow := (gap leading).trans (opened.takes_arrow.trans ((gap trailing).trans ih))
    simpa [Bracket.opener, Bracket.closer] using list.trans arrow
  | marked _ ih =>
    have mark : Balanced false ['?'] := .cons (by decide) .nil
    exact ih.trans (mark.takes opened)

theorem isSelfContained (type : IsTypeText isMarked text) : IsSelfContained text :=
  isSelfContained_of_takes fun _ => type.takes

end IsTypeText

end DeclBridge.Kotlin

namespace DeclBridge.Swift

open Text

/-! Containers -/

namespace SwiftType

/-- What a container holds. An optional holds what the type does that it is the optional of. -/
def contents : SwiftType → List SwiftType
  | optional wrapped => wrapped.contents
  | array element => [element]
  | dictionary key value => [key, value]
  | _ => []

/-- Goes down into a container at each index. -/
def at? (type : SwiftType) : List Nat → Option SwiftType
  | [] => some type
  | index :: path => type.contents[index]?.bind (·.at? path)

end SwiftType

/-- A text is an argument of a container, which may be one of another container. The indices are
told from the outside. -/
inductive ArgumentAt (inner : Text) : List Nat → Text → Prop where
  | here (before after : Blanks) : ArgumentAt inner [] (before.text ++ inner ++ after.text)
  | inside (before : Blanks) (name : DottedName) {arguments} (isNullable : Bool) (after : Blanks)
    (container : IsContainer name.simple.text arguments.length)
    (selfContained : ∀ argument ∈ arguments, Kotlin.IsSelfContained argument)
    (inked : ∀ argument ∈ arguments, isBlankText argument = false)
    {index path argument} (found : arguments[index]? = some argument)
    (within : ArgumentAt inner path argument) :
    ArgumentAt inner (index :: path)
      (before.text ++ (name.text ++ argumentClause arguments ++ nullMark isNullable) ++ after.text)

theorem DottedName.contents_applied {name : DottedName} {arguments : List SwiftType}
    (container : IsContainer name.simple.text arguments.length) (isNullable : Bool) :
    ((name.applied arguments).orNull isNullable).contents = arguments := by
  rcases container with ⟨array, single⟩ | ⟨dictionary, pair⟩
  · obtain ⟨element, rfl⟩ := List.length_eq_one_iff.mp single
    have applied : name.applied [element] = .array element := by simp [applied, array]
    rw [applied]
    cases isNullable <;> rfl
  · obtain ⟨key, value, rfl⟩ := List.length_eq_two.mp pair
    have applied : name.applied [key, value] = .dictionary key value := by
      simp [applied, dictionary]
    rw [applied]
    cases isNullable <;> rfl

theorem ArgumentAt.at?_mapType {inner outer : Text} {path : List Nat} (trimmed : IsTrimmed inner)
    (argument : ArgumentAt inner path outer) :
    (mapType outer false).at? path = some (mapType inner false) := by
  induction argument with
  | here before after =>
    have same := trimmed.trim_padded before.blank after.blank
    rw [SwiftType.at?, ← mapType_trim, same]
  | inside before name isNullable after container selfContained inked found _ ih =>
    rw [name.mapType_applied selfContained inked, SwiftType.at?,
      DottedName.contents_applied (by simpa using container), List.getElem?_map, found]
    exact ih

/-- A function type is mapped to a name with its whole text, and wherever it is an argument of
containers the type they hold there has this name, unless its result ends in the qualified name of a
scalar. It is mapped as its result is just in the latter case. Function types that are made of type
texts are arguments as they stand. -/
theorem mapType_functionType (parameters : Text) {result : Text}
    (ends : ∃ c ∈ result.getLast?, isBlank c = false ∧ c ≠ '?') :
    let type := functionType parameters result
    (mapType type false = .named type ↔ ¬EndsInScalar result) ∧
      (mapType type false = mapType result false ↔ EndsInScalar result) ∧
      (∀ path outer, ArgumentAt type path outer →
        ((mapType outer false).at? path = some (.named type) ↔ ¬EndsInScalar result)) ∧
      ∀ isMarked, Kotlin.IsEnclosed parameters → Kotlin.IsTypeText isMarked result →
        Kotlin.IsSelfContained type := by
  intro type
  have other := mapType_result_ne parameters result
  have named : mapType type false = .named type ↔ ¬EndsInScalar result := by
    refine ⟨fun kept scalar => other ?_, mapType_functionType_kept ends⟩
    rw [← mapType_functionType_collapsed scalar parameters]
    exact kept
  refine ⟨named, ⟨fun same => ?_, fun scalar => mapType_functionType_collapsed scalar _⟩, ?_, ?_⟩
  · by_contra unlike
    exact other (same ▸ mapType_functionType_kept ends unlike)
  · intro path outer argument
    rw [argument.at?_mapType (isTrimmed_functionType ends), Option.some_inj]
    exact named
  · intro isMarked enclosed isType
    have blank : ∀ c ∈ [' '], isBlank c = true := by decide
    have whole : Kotlin.IsTypeText false type := by
      have arrow := Kotlin.IsTypeText.function enclosed blank blank isType
      simpa [type, functionType] using arrow
    exact whole.isSelfContained

/-- The values of a dictionary are functions to lists. -/
theorem mapType_functionType_values :
    (mapType "Map<String, (kotlin.Int) -> List<T>>?".toList false).at? [1] =
      some (.named "(kotlin.Int) -> List<T>".toList) := by
  have ends : ∃ c ∈ "List<T>".toList.getLast?, isBlank c = false ∧ c ≠ '?' :=
    ⟨'>', by decide, by decide, by decide⟩
  have other : ¬EndsInScalar "List<T>".toList := by
    rintro ⟨front, scalar, same, -⟩
    have pointless : '.' ∉ "List<T>".toList := by decide
    exact pointless (by rw [same]; simp)
  have list : ∀ argument ∈ ["String".toList, " (kotlin.Int) -> List<T>".toList],
      Kotlin.IsSelfContained argument ∧ isBlankText argument = false := by decide
  have value : ArgumentAt (functionType "kotlin.Int".toList "List<T>".toList) []
      " (kotlin.Int) -> List<T>".toList := .here ⟨[' '], by decide⟩ {}
  have argument : ArgumentAt (functionType "kotlin.Int".toList "List<T>".toList) [1]
      "Map<String, (kotlin.Int) -> List<T>>?".toList :=
    .inside {} ⟨[], ⟨"Map".toList, by decide⟩⟩ true {} (.inr ⟨by decide, rfl⟩)
      (fun argument member => (list argument member).1)
      (fun argument member => (list argument member).2) rfl value
  exact ((mapType_functionType "kotlin.Int".toList ends).2.2.1 [1] _ argument).mpr other

/-- A function to a qualified scalar is lost. -/
theorem mapType_functionType_string :
    mapType "(Int) -> kotlin.String".toList false = .named "String".toList := by
  rw [mapType_eq]
  decide +kernel

end DeclBridge.Swift
