import DeclBridge.Proofs.DeclarationReadings

/-! Generic arguments of a source. The scan reads on behind a `<`, and what it finds there is the
argument of the bracket at the offset of the `<`. -/

namespace DeclBridge.Text

/-! Words between blanks -/

theorem words_append_cons (front : Text) {c : Char} (blank : isBlank c = true) (back : Text) :
    words (front ++ c :: back) = words front ++ words back := by
  rw [words, List.splitOnP_append_cons _ _ blank, List.filter_append, words, words]

theorem words_blanks_append {blanks : Text} (blank : ∀ c ∈ blanks, isBlank c = true)
    (text : Text) : words (blanks ++ text) = words text := by
  induction blanks with
  | nil => rfl
  | cons c blanks ih =>
    obtain ⟨first, rest⟩ := List.forall_mem_cons.mp blank
    exact (words_append_cons [] first (blanks ++ text)).trans (ih rest)

theorem words_append_blanks {blanks : Text} (blank : ∀ c ∈ blanks, isBlank c = true)
    (text : Text) : words (text ++ blanks) = words text := by
  cases blanks with
  | nil => rw [List.append_nil]
  | cons c blanks =>
    obtain ⟨first, rest⟩ := List.forall_mem_cons.mp blank
    have nothing : words blanks = [] := by
      rw [← List.append_nil blanks, words_blanks_append rest []]
      rfl
    rw [words_append_cons text first, nothing, List.append_nil]

theorem collapse_trim (text : Text) : collapse (trim text) = collapse text := by
  obtain ⟨front, back, whole, frontBlank, backBlank⟩ := exists_trim text
  have same : words text = words (trim text) := by
    conv_lhs => rw [whole]
    rw [words_append_blanks backBlank, words_blanks_append frontBlank]
  rw [collapse, collapse, same]

theorem trim_eq_nil_iff {text : Text} : trim text = [] ↔ isBlankText text = true := by
  constructor
  · intro empty
    by_contra inked
    exact trim_ne_nil (Bool.eq_false_iff.mpr inked) empty
  · intro blank
    rw [isBlankText, List.all_eq_true] at blank
    have skipped : skipBlanks text = [] := List.dropWhile_eq_nil_iff.mpr blank
    rw [trim, skipped]
    rfl

theorem suffix_of_mark? {expected : Char} {text rest : Text}
    (read : mark? expected text = some rest) : expected :: rest <:+ text := by
  rw [mark?_eq, behind?_eq_some_iff] at read
  have skipped : skipBlanks text <:+ text := List.dropWhile_suffix isBlank
  rwa [read] at skipped

end DeclBridge.Text

namespace DeclBridge.Kotlin

open Text

/-! Arguments behind a bracket -/

/-- Directly behind a `<` stands the argument of the bracket that opens there. -/
theorem genericArgument_of_suffix {text rest : Text} (behind : '<' :: rest <:+ text) :
    genericArgument text (text.length - rest.length - 1) =
      .ok ((Bracket.angle.inside rest).map fun (inner, _) => trim inner) := by
  obtain ⟨front, rfl⟩ := behind
  have offset : (front ++ '<' :: rest).length - rest.length - 1 = front.length := by
    simp
    omega
  rw [offset, genericArgument, bracketed, List.drop_left]
  cases closed : Bracket.angle.inside rest <;>
    simp [Bracket.ofOpener?, closed, Except.map]

/-- The type that an argument stands for, unless it is empty. -/
def argumentType (argument : Option Text) : Option Text :=
  (argument.filter (!·.isEmpty)).map collapse

theorem elementType?_eq_argumentType {text rest : Text} (behind : '<' :: rest <:+ text) :
    (genericArgument text (text.length - rest.length - 1)).map argumentType =
      .ok (Source.elementType? rest) := by
  rw [genericArgument_of_suffix behind, Source.elementType?]
  refine congrArg Except.ok ?_
  cases Bracket.angle.inside rest with
  | none => rfl
  | some answer =>
    obtain ⟨inner, after⟩ := answer
    by_cases blank : isBlankText inner = true
    · simp [argumentType, trim_eq_nil_iff.mpr blank, blank]
    · have filled : trim inner ≠ [] := fun empty => blank (trim_eq_nil_iff.mp empty)
      simp [argumentType, filled, blank, collapse_trim]

/-! Where flow types open -/

theorem suffix_of_afterColon? {text rest : Text} (read : afterColon? text = some rest) :
    rest <:+ text :=
  isOuter_quote.stopsAt_afterColon?.suffix text () rest (congrArg (Option.map _) read)

theorem suffix_of_afterFlowType? {text rest : Text} (read : afterFlowType? text = some rest) :
    '<' :: rest <:+ text := by
  obtain ⟨⟨type, behind⟩, named, read⟩ := Option.bind_eq_some_iff.mp read
  have inside := isOuter_quote.stopsAt_dotted?.suffix text type behind named
  dsimp only at read
  split at read
  · exact (suffix_of_mark? read).trans inside
  · cases read

theorem suffix_of_afterFlowReturn? {text rest : Text} (read : afterFlowReturn? text = some rest) :
    '<' :: rest <:+ text := by
  obtain ⟨behind, colon, read⟩ := Option.bind_eq_some_iff.mp read
  exact (suffix_of_afterFlowType? read).trans (suffix_of_afterColon? colon)

theorem suffix_of_flowPropertyHeader? {text name rest : Text}
    (read : flowPropertyHeader? text = some (name, rest)) : '<' :: rest <:+ text := by
  obtain ⟨⟨keyword, behind⟩, begun, read⟩ := Option.bind_eq_some_iff.mp read
  obtain ⟨⟨other, after⟩, named, read⟩ := Option.bind_eq_some_iff.mp read
  obtain ⟨type, colon, read⟩ := Option.bind_eq_some_iff.mp read
  obtain ⟨last, opened, same⟩ := Option.bind_eq_some_iff.mp read
  cases same
  have modifiers := isOuter_quote.stopsAt_skipModifiers.suffix text () (skipModifiers text) rfl
  have keywords := (isOuter_quote.stopsAt_oneKeyword? (by decide)).suffix _ _ _ begun
  have word := isOuter_quote.stopsAt_word?.suffix _ _ _ named
  have flow := (suffix_of_afterFlowType? opened).trans (suffix_of_afterColon? colon)
  exact flow.trans (word.trans (keywords.trans modifiers))

namespace Source

variable {source : Source}

/-- A header with a marker is read from a part of the source up to the end, and what follows it is
given by its length. -/
theorem exists_header_of_mem_places {names : List String} {header? : Text → Option (α × Text)}
    (reads : ∀ text found rest, header? text = some (found, rest) → rest <:+ text)
    {place : Occurrence (Marked α)}
    (member : place ∈ source.places fun _ => marked? names header?) :
    ∃ unmarked, header? unmarked = some (place.found.header, place.rest) ∧
      unmarked <:+ source.masked ∧ place.stop = source.masked.length - place.rest.length := by
  have marked : ∀ (_ : Option Char) (text : Text) (found : Marked α) (rest : Text),
      marked? names header? text = some (found, rest) → rest <:+ text := by
    intro _ text found rest read
    obtain ⟨marker, unmarked, -, -, rfl, headed⟩ := exists_marker_of_marked? read
    exact (reads _ _ _ headed).trans (List.suffix_append marker unmarked)
  obtain ⟨_, here, read, inside, -, -, stop⟩ :=
    exists_read_of_mem_occurrencesFrom marked (List.mem_filter.mp member).1
  obtain ⟨marker, unmarked, -, -, rfl, headed⟩ := exists_marker_of_marked? read
  exact ⟨unmarked, headed, (List.suffix_append marker unmarked).trans inside, by omega⟩

theorem genericArgument_sumType {place : Occurrence (Marked Text)}
    (member : place ∈ source.places fun _ => marked? ["SwiftEnum"] sealedHeader?) {rest : Text}
    (opened : place.rest = '<' :: rest) :
    genericArgument source.masked place.stop =
      .ok ((Bracket.angle.inside rest).map fun (inner, _) => trim inner) := by
  have reads := isOuter_quote.stopsAt_sealedHeader?.suffix
  obtain ⟨unmarked, headed, inside, stop⟩ := exists_header_of_mem_places reads member
  have behind := (reads _ _ _ headed).trans inside
  rw [opened] at behind stop
  rw [stop, List.length_cons, Nat.sub_add_eq]
  exact genericArgument_of_suffix behind

theorem genericArgument_flowProperty {place : Occurrence (Marked Text)}
    (member : place ∈ source.places fun _ => marked? ["SwiftFlow"] flowPropertyHeader?) :
    (genericArgument source.masked (place.stop - 1)).map argumentType =
      .ok (elementType? place.rest) := by
  obtain ⟨unmarked, headed, inside, stop⟩ :=
    exists_header_of_mem_places isOuter_quote.stopsAt_flowPropertyHeader?.suffix member
  rw [stop]
  exact elementType?_eq_argumentType ((suffix_of_flowPropertyHeader? headed).trans inside)

theorem genericArgument_flowFunction {place : Occurrence (Marked (Bool × FunctionHeader))}
    (member : place ∈ source.places fun _ => marked? ["SwiftFlow"] anyFunctionHeader?)
    {inner after rest : Text} (parameters : Bracket.round.inside place.rest = some (inner, after))
    (returned : afterFlowReturn? after = some rest) :
    (genericArgument source.masked (source.masked.length - rest.length - 1)).map argumentType =
      .ok (elementType? rest) := by
  have reads := (respects_anyFunctionHeader? [] List.not_mem_nil isBlanked_nil).suffix
  obtain ⟨unmarked, headed, inside, -⟩ := exists_header_of_mem_places reads member
  have behind := (respects_inside [] .round List.not_mem_nil isBlanked_nil).suffix _ _ _ parameters
  exact elementType?_eq_argumentType <| (suffix_of_afterFlowReturn? returned).trans <|
    behind.trans ((reads _ _ _ headed).trans inside)

end Source

/-! The arguments of declarations -/

theorem exists_of_argumentType {argument : Except BracketFault (Option Text)} {type : Text}
    (found : argument.map argumentType = .ok (some type)) :
    ∃ inner, argument = .ok (some inner) ∧ inner ≠ [] ∧ type = collapse inner := by
  match argument, found with
  | .ok (some inner), found =>
    obtain ⟨other, kept, rfl⟩ := Option.map_eq_some_iff.mp (Except.ok.inj found)
    obtain ⟨same, filled⟩ := Option.filter_eq_some_iff.mp kept
    cases same
    exact ⟨inner, rfl, by simpa using filled, rfl⟩

namespace Source

variable {source : Source}

/-- The element type of a stream is a generic argument in the source. -/
theorem exists_genericArgument_of_mem_streams {stream : Stream} (member : stream ∈ source.streams) :
    ∃ offset argument, genericArgument source.masked offset = .ok (some argument) ∧
      argument ≠ [] ∧ stream.elementType = collapse argument := by
  rw [streams, List.mem_append, List.mem_filterMap, List.mem_filterMap] at member
  rcases member with ⟨place, located, read⟩ | ⟨place, located, read⟩
  · unfold flowFunction? at read
    dsimp only at read
    split at read
    · cases read
    obtain ⟨⟨inner, after⟩, parameters, read⟩ := Option.bind_eq_some_iff.mp read
    obtain ⟨rest, returned, read⟩ := Option.bind_eq_some_iff.mp read
    obtain ⟨type, element, same⟩ := Option.bind_eq_some_iff.mp read
    cases same
    have found := genericArgument_flowFunction located parameters returned
    rw [element] at found
    exact ⟨_, exists_of_argumentType found⟩
  · obtain ⟨type, element, same⟩ := Option.bind_eq_some_iff.mp read
    cases same
    have found := genericArgument_flowProperty located
    rw [element] at found
    exact ⟨_, exists_of_argumentType found⟩

/-- The type parameters of a sum type are those of a generic argument in the source. -/
theorem exists_genericArgument_of_mem_sumTypes {sum : SumType} (member : sum ∈ source.sumTypes) :
    sum.typeParameters = [] ∨
      ∃ offset argument, genericArgument source.masked offset = .ok (some argument) ∧
        sum.typeParameters = typeParameters argument := by
  obtain ⟨place, closed, read⟩ := List.mem_filterMap.mp member
  have located := (List.mem_filter.mp closed).1
  unfold sumType? at read
  dsimp only at read
  split at read
  · next rest opened =>
    obtain ⟨parameters, clause, same⟩ := Option.bind_eq_some_iff.mp read
    obtain ⟨⟨inner, after⟩, enclosed, rfl⟩ := Option.map_eq_some_iff.mp clause
    cases same
    have found := genericArgument_sumType located opened
    rw [enclosed] at found
    exact .inr ⟨place.stop, trim inner, found, rfl⟩
  · cases read
    exact .inl rfl

end Source
end DeclBridge.Kotlin
