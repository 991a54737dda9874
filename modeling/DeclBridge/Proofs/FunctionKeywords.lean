import DeclBridge.Proofs.HeaderKeywords
import DeclBridge.Proofs.SourceOrder

/-! Where the keyword `fun` of a declaration stands. Asynchronous functions and streams are searched
for independently, each from left to right and over what was found before. Still no keyword belongs
to one of each. -/

namespace DeclBridge.Kotlin

open Text Syntax

variable {α β : Type}

/-! The keyword of a header -/

/-- A header from the keyword `fun` on. -/
def fromFunction (text : Text) : Text :=
  let rest := skipModifiers text
  skipModifiers ((keyword? "suspend" rest).getD rest)

theorem suspendHeader?_eq_some_iff {text rest : Text} {header : FunctionHeader} :
    suspendHeader? text = some (header, rest) ↔
      keyword? "suspend" (skipModifiers text) ≠ none ∧
        functionHeader? (fromFunction text) = some (header, rest) := by
  unfold suspendHeader? fromFunction
  cases found : keyword? "suspend" (skipModifiers text) <;> simp [found]

theorem anyFunctionHeader?_eq_some_iff {text rest : Text} {suspends : Bool}
    {header : FunctionHeader} :
    anyFunctionHeader? text = some ((suspends, header), rest) ↔
      (keyword? "suspend" (skipModifiers text)).isSome = suspends ∧
        functionHeader? (fromFunction text) = some (header, rest) := by
  unfold anyFunctionHeader? fromFunction
  cases found : keyword? "suspend" (skipModifiers text) with
  | none =>
    cases read : functionHeader? (skipModifiers (skipModifiers text)) <;>
      simp [found, read, Prod.ext_iff, and_assoc]
  | some behind =>
    cases read : functionHeader? (skipModifiers behind) <;>
      simp [found, read, Prod.ext_iff, and_assoc]

/-- The header of a function begins with its keyword and ends with a parenthesis. -/
theorem exists_of_functionHeader? {text rest : Text} {header : FunctionHeader}
    (read : functionHeader? text = some (header, rest)) :
    keyword? "fun" text ≠ none ∧ ∃ used, text = used ++ '(' :: rest := by
  obtain ⟨behind, isFunction, read⟩ := Option.bind_eq_some_iff.mp read
  have respects : Respects [] [] [] (fun _ => ()) _ :=
    respects_typeClause [] List.not_mem_nil isBlanked_nil
  have clause := respects.suffix behind _ _ rfl
  obtain ⟨⟨name, after⟩, named, read⟩ := Option.bind_eq_some_iff.mp read
  obtain ⟨last, opened, same⟩ := Option.bind_eq_some_iff.mp read
  obtain rfl : last = rest := congrArg Prod.snd (Option.some.inj same)
  obtain ⟨blanks, -, whole⟩ := exists_gap_of_keyword? isFunction
  have round : '(' :: last <:+ after := by
    rw [mark?_eq] at opened
    rw [← List.singleton_append, ← behind?_eq_some_iff.mp opened]
    exact List.dropWhile_suffix isBlank
  have word := isOuter_quote.stopsAt_word?.suffix _ _ _ named
  obtain ⟨used, inner⟩ := (round.trans word).trans clause
  refine ⟨by simp [isFunction], "fun".toList ++ (blanks ++ used), ?_⟩
  rw [whole, ← inner]
  simp only [List.append_assoc]

/-- What stands before the keyword of a function that suspends, from `suspend` on. -/
structure IsSuspending (run rest : Text) : Prop where
  head : run.head? = some 's'
  phrase : ∀ c ∈ run, isWordChar c = true ∨ isBlank c = true
  suspends : keyword? "suspend" (run ++ rest) ≠ none
  unmodified : skipModifiers (run ++ rest) = run ++ rest
  function : fromFunction (run ++ rest) = rest

theorem exists_of_suspends {text : Text}
    (suspends : keyword? "suspend" (skipModifiers text) ≠ none) :
    ∃ lead run, IsSuspending run (fromFunction text) ∧
      text = lead ++ (run ++ fromFunction text) := by
  obtain ⟨behind, found⟩ := Option.ne_none_iff_exists'.mp suspends
  obtain ⟨lead, -, whole⟩ := exists_skipModifiers text
  obtain ⟨blanks, gap, same⟩ := exists_gap_of_keyword? found
  obtain ⟨front, modified, rest⟩ := exists_skipModifiers behind
  have function : fromFunction text = skipModifiers behind := by simp [fromFunction, found]
  have run : skipModifiers text = "suspend".toList ++ blanks ++ front ++ fromFunction text := by
    rw [same, function, List.append_assoc, List.append_assoc, ← rest]
  have quiet : IsQuiet modifiers behind ("suspend".toList ++ blanks) :=
    isQuiet_keyword (by decide) (by decide) (by decide) gap behind
  have unmodified : skipModifiers (skipModifiers text) = skipModifiers text := by
    have here := quiet.head (by simp)
    rw [List.append_assoc, ← same] at here
    exact here.skipModifiers_eq (List.Subset.refl _)
  have letters : ∀ c ∈ "suspend".toList, isWordChar c = true := by decide
  refine ⟨lead, "suspend".toList ++ blanks ++ front, ⟨rfl, ?_, ?_, ?_, ?_⟩, ?_⟩
  · refine List.forall_mem_append.mpr ⟨List.forall_mem_append.mpr ⟨?_, ?_⟩, modified.phrase⟩
    · exact fun c inside => .inl (letters c inside)
    · exact fun c inside => .inr (gap.blank c inside)
  · rwa [← run]
  · rwa [← run]
  · rw [← run]
    simp [fromFunction, unmodified, found]
  · rw [← run]
    exact whole

theorem exists_of_not_suspends {text : Text}
    (single : keyword? "suspend" (skipModifiers text) = none) :
    ∃ front, IsModifiers front ∧ text = front ++ fromFunction text := by
  obtain ⟨front, modified, whole⟩ := exists_skipModifiers text
  obtain ⟨more, further, rest⟩ := exists_skipModifiers (skipModifiers text)
  refine ⟨front ++ more, modified.append further, ?_⟩
  have function : fromFunction text = skipModifiers (skipModifiers text) := by
    simp [fromFunction, single]
  rw [function, List.append_assoc, ← rest]
  exact whole

/-! Markers -/

/-- In the marker of a stream no letter `s` begins a text without marks that reaches to the end. -/
theorem IsMarker.head?_ne {marker tail : Text} (isMarker : IsMarker ["SwiftFlow"] marker)
    (suffix : tail <:+ marker) (phrase : ∀ c ∈ tail, isWordChar c = true ∨ isBlank c = true) :
    tail.head? ≠ some 's' := by
  intro head
  have inside : 's' ∈ tail := List.mem_of_head? head
  cases isMarker with
  | bare member blank =>
    obtain rfl := List.mem_singleton.mp member
    rcases List.mem_append.mp (suffix.subset inside) with name | blanks
    · exact absurd name (by decide)
    · exact absurd (blank 's' blanks) (by decide)
  | @applied name arguments blanks member blank =>
    -- The parenthesis is no part of what reaches to the end, so only blanks are.
    have closing : ')' ∉ tail := fun closes => absurd (phrase ')' closes) (by decide)
    have ends : ')' :: blanks <:+ '@' :: name.toList ++ arguments ++ ')' :: blanks :=
      List.suffix_append _ _
    rcases List.suffix_or_suffix_of_suffix suffix ends with within | around
    · rcases List.suffix_cons_iff.mp within with rfl | within
      · exact closing List.mem_cons_self
      · exact absurd (blank 's' (within.subset inside)) (by decide)
    · exact closing (around.subset List.mem_cons_self)

/-! No keyword of two declarations -/

theorem suffix_fromFunction (text : Text) : fromFunction text <:+ text := by
  by_cases suspends : keyword? "suspend" (skipModifiers text) = none
  · obtain ⟨front, -, whole⟩ := exists_of_not_suspends suspends
    exact ⟨front, whole.symm⟩
  · obtain ⟨lead, run, -, whole⟩ := exists_of_suspends suspends
    exact ⟨lead ++ run, by rw [List.append_assoc, ← whole]⟩

/-- The headers among which streams are searched for. -/
def flowPlaces (masked : Text) : List (Occurrence (Marked (Bool × FunctionHeader))) :=
  occurrences (fun _ => marked? ["SwiftFlow"] anyFunctionHeader?) masked

theorem suffix_of_flow {text rest : Text} {found : Marked (Bool × FunctionHeader)}
    (read : marked? ["SwiftFlow"] anyFunctionHeader? text = some (found, rest)) : rest <:+ text :=
  (respects_marked? [] List.not_mem_nil isBlanked_nil (by decide)
    (respects_anyFunctionHeader? [] List.not_mem_nil isBlanked_nil)).suffix _ _ _ read

section

variable {masked : Text} {place : Occurrence (Marked (Bool × FunctionHeader))}
  (member : place ∈ flowPlaces masked)
include member

theorem exists_parts_of_mem_flowPlaces :
    ∃ front marker unmarked, masked = front ++ (marker ++ unmarked) ∧
      front.length = place.start ∧ masked.drop (place.start + place.found.marker) = unmarked ∧
      (marker = [] ∨ IsMarker ["SwiftFlow"] marker) ∧
      (keyword? "suspend" (skipModifiers unmarked)).isSome = place.found.header.1 ∧
      functionHeader? (fromFunction unmarked) = some (place.found.header.2, place.rest) := by
  obtain ⟨-, here, read, ⟨front, rfl⟩, -, begins, -⟩ :=
    exists_read_of_mem_occurrencesFrom (fun _ _ _ _ => suffix_of_flow) member
  obtain ⟨marker, unmarked, isMarker, length, rfl, headed⟩ := exists_marker_of_marked? read
  obtain ⟨suspends, function⟩ := anyFunctionHeader?_eq_some_iff.mp headed
  have start : front.length = place.start := by
    simp only [List.length_append] at begins
    omega
  refine ⟨front, marker, unmarked, rfl, start, ?_, isMarker, suspends, function⟩
  rw [← start, length, ← List.drop_drop, List.drop_left, List.drop_left]

/-- The header of a function reaches over its parenthesis. -/
theorem exists_parenthesis_of_mem_flowPlaces :
    ∃ front, masked = front ++ '(' :: place.rest ∧ front.length + 1 = place.stop := by
  obtain ⟨front, marker, unmarked, rfl, -, -, -, -, function⟩ :=
    exists_parts_of_mem_flowPlaces member
  obtain ⟨-, used, same⟩ := exists_of_functionHeader? function
  obtain ⟨lead, whole⟩ := suffix_fromFunction unmarked
  have parts : front ++ (marker ++ unmarked) =
      (front ++ marker ++ lead ++ used) ++ '(' :: place.rest := by
    rw [← whole, same]
    simp only [List.append_assoc]
  obtain ⟨-, here, -, -, -, -, ends⟩ :=
    exists_read_of_mem_occurrencesFrom (fun _ _ _ _ => suffix_of_flow) member
  refine ⟨_, parts, ?_⟩
  rw [parts] at ends
  simp only [List.length_append, List.length_cons] at ends ⊢
  omega

end

/-- A character behind `lead` and in front of what follows `text` is one of the text. -/
theorem mem_of_append_eq {lead text rest front more : Text} {c : Char}
    (same : front ++ c :: more = lead ++ (text ++ rest)) (late : lead.length ≤ front.length)
    (early : front.length < lead.length + text.length) : c ∈ text := by
  have here := congrArg (·[front.length]?) same
  rw [List.getElem?_append_right (Nat.le_refl _), Nat.sub_self, List.getElem?_cons_zero,
    List.getElem?_append_right late, List.getElem?_append_left (by omega)] at here
  exact List.mem_of_getElem? here.symm

/-- No word that suspends is skipped as a modifier. -/
theorem IsSuspending.ne_append {run rest more : Text} (suspending : IsSuspending run rest)
    (modified : IsModifiers more) (front : Text) : more ≠ front ++ run := by
  rintro rfl
  have quiet : IsQuiet ["suspend"] rest (front ++ run) :=
    modified.isQuiet (by decide) (by decide) rest
  have nonempty : run ≠ [] := by
    rintro rfl
    cases suspending.head
  exact suspending.suspends ((quiet.of_append.head nonempty).wordless "suspend" (by simp))

section

variable {masked lead run rest after : Text} {header : FunctionHeader}
  (suspending : IsSuspending run rest) (same : masked = lead ++ (run ++ rest))
  (headed : functionHeader? rest = some (header, after))
include suspending same headed

/-- What suspends is found from its first word on, unless something found earlier reaches over
that. -/
theorem exists_covering :
    ∃ place ∈ flowPlaces masked, place.start ≤ lead.length ∧ lead.length < place.stop := by
  have unmarked : (run ++ rest).head? ≠ some '@' := by
    rw [List.head?_append, suspending.head, Option.some_or]
    decide
  have any : anyFunctionHeader? (run ++ rest) = some ((true, header), after) := by
    refine anyFunctionHeader?_eq_some_iff.mpr ⟨?_, ?_⟩
    · rw [suspending.unmodified, Option.isSome_iff_ne_none]
      exact suspending.suspends
    · rwa [suspending.function]
  have reads : marked? ["SwiftFlow"] anyFunctionHeader? (run ++ rest) =
      some (⟨0, (true, header)⟩, after) := by
    rw [marked?_of_unmarked unmarked, any, Option.map_some]
  have shorter : after.length < (run ++ rest).length := by
    obtain ⟨-, used, whole⟩ := exists_of_functionHeader? headed
    simp only [whole, List.length_append, List.length_cons]
    omega
  rcases @found_or_covered _ _ (fun _ _ _ _ => suffix_of_flow) 0 none _ _ _ _ _ same reads shorter
    with ⟨place, located, start, -, -⟩ | ⟨place, located, early, late⟩
  · have order := start_lt_stop_of_mem_occurrencesFrom located
    exact ⟨place, located, by omega, by omega⟩
  · exact ⟨place, located, by omega, by omega⟩

variable {place : Occurrence (Marked (Bool × FunctionHeader))} (member : place ∈ flowPlaces masked)
include member

/-- Behind `suspend` no header begins before the keyword is passed: what covers that word ends with
a parenthesis, and there is none so far. -/
theorem lt_start_of_lt_start (late : lead.length < place.start) :
    lead.length + run.length < place.start := by
  by_contra early
  obtain ⟨cover, located, begins, ends⟩ := exists_covering suspending same headed
  obtain ⟨prior, opened, stop⟩ := exists_parenthesis_of_mem_flowPlaces located
  have apart := stop_le_start_of_mem_occurrencesFrom located member (by omega)
  have round : '(' ∈ run := mem_of_append_eq (opened.symm.trans same) (by omega) (by omega)
  exact absurd (suspending.phrase '(' round) (by decide)

/-- The keyword of a function that suspends is that of no stream. -/
theorem fromFunction_ne (single : place.found.header.1 = false) :
    fromFunction (masked.drop (place.start + place.found.marker)) ≠ rest := by
  intro function
  obtain ⟨front, marker, unmarked, parts, begins, dropped, isMarker, suspends, -⟩ :=
    exists_parts_of_mem_flowPlaces member
  rw [dropped] at function
  rw [single, Option.isSome_eq_false_iff, Option.isNone_iff_eq_none] at suspends
  obtain ⟨more, modified, whole⟩ := exists_of_not_suspends suspends
  have split : front ++ marker ++ more = lead ++ run := by
    have texts := same.symm.trans parts
    rw [whole, function, ← List.append_assoc, ← List.append_assoc, ← List.append_assoc] at texts
    exact (List.append_cancel_right texts).symm
  -- `suspend` is not among the modifiers of the stream, so it stands before them.
  rcases List.append_eq_append_iff.mp split with ⟨between, -, inner⟩ | ⟨tail, outer, inner⟩
  · exact suspending.ne_append modified between inner
  have nonempty : tail ≠ [] := by
    rintro rfl
    exact suspending.ne_append modified [] inner.symm
  -- Nor does it stand in the marker, so the whole header begins behind it.
  have unmarking : ¬tail <:+ marker := by
    have head := suspending.head
    rw [inner, List.head?_append_of_ne_nil _ nonempty] at head
    rcases isMarker with rfl | isMarker
    · exact fun suffix => nonempty (List.suffix_nil.mp suffix)
    · refine fun suffix => isMarker.head?_ne suffix (fun c inside => ?_) head
      exact suspending.phrase c (inner ▸ List.mem_append_left more inside)
  rcases List.append_eq_append_iff.mp outer with ⟨between, -, marked⟩ | ⟨between, later, marked⟩
  · exact unmarking ⟨between, marked.symm⟩
  have filled : 0 < between.length := by
    refine List.length_pos_iff.mpr ?_
    rintro rfl
    exact unmarking ⟨[], marked⟩
  have size := congrArg List.length later
  have within := congrArg List.length inner
  rw [marked] at within
  simp only [List.length_append] at size within
  have passed := lt_start_of_lt_start suspending same headed member (by omega)
  omega

end

/-! What the scanner reports -/

namespace Source

variable {source : Source}

/-- Where the keyword `fun` of a reading stands. -/
def functionOffset (source : Source) (reading : Occurrence (Reading (Marked α) β)) : Nat :=
  let header := source.masked.drop (reading.start + reading.found.header.marker)
  source.masked.length - (fromFunction header).length

/-- An asynchronous function is read from the keyword at an offset on. -/
def HasAsyncAt (source : Source) (offset : Nat) (function : AsyncFunction) : Prop :=
  ∃ reading ∈ source.asyncReadings,
    source.functionOffset reading = offset ∧ source.asyncOf reading = function

/-- A function that returns a stream is read from the keyword at an offset on. -/
def HasStreamAt (source : Source) (offset : Nat) (stream : Stream) : Prop :=
  ∃ reading ∈ source.flowReadings,
    source.functionOffset reading = offset ∧ source.flowOf reading = stream

theorem drop_functionOffset (reading : Occurrence (Reading (Marked α) β)) :
    source.masked.drop (source.functionOffset reading) =
      fromFunction (source.masked.drop (reading.start + reading.found.header.marker)) := by
  have suffix := (suffix_fromFunction
    (source.masked.drop (reading.start + reading.found.header.marker))).trans
      (List.drop_suffix _ source.masked)
  exact (List.suffix_iff_eq_drop.mp suffix).symm

theorem exists_of_mem_asyncReadings
    {reading : Occurrence (Reading (Marked FunctionHeader) (Text × Option Text))}
    (member : reading ∈ source.asyncReadings) :
    ∃ lead run header after, let rest := source.masked.drop (source.functionOffset reading)
      IsSuspending run rest ∧ source.masked = lead ++ (run ++ rest) ∧
        functionHeader? rest = some (header, after) := by
  obtain ⟨after, read⟩ := source.isInOrder_asyncReadings.headers reading member
  obtain ⟨marker, unmarked, -, length, parts, headed⟩ := exists_marker_of_marked? read
  obtain ⟨suspends, function⟩ := suspendHeader?_eq_some_iff.mp headed
  obtain ⟨lead, run, suspending, whole⟩ := exists_of_suspends suspends
  have dropped :
      source.masked.drop (reading.start + reading.found.header.marker) = unmarked := by
    rw [← List.drop_drop, parts, length, List.drop_left]
  have masked : source.masked =
      source.masked.take reading.start ++ marker ++ lead ++ (run ++ fromFunction unmarked) := by
    rw [List.append_assoc _ lead, ← whole, List.append_assoc, ← parts, List.take_append_drop]
  refine ⟨source.masked.take reading.start ++ marker ++ lead, run, reading.found.header.header,
    after, ?_⟩
  rw [drop_functionOffset, dropped]
  exact ⟨suspending, masked, function⟩

theorem exists_of_mem_flowReadings
    {reading : Occurrence (Reading (Marked (Bool × FunctionHeader)) (Text × Text))}
    (member : reading ∈ source.flowReadings) :
    ∃ place ∈ flowPlaces source.masked, reading.start = place.start ∧
      reading.found.header = place.found ∧ place.found.header.1 = false := by
  obtain ⟨found, kept⟩ := List.mem_filter.mp member
  obtain ⟨place, located, read⟩ := List.mem_filterMap.mp found
  obtain ⟨start, header⟩ := Occurrence.readOn_eq read
  rw [header, Bool.and_eq_true, Bool.not_eq_true'] at kept
  exact ⟨place, (List.mem_filter.mp located).1, start, header, kept.1⟩

end Source

/-- Every asynchronous function and every function that returns a stream is reported for a keyword
`fun`, and no keyword stands for one of each. -/
theorem scan_functions_apart (text : Text) :
    let source := Source.ofText text
    (∀ function, .async function ∈ scan text → ∃ offset, source.HasAsyncAt offset function ∧
        keyword? "fun" (source.masked.drop offset) ≠ none) ∧
      (∀ stream, .stream stream ∈ scan text → stream.isProperty = false →
        ∃ offset, source.HasStreamAt offset stream ∧
          keyword? "fun" (source.masked.drop offset) ≠ none) ∧
      ∀ offset function stream,
        ¬(source.HasAsyncAt offset function ∧ source.HasStreamAt offset stream) := by
  intro source
  refine ⟨?_, ?_, ?_⟩
  · intro function member
    have found : function ∈ source.asyncFunctions := by simpa [scan] using member
    rw [Source.asyncFunctions_eq] at found
    obtain ⟨reading, isAsync, rfl⟩ := List.mem_map.mp found
    obtain ⟨_, _, _, _, -, -, headed⟩ := Source.exists_of_mem_asyncReadings isAsync
    exact ⟨_, ⟨reading, isAsync, rfl, rfl⟩, (exists_of_functionHeader? headed).1⟩
  · intro stream member single
    have found : stream ∈ source.streams := by simpa [scan] using member
    rw [Source.streams_eq] at found
    rcases List.mem_append.mp found with found | found
    · obtain ⟨reading, isFlow, rfl⟩ := List.mem_map.mp found
      obtain ⟨place, located, start, same, -⟩ := Source.exists_of_mem_flowReadings isFlow
      obtain ⟨_, _, _, -, -, dropped, -, -, headed⟩ := exists_parts_of_mem_flowPlaces located
      refine ⟨_, ⟨reading, isFlow, rfl, rfl⟩, ?_⟩
      rw [Source.drop_functionOffset, start, same, dropped]
      exact (exists_of_functionHeader? headed).1
    · obtain ⟨reading, -, rfl⟩ := List.mem_map.mp found
      cases single
  · rintro offset function stream ⟨⟨async, isAsync, here, -⟩, flow, isFlow, there, -⟩
    obtain ⟨lead, run, header, after, suspending, masked, headed⟩ :=
      Source.exists_of_mem_asyncReadings isAsync
    obtain ⟨place, located, start, same, single⟩ := Source.exists_of_mem_flowReadings isFlow
    refine fromFunction_ne suspending masked headed located single ?_
    rw [here, ← there, Source.drop_functionOffset, start, same]

/-- One name and one parameter list can belong to both, read from two keywords. -/
example :
    let source := Source.ofText "fun <A suspend fun <B> f(): Flow<Int>".toList
    source.asyncReadings.map source.functionOffset = [15] ∧
      source.flowReadings.map source.functionOffset = [0] := by
  decide +kernel

end DeclBridge.Kotlin
