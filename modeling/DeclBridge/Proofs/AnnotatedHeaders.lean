import DeclBridge.Proofs.AnnotationLines
import DeclBridge.Proofs.HeaderBodies

/-! Headers behind an annotation. What stood at the beginning of a text is read together with the
annotation in front of it, if that is a marker of its kind. Everything else is found as it was, at
another offset. -/

namespace DeclBridge

/-- The names of the annotations that mark declarations of a kind. -/
def Kind.markers : Kind → List String
  | .sum => ["SwiftEnum"]
  | .async => ["SwiftAsync", "SwiftDefaults"]
  | .stream => ["SwiftFlow"]

theorem Kind.isWord_of_mem_markers (kind : Kind) :
    ∀ name ∈ kind.markers, Text.IsWord name.toList := by
  cases kind <;> decide

end DeclBridge

namespace DeclBridge.Text

open Kotlin

variable {α β : Type}

/-- What is read from the beginning of a text, with a marker of this length in front. -/
def Occurrence.withMarker (length : Nat) (reading : Occurrence (Reading (Marked α) β)) :
    Occurrence (Reading (Marked α) β) :=
  ⟨0, reading.stop + length,
    ⟨⟨length, reading.found.header.header⟩, reading.found.length + length, reading.found.tail⟩,
    reading.rest⟩

/-- What is read when an annotation is put in front. Only what stood at the beginning can be
marked by it. -/
def Occurrence.annotateReading (marks : Bool) (length : Nat)
    (reading : Occurrence (Reading (Marked α) β)) : Occurrence (Reading (Marked α) β) :=
  if marks && reading.start = 0 then reading.withMarker length else reading.enclose length []

/-- The same for a header alone. -/
def Occurrence.annotate (marks : Bool) (length : Nat) (place : Occurrence (Marked α)) :
    Occurrence (Marked α) :=
  if marks && place.start = 0 then
    ⟨0, place.stop + length, ⟨length, place.found.header⟩, place.rest⟩
  else place.enclose length []

end DeclBridge.Text

namespace DeclBridge.Kotlin

open Text Syntax

variable {α β : Type}

namespace Syntax.AnnotationLine

/-- Whether an annotation marks declarations of a kind. -/
def Marks (line : AnnotationLine) (kind : Kind) : Prop :=
  line.name ∈ kind.markers.map String.toList

instance (line : AnnotationLine) (kind : Kind) : Decidable (line.Marks kind) :=
  inferInstanceAs (Decidable (line.name ∈ _))

/-- Whether an annotation marks a declaration of a kind that begins with a text. -/
def marksIn (line : AnnotationLine) (masked : Text) (kind : Kind) : Bool :=
  decide (line.Marks kind) && masked.head?.any isWordChar

end Syntax.AnnotationLine

/-! Headers -/

/-- A reader of headers that begin with one of the words and are not empty. -/
structure IsHeaderReader (words : List String) (header? : Text → Option (α × Text)) : Prop where
  known : words ⊆ declarationWords
  untyped : ∀ word ∈ ["class", "interface", "object"], word ∉ words
  refuses : ∀ names, Refuses words fun _ => marked? names header?
  unsigned : ∀ rest, header? ('@' :: rest) = none
  suffix : ∀ text found rest, header? text = some (found, rest) → rest <:+ text
  shorter : ∀ text found rest, header? text = some (found, rest) → rest.length < text.length

/-- Something is taken away in front of the rest of a text. -/
theorem IsHeaderReader.exists_append {words : List String} {header? : Text → Option (α × Text)}
    (reader : IsHeaderReader words header?) {text rest : Text} {found : α}
    (read : header? text = some (found, rest)) : ∃ used, used ≠ [] ∧ text = used ++ rest := by
  obtain ⟨used, rfl⟩ := reader.suffix _ _ _ read
  refine ⟨used, ?_, rfl⟩
  rintro rfl
  exact Nat.lt_irrefl _ (reader.shorter _ _ _ read)

theorem length_skipModifiers_le (text : Text) : (skipModifiers text).length ≤ text.length :=
  (isOuter_quote.stopsAt_skipModifiers.suffix text () _ rfl).length_le

theorem length_keyword? {word : String} {text rest : Text} (read : keyword? word text = some rest) :
    rest.length < text.length := by
  obtain ⟨behind, start, gap⟩ := Option.bind_eq_some_iff.mp read
  obtain ⟨⟨blanks, last⟩, run, same⟩ := Option.map_eq_some_iff.mp gap
  obtain rfl : last = rest := same
  have shorter := (length_run? run).2
  have whole := congrArg List.length (behind?_eq_some_iff.mp start)
  rw [List.length_append] at whole
  omega

theorem length_functionHeader? {text rest : Text} {found : FunctionHeader}
    (read : functionHeader? text = some (found, rest)) : rest.length < text.length := by
  obtain ⟨behind, isFunction, read⟩ := Option.bind_eq_some_iff.mp read
  have keyword := length_keyword? isFunction
  have respects : Respects [] [] [] (fun _ => ()) _ :=
    respects_typeClause [] List.not_mem_nil isBlanked_nil
  have clause := respects.suffix behind _ _ rfl
  obtain ⟨⟨name, after⟩, named, read⟩ := Option.bind_eq_some_iff.mp read
  obtain ⟨last, opened, same⟩ := Option.bind_eq_some_iff.mp read
  obtain rfl : last = rest := congrArg Prod.snd (Option.some.inj same)
  have word : after.length < behind.length :=
    Nat.lt_of_lt_of_le (length_run? named).2 clause.length_le
  have round := length_mark? opened
  omega

/-! The four kinds of headers -/

theorem isHeaderReader_sealed : IsHeaderReader (modifiers ++ ["sealed"]) sealedHeader? where
  known := by decide
  untyped := by decide
  refuses := refuses_sealed
  unsigned rest := by
    have absent : keyword? "sealed" ('@' :: rest) = none := keyword?_mark (by decide) rfl rest
    simp [sealedHeader?, skipModifiers_sign, absent]
  suffix := isOuter_quote.stopsAt_sealedHeader?.suffix
  shorter := by
    intro text name rest read
    obtain ⟨behind, isSealed, read⟩ := Option.bind_eq_some_iff.mp read
    obtain ⟨⟨keyword, after⟩, found, named⟩ := Option.bind_eq_some_iff.mp read
    have modified := length_skipModifiers_le text
    have first := length_keyword? isSealed
    have second := (isOuter_quote.stopsAt_oneKeyword? (by decide)).suffix behind _ _ found
    have word := (length_run? named).2
    have inside := second.length_le
    omega

theorem isHeaderReader_suspend :
    IsHeaderReader (modifiers ++ ["suspend"]) suspendHeader? where
  known := by decide
  untyped := by decide
  refuses := refuses_suspend
  unsigned rest := by
    have absent : keyword? "suspend" ('@' :: rest) = none := keyword?_mark (by decide) rfl rest
    simp [suspendHeader?, skipModifiers_sign, absent]
  suffix := (respects_suspendHeader? [] List.not_mem_nil isBlanked_nil).suffix
  shorter := by
    intro text header rest read
    obtain ⟨behind, suspends, read⟩ := Option.bind_eq_some_iff.mp read
    have modified := length_skipModifiers_le text
    have keyword := length_keyword? suspends
    have between := length_skipModifiers_le behind
    have function := length_functionHeader? read
    omega

theorem isHeaderReader_anyFunction :
    IsHeaderReader (modifiers ++ ["suspend", "fun"]) anyFunctionHeader? where
  known := by decide
  untyped := by decide
  refuses := refuses_anyFunction
  unsigned rest := by
    have suspends : keyword? "suspend" ('@' :: rest) = none := keyword?_mark (by decide) rfl rest
    have absent : keyword? "fun" ('@' :: rest) = none := keyword?_mark (by decide) rfl rest
    simp [anyFunctionHeader?, functionHeader?, skipModifiers_sign, suspends, absent]
  suffix := (respects_anyFunctionHeader? [] List.not_mem_nil isBlanked_nil).suffix
  shorter := by
    intro text found rest read
    have modified := length_skipModifiers_le text
    unfold anyFunctionHeader? at read
    dsimp only at read
    obtain ⟨⟨header, last⟩, function, same⟩ := Option.bind_eq_some_iff.mp read
    obtain rfl : last = rest := congrArg Prod.snd (Option.some.inj same)
    have shorter := length_functionHeader? function
    refine Nat.lt_of_lt_of_le shorter (Nat.le_trans (length_skipModifiers_le _) ?_)
    cases suspends : keyword? "suspend" (skipModifiers text) with
    | none => exact modified
    | some behind =>
      have keyword := length_keyword? suspends
      exact Nat.le_trans (Nat.le_of_lt keyword) modified

theorem isHeaderReader_flowProperty :
    IsHeaderReader (modifiers ++ ["val", "var"]) flowPropertyHeader? where
  known := by decide
  untyped := by decide
  refuses := refuses_flowProperty
  unsigned rest := by
    have absent : oneKeyword? ["val", "var"] ('@' :: rest) = none :=
      oneKeyword?_mark (by decide) rfl rest
    simp [flowPropertyHeader?, skipModifiers_sign, absent]
  suffix := isOuter_quote.stopsAt_flowPropertyHeader?.suffix
  shorter := by
    intro text name rest read
    obtain ⟨⟨keyword, behind⟩, found, read⟩ := Option.bind_eq_some_iff.mp read
    obtain ⟨⟨word, after⟩, named, read⟩ := Option.bind_eq_some_iff.mp read
    obtain ⟨typed, colon, read⟩ := Option.bind_eq_some_iff.mp read
    obtain ⟨last, flow, same⟩ := Option.bind_eq_some_iff.mp read
    obtain rfl : last = rest := congrArg Prod.snd (Option.some.inj same)
    have modified := length_skipModifiers_le text
    have first := (isOuter_quote.stopsAt_oneKeyword? (by decide)).suffix _ _ _ found
    have inside := first.length_le
    have second := (length_run? named).2
    have third := (isOuter_quote.stopsAt_afterColon?.suffix after () typed
      (by rw [passing, colon, Option.map_some])).length_le
    have fourth := (isOuter_quote.stopsAt_afterFlowType?.suffix typed () last
      (by rw [passing, flow, Option.map_some])).length_le
    omega

/-! Headers at the beginning of a text -/

theorem eq_of_keyword? {first second : String} {text rest other : Text}
    (isFirst : IsWord first.toList) (isSecond : IsWord second.toList)
    (read : keyword? first text = some rest) (again : keyword? second text = some other) :
    first.toList = second.toList := by
  -- Behind a keyword there is a blank, and none in another keyword.
  have ends {word longer more behind : Text} (isWord : IsWord longer)
      (whole : longer = word ++ more) (blank : ∃ c ∈ (more ++ behind).head?, isBlank c = true) :
      longer = word := by
    cases more with
    | nil => rw [whole, List.append_nil]
    | cons d more =>
      obtain ⟨c, head, blank⟩ := blank
      obtain rfl : d = c := Option.some.inj head
      rw [isBlank_of_isWordChar (isWord.wordChars d (by simp [whole]))] at blank
      cases blank
  obtain ⟨behind, same, blank⟩ := exists_of_keyword? read
  obtain ⟨after, whole, gap⟩ := exists_of_keyword? again
  rcases List.append_eq_append_iff.mp (same.symm.trans whole) with
    ⟨more, longer, back⟩ | ⟨more, longer, back⟩
  · rw [back] at blank
    exact (ends isSecond longer blank).symm
  · rw [back] at gap
    exact ends isFirst longer gap

theorem isQuietAt_of_keyword? {words : List String} (keywords : ∀ word ∈ words, IsWord word.toList)
    {word : String} {text rest : Text} (isWord : IsWord word.toList)
    (read : keyword? word text = some rest) (absent : word ∉ words) : IsQuietAt words text where
  unmarked := by
    obtain ⟨behind, same, -⟩ := exists_of_keyword? read
    obtain ⟨c, more, whole⟩ := List.exists_cons_of_ne_nil isWord.nonempty
    rw [same, whole]
    rintro ⟨⟩
    exact absurd (isWord.wordChars '@' (by simp [whole])) (by decide)
  wordless other member := by
    by_contra found
    obtain ⟨_, found⟩ := Option.ne_none_iff_exists'.mp found
    have same := eq_of_keyword? isWord (keywords other member) read found
    exact absent (String.toList_injective same ▸ member)

/-- No type begins where another header does. -/
theorem typeHeader?_eq_none {words names : List String} {header? : Text → Option (α × Text)}
    (reader : IsHeaderReader words header?) {text rest : Text} {found : Marked α}
    (read : marked? names header? text = some (found, rest)) (before : Option Char) :
    typeHeader? before text = none := by
  by_contra typed
  obtain ⟨⟨name, behind⟩, typed⟩ := Option.ne_none_iff_exists'.mp typed
  unfold typeHeader? at typed
  split at typed
  · obtain ⟨⟨keyword, after⟩, first, -⟩ := Option.bind_eq_some_iff.mp typed
    obtain ⟨member, first⟩ := exists_of_oneKeyword? first
    have keywords : ∀ word ∈ ["class", "interface", "object"], IsWord word.toList := by decide
    have quiet := isQuietAt_of_keyword?
      (fun word inside => isWord_of_mem_declarationWords word (reader.known inside))
      (keywords keyword member) first (reader.untyped keyword member)
    cases (reader.refuses names none text quiet).symm.trans read
  · cases typed

/-- A header at the beginning of a text is read there. -/
theorem marked?_of_start_eq_zero {words : List String} {header? : Text → Option (α × Text)}
    (reader : IsHeaderReader words header?) {kind : Kind} {masked : Text}
    {place : Occurrence (Marked α)}
    (member : place ∈ occurrences (fun _ => marked? kind.markers header?) masked)
    (start : place.start = 0) :
    marked? kind.markers header? masked = some (place.found, place.rest) := by
  have suffix : ∀ text found rest, marked? kind.markers header? text = some (found, rest) →
      rest <:+ text := by
    intro text found rest read
    obtain ⟨unmarked, inside, -, read⟩ := exists_suffix_of_marked? read
    exact (reader.suffix _ _ _ read).trans inside
  obtain ⟨-, here, read, inside, -, begins, -⟩ :=
    exists_read_of_mem_occurrencesFrom (fun _ => suffix) member
  have whole : here = masked := inside.eq_of_length (by omega)
  rwa [whole] at read

/-! Reading behind an annotation -/

/-- What does not depend on the character before it is found at other offsets. -/
theorem occurrencesFrom_add (read : Text → Option (α × Text)) (distance offset : Nat)
    (before other : Option Char) (text : Text) :
    occurrencesFrom (fun _ => read) (offset + distance) before text =
      (occurrencesFrom (fun _ => read) offset other text).map (·.enclose distance []) := by
  have quiet (offset : Nat) (before : Option Char) :
      occurrencesFrom (fun _ => read) offset before [] = [] := by
    rw [occurrencesFrom]
  have moved := occurrencesFrom_enclose (fun _ => keepsTail_nil read) quiet distance offset before
    text
  rw [List.append_nil] at moved
  rw [moved, occurrencesFrom_before _ offset before other]

theorem annotate_of_pos {marks : Bool} {length : Nat} {place : Occurrence (Marked α)}
    (behind : 0 < place.start) : place.annotate marks length = place.enclose length [] := by
  have later : decide (place.start = 0) = false := decide_eq_false (Nat.ne_of_gt behind)
  rw [Occurrence.annotate, later, Bool.and_false]
  rfl

theorem readOn_annotate {marks : Bool} (length : Nat) (read : Text → Option (β × Text))
    (place : Occurrence (Marked α)) :
    (place.annotate marks length).readOn read =
      (place.readOn read).map (Occurrence.annotateReading marks length) := by
  unfold Occurrence.annotate
  split
  · next marked =>
    obtain ⟨holds, start⟩ := Bool.and_eq_true_iff.mp marked
    rw [Occurrence.readOn, Occurrence.readOn, Option.map_map]
    refine Option.map_congr fun found _ => ?_
    simp only [Function.comp_apply, Occurrence.annotateReading, Occurrence.withMarker, holds,
      of_decide_eq_true start, Bool.true_and, decide_true, if_true, Nat.sub_zero,
      Nat.add_right_comm]
  · next moved =>
    rw [readOn_enclose (keepsTail_nil read)]
    refine Option.map_congr fun reading found => ?_
    have start := (Occurrence.readOn_eq (Option.mem_def.mp found)).1
    rw [Occurrence.annotateReading, start, if_neg moved]

section

variable {words : List String} {header? : Text → Option (α × Text)} {line : AnnotationLine}
  {masked : Text} (reader : IsHeaderReader words header?) (kind : Kind)
  (starts : line.Marks kind → ∃ c ∈ masked.head?, c = '@' ∨ isWordChar c = true)
include reader starts

theorem marked?_annotationLine : marked? kind.markers header? (line.masked ++ masked) =
    if line.Marks kind then
      (header? masked).map fun found => (⟨line.masked.length, found.1⟩, found.2)
    else none := by
  have inked (member : line.Marks kind) : skipBlanks masked = masked := by
    obtain ⟨c, head, start⟩ := starts member
    refine skipBlanks_eq_self_iff.mpr fun d first => ?_
    obtain rfl : c = d := Option.some.inj (head.symm.trans first)
    rcases start with rfl | letter
    · rfl
    · exact isBlank_of_isWordChar letter
  have unopened (member : line.Marks kind) : (skipBlanks masked).head? ≠ some '(' := by
    obtain ⟨c, head, start⟩ := starts member
    rw [inked member]
    intro opened
    obtain rfl : c = '(' := Option.some.inj (head.symm.trans opened)
    exact absurd start (by decide)
  have unread : header? (line.masked ++ masked) = none := reader.unsigned _
  have marker : afterMarker? kind.markers (line.masked ++ masked) =
      if line.Marks kind then some (skipBlanks masked) else none :=
    afterMarker?_annotationLine line kind.isWord_of_mem_markers unopened
  rw [marked?, marker, unread]
  by_cases member : line.Marks kind
  · have length : (line.masked ++ masked).length - masked.length =
        line.masked.length := by
      rw [List.length_append, Nat.add_sub_cancel]
    rw [if_pos member, if_pos member, inked member]
    cases found : header? masked with
    | none => simp [found]
    | some answer => simp [found]
  · rw [if_neg member, if_neg member]
    rfl

/-- An annotation that marks nothing here is not read together with a header. -/
theorem marked?_annotationLine_eq_none (unmarked : line.marksIn masked kind = false) :
    marked? kind.markers header? (line.masked ++ masked) = none := by
  rw [marked?_annotationLine reader kind starts]
  split
  · next member =>
    obtain ⟨c, head, rfl | letter⟩ := starts member
    · obtain ⟨more, rfl⟩ : ∃ more, masked = '@' :: more := by
        cases masked with
        | nil => cases head
        | cons d more => exact ⟨more, by rw [Option.some.inj head]⟩
      rw [reader.unsigned more, Option.map_none]
    · rw [AnnotationLine.marksIn, decide_eq_true member, head, Bool.true_and] at unmarked
      cases letter.symm.trans unmarked
  · rfl

omit starts in
theorem occurrences_of_refused
    (refused : marked? kind.markers header? (line.masked ++ masked) = none) :
    occurrences (fun _ => marked? kind.markers header?) (line.masked ++ masked) =
      (occurrences (fun _ => marked? kind.markers header?) masked).map
        (·.enclose line.masked.length []) :=
  (occurrencesFrom_annotationLine line (reader.refuses kind.markers) reader.known refused
    0).trans (occurrencesFrom_add _ _ 0 _ none masked)

/-- The marker is read together with the header at the beginning of the text, if there is one. -/
theorem occurrences_of_marksIn (marks : line.marksIn masked kind = true) :
    occurrences (fun _ => marked? kind.markers header?) (line.masked ++ masked) =
      (occurrences (fun _ => marked? kind.markers header?) masked).map
        (Occurrence.annotate true line.masked.length) := by
  obtain ⟨member, letter⟩ := Bool.and_eq_true_iff.mp marks
  obtain ⟨c, more, rfl⟩ : ∃ c more, masked = c :: more := by
    cases masked with
    | nil => cases letter
    | cons c more => exact ⟨c, more, rfl⟩
  have unsigned : (c :: more).head? ≠ some '@' := by
    rintro ⟨⟩
    cases letter
  have alone := @marked?_of_unmarked _ kind.markers header? _ unsigned
  have here := marked?_annotationLine reader kind starts
  rw [if_pos (of_decide_eq_true member)] at here
  cases found : header? (c :: more) with
  | none =>
    rw [found, Option.map_none] at here alone
    rw [occurrences_of_refused reader kind here]
    refine List.map_congr_left fun place inside => (annotate_of_pos ?_).symm
    rw [occurrences, occurrencesFrom_refused alone] at inside
    exact le_start_of_mem_occurrencesFrom inside
  | some answer =>
    obtain ⟨header, rest⟩ := answer
    obtain ⟨used, nonempty, whole⟩ := reader.exists_append found
    rw [found, Option.map_some] at here alone
    rw [whole] at here alone ⊢
    rw [← List.append_assoc] at here ⊢
    have outer := @occurrencesFrom_found _ (fun _ => marked? kind.markers header?) none _ _ _
      (List.append_ne_nil_of_right_ne_nil _ nonempty) here 0
    have inner := @occurrencesFrom_found _ (fun _ => marked? kind.markers header?) none _ _ _
      nonempty alone 0
    have length : 0 + (line.masked ++ used).length =
        0 + used.length + line.masked.length := by
      rw [List.length_append]
      omega
    rw [occurrences, outer, occurrences, inner, List.map_cons, length,
      occurrencesFrom_add _ _ _ _ used.getLast?]
    -- What comes behind this header does not begin with the text, so it is only moved.
    refine congrArg (List.cons _) (List.map_congr_left fun place inside => ?_)
    refine (annotate_of_pos ?_).symm
    have late := le_start_of_mem_occurrencesFrom inside
    have positive := List.length_pos_iff.mpr nonempty
    omega

theorem occurrences_annotationLine :
    occurrences (fun _ => marked? kind.markers header?) (line.masked ++ masked) =
      (occurrences (fun _ => marked? kind.markers header?) masked).map
        (Occurrence.annotate (line.marksIn masked kind) line.masked.length) := by
  cases marks : line.marksIn masked kind with
  | true => exact occurrences_of_marksIn reader kind starts marks
  | false =>
    have refused := marked?_annotationLine_eq_none reader kind starts marks
    exact occurrences_of_refused reader kind refused

theorem readings_annotationLine (read : Text → Option (β × Text)) :
    readings (fun _ => marked? kind.markers header?) read (line.masked ++ masked) =
      (readings (fun _ => marked? kind.markers header?) read masked).map
        (Occurrence.annotateReading (line.marksIn masked kind) line.masked.length) := by
  rw [readings, occurrences_annotationLine reader kind starts, List.filterMap_map, readings,
    List.map_filterMap]
  exact List.filterMap_congr fun place _ => readOn_annotate _ read place

end

end DeclBridge.Kotlin
