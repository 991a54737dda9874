import DeclBridge.Proofs.AnnotatedHeaders
import DeclBridge.Proofs.TypeExtents

/-! Adoption markers. An annotation that adopts declarations of a kind marks a declaration of that
kind when its header comes right behind it. In front of another annotation it marks nothing. -/

namespace DeclBridge

/-- The same declaration behind a marker with this text. -/
def Declaration.markedBy (marker : Text) : Declaration → Declaration
  | .sum declaration => .sum { declaration with
      rename := some ((Text.firstMatch? (Kotlin.wordArgument? "name") marker).getD declaration.name)
      isExhaustive :=
        (Text.firstMatch? (Kotlin.booleanArgument? "exhaustive") marker).getD true }
  | .async declaration => .async { declaration with
      isFailable := (Text.firstMatch? (Kotlin.booleanArgument? "throwing") marker).getD true
      isMarked := true }
  | .stream declaration => .stream { declaration with isMarked := true }

theorem Declaration.isMarked_markedBy (marker : Text) (declaration : Declaration) :
    (declaration.markedBy marker).isMarked = true := by
  cases declaration <;> rfl

end DeclBridge

namespace DeclBridge.Kotlin

open Text Syntax

variable {α β : Type}

/-- What becomes of a declaration when an annotation is put in front of its source. Only what begins
with the source is marked. -/
def Syntax.AnnotationLine.mark (line : AnnotationLine) (masked : Text)
    (entry : Nat × Declaration) : Declaration :=
  if line.marksIn masked entry.2.kind && entry.1 = 0 then entry.2.markedBy line.text
  else entry.2

/-- The declarations of a source with the offsets of their headers. -/
def Source.headed (source : Source) : List (Nat × Declaration) :=
  source.sumReadings.map (fun reading => (reading.start, .sum (source.sumOf reading))) ++
    source.asyncReadings.map (fun reading => (reading.start, .async (source.asyncOf reading))) ++
    source.flowReadings.map (fun reading => (reading.start, .stream (source.flowOf reading))) ++
    source.propertyReadings.map fun reading =>
      (reading.start, .stream (source.propertyOf reading))

theorem Source.map_headed (text : Text) : (ofText text).headed.map Prod.snd = scan text := by
  rw [← map_placed, headed, placed]
  simp only [List.map_append, List.map_map]
  rfl

/-! Types around the beginning of a text -/

/-- Then no type begins with the text. -/
theorem start_pos_of_mem_scopes {text : Text}
    (untyped : ∀ before, typeHeader? before (maskLiterals text) = none) {scope : Scope}
    (member : scope ∈ (ScopeIndex.ofText text).closed ++ (ScopeIndex.ofText text).unterminated) :
    0 < scope.start := by
  obtain ⟨owner, owns, rfl⟩ := mem_bodyOwners_of_mem_scopes member
  obtain ⟨place, located, -, start, -, -⟩ :=
    exists_place_of_mem_typeHeaders (mem_bodyOwners.mp owns).1
  obtain ⟨before, here, read, inside, -, begins, -⟩ := exists_read_of_mem_occurrencesFrom
    (fun before => (isOuter_quote.stopsAt_typeHeader? before).suffix) located
  change 0 < owner.start
  refine Nat.pos_of_ne_zero fun first => ?_
  have whole : here = maskLiterals text := inside.eq_of_length (by omega)
  rw [whole, untyped before] at read
  cases read

/-- No type is around the beginning of a text when all of them begin later. -/
theorem outside_of_start_pos {scopes : ScopeIndex}
    (positive : ∀ scope ∈ scopes.closed ++ scopes.unterminated, 0 < scope.start) :
    scopes.isUnterminated 0 = false ∧ scopes.containingType 0 = none := by
  obtain ⟨closed, unterminated⟩ := List.forall_mem_append.mp positive
  constructor
  · refine List.any_eq_false.mpr fun scope member => ?_
    simp [covers_eq_false (.inl (unterminated scope member))]
  · rw [containingType_eq, innermost_eq_none, Option.map_none]
    exact fun scope member => covers_eq_false (.inl (closed scope member))

theorem start_pos_of_mem_place {scopes : ScopeIndex} {distance : Nat} (moved : 0 < distance)
    {scope : Scope} (member : scope ∈ (scopes.place (· + distance)).closed ++
      (scopes.place (· + distance)).unterminated) : 0 < scope.start := by
  rw [ScopeIndex.place, ← List.map_append] at member
  obtain ⟨other, -, rfl⟩ := List.mem_map.mp member
  exact Nat.lt_of_lt_of_le moved (Nat.le_add_left _ _)

/-! The source behind an annotation -/

section

variable {words : List String} {header? : Text → Option (α × Text)} {line : AnnotationLine}
  {text : Text} (reader : IsHeaderReader words header?) (kind : Kind)
include reader

theorem outside_of_start_eq_zero {read : Text → Option (β × Text)}
    {reading : Occurrence (Reading (Marked α) β)} (member : reading ∈
      readings (fun _ => marked? kind.markers header?) read (Source.ofText text).masked)
    (start : reading.start = 0) :
    (Source.ofText text).scopes.isUnterminated 0 = false ∧
      (Source.ofText text).scopes.containingType 0 = none := by
  obtain ⟨place, located, found⟩ := List.mem_filterMap.mp member
  rw [(Occurrence.readOn_eq found).1] at start
  have here := marked?_of_start_eq_zero reader located start
  have untyped := typeHeader?_eq_none reader here
  exact outside_of_start_pos fun scope inside => start_pos_of_mem_scopes untyped inside

omit reader in
theorem outside_annotationLine :
    (Source.ofText (line.text ++ text)).scopes.isUnterminated 0 = false ∧
      (Source.ofText (line.text ++ text)).scopes.containingType 0 = none := by
  rw [ofText_annotationLine]
  have length : 0 < line.masked.length := Nat.succ_pos _
  exact outside_of_start_pos fun scope inside => start_pos_of_mem_place length inside

theorem filterMap_places_annotationLine (starts : line.Marks kind →
      ∃ c ∈ (Source.ofText text).masked.head?, c = '@' ∨ isWordChar c = true)
    (read : Text → Option (β × Text)) :
    ((Source.ofText (line.text ++ text)).places fun _ =>
        marked? kind.markers header?).filterMap (·.readOn read) =
      (((Source.ofText text).places fun _ => marked? kind.markers header?).filterMap
        (·.readOn read)).map (Occurrence.annotateReading
          (line.marksIn (Source.ofText text).masked kind) line.masked.length) := by
  have encloses := encloses_annotationLine line text
  have masked := encloses.masked
  rw [List.append_nil] at masked
  rw [Source.filterMap_places, Source.filterMap_places, masked,
    readings_annotationLine reader kind starts, List.filter_map]
  refine congrArg (List.map _) (List.filter_congr fun reading member => congrArg (!·) ?_)
  rw [Occurrence.annotateReading]
  split
  · next marked =>
    have start := of_decide_eq_true (Bool.and_eq_true_iff.mp marked).2
    rw [start, (outside_of_start_eq_zero reader kind member start).1]
    exact outside_annotationLine.1
  · exact encloses.unterminated reading.start

end

section

variable {line : AnnotationLine} {text : Text}

theorem slice_annotationLine :
    (Source.ofText (line.text ++ text)).slice 0 line.masked.length =
      line.text := by
  rw [ofText_annotationLine, Source.slice, List.drop_zero, line.length_masked]
  exact List.take_left

/-- The text in parentheses behind a header that is marked. -/
theorem inner_annotationLine {header? : Lookbehind α} {read : Text → Option (β × Text)}
    {reading : Occurrence (Reading α β)}
    (member : reading ∈ ((Source.ofText text).places header?).filterMap (·.readOn read))
    (start : reading.start = 0) {length : Nat}
    (fits : reading.start + reading.found.length + length ≤ reading.stop) :
    (Source.ofText (line.text ++ text)).slice
        (0 + (reading.found.length + line.masked.length)) length =
      (Source.ofText text).slice (0 + reading.found.length) length := by
  have moved := (encloses_annotationLine line text).inner_eq_of_mem member fits
  have offset : reading.start + line.masked.length + reading.found.length =
      0 + (reading.found.length + line.masked.length) := by
    rw [start]
    omega
  rwa [offset, start] at moved

/-- The declarations of one kind behind an annotation, when those that it does not mark are the same
as without it. -/
theorem map_annotateReading (kind : Kind) {found : List (Occurrence (Reading (Marked α) β))}
    {outer inner : Occurrence (Reading (Marked α) β) → Declaration}
    (ofKind : ∀ reading, (inner reading).kind = kind)
    (marked : ∀ reading ∈ found, reading.start = 0 →
      outer (reading.withMarker line.masked.length) =
        (inner reading).markedBy line.text)
    (moved : ∀ reading ∈ found,
      outer (reading.enclose line.masked.length []) = inner reading) :
    (found.map (Occurrence.annotateReading (line.marksIn (Source.ofText text).masked kind)
        line.masked.length)).map outer =
      found.map fun reading =>
        line.mark (Source.ofText text).masked (reading.start, inner reading) := by
  rw [List.map_map]
  refine List.map_congr_left fun reading member => ?_
  rw [Function.comp_apply, Occurrence.annotateReading, AnnotationLine.mark, ofKind]
  split
  · next begun =>
    exact marked reading member (of_decide_eq_true (Bool.and_eq_true_iff.mp begun).2)
  · exact moved reading member

/-- What an annotation changes about a reading does not count for what keeps it. -/
theorem filter_annotateReading (keeps : α → β → Bool) (marks : Bool) (length : Nat)
    (found : List (Occurrence (Reading (Marked α) β))) :
    (found.map (Occurrence.annotateReading marks length)).filter
        (fun reading => keeps reading.found.header.header reading.found.tail) =
      (found.filter fun reading => keeps reading.found.header.header reading.found.tail).map
        (Occurrence.annotateReading marks length) := by
  rw [List.filter_map]
  refine congrArg (List.map _) (List.filter_congr fun reading _ => ?_)
  rw [Function.comp_apply, Occurrence.annotateReading]
  split <;> rfl

/-! The four passes -/

theorem sum_annotationLine (starts : line.Marks .sum →
      ∃ c ∈ (Source.ofText text).masked.head?, c = '@' ∨ isWordChar c = true) :
    (Source.ofText (line.text ++ text)).sumTypes.map Declaration.sum =
      (Source.ofText text).sumReadings.map fun reading =>
        line.mark (Source.ofText text).masked
          (reading.start, .sum ((Source.ofText text).sumOf reading)) := by
  have encloses := encloses_annotationLine line text
  have readings : (Source.ofText (line.text ++ text)).sumReadings =
      (Source.ofText text).sumReadings.map (Occurrence.annotateReading
        (line.marksIn (Source.ofText text).masked .sum) line.masked.length) := by
    have places := filterMap_places_annotationLine isHeaderReader_sealed .sum starts typeClause?
    rw [Source.filterMap_places, Source.filterMap_places] at places
    rw [Source.sumReadings_eq, Source.sumReadings_eq]
    refine (congrArg (List.filter _) places).trans ?_
    rw [List.filter_map]
    refine congrArg (List.map _) (List.filter_congr fun reading member => congrArg (!·) ?_)
    have bound := Source.length_name_le_of_mem_sumReadings (List.mem_filter.mp member).1
    rw [← encloses.unterminatedHeader, Occurrence.annotateReading]
    refine congrArg _ ?_
    split
    · next marked =>
      have start := of_decide_eq_true (Bool.and_eq_true_iff.mp marked).2
      simp only [Occurrence.withMarker]
      omega
    · simp only [Occurrence.enclose]
      omega
  have cases := (searches_cases line).isMoved (Source.ofText text).masked
  have objects := (searches_objects line).isMoved (Source.ofText text).masked
  rw [Source.sumTypes_eq, readings, List.map_map]
  refine map_annotateReading .sum (fun _ => rfl) (fun reading member start => ?_)
    fun reading member => congrArg _ (encloses.sumOf_eq cases objects member)
  have inner := outside_of_start_eq_zero isHeaderReader_sealed .sum
    (Source.mem_readings_of_mem (Source.mem_filterMap_of_mem_sumReadings member)) start
  simp only [Function.comp_apply, Source.sumOf, Occurrence.withMarker, Declaration.markedBy,
    slice_annotationLine, outside_annotationLine.2, start, inner.2, encloses.identity_eq,
    encloses.variants_eq cases objects]
  rfl

theorem async_annotationLine (starts : line.Marks .async →
      ∃ c ∈ (Source.ofText text).masked.head?, c = '@' ∨ isWordChar c = true) :
    (Source.ofText (line.text ++ text)).asyncFunctions.map Declaration.async =
      (Source.ofText text).asyncReadings.map fun reading =>
        line.mark (Source.ofText text).masked
          (reading.start, .async ((Source.ofText text).asyncOf reading)) := by
  have encloses := encloses_annotationLine line text
  have readings : (Source.ofText (line.text ++ text)).asyncReadings =
      (Source.ofText text).asyncReadings.map (Occurrence.annotateReading
        (line.marksIn (Source.ofText text).masked .async) line.masked.length) :=
    filterMap_places_annotationLine isHeaderReader_suspend .async starts _
  rw [Source.asyncFunctions_eq, readings, List.map_map]
  refine map_annotateReading .async (fun _ => rfl) (fun reading member start => ?_)
    fun reading member => congrArg _ (encloses.asyncOf_eq member)
  have inner := outside_of_start_eq_zero isHeaderReader_suspend .async
    (Source.mem_readings_of_mem member) start
  have parameters := @inner_annotationLine _ _ line text _ _ _ member start _
    (Source.fits_of_mem_asyncReadings member).2
  simp only [Function.comp_apply, Source.asyncOf, Occurrence.withMarker, Declaration.markedBy,
    slice_annotationLine, outside_annotationLine.2, start, inner.2, encloses.identity_eq,
    parameters]
  rfl

theorem flow_annotationLine (starts : line.Marks .stream →
      ∃ c ∈ (Source.ofText text).masked.head?, c = '@' ∨ isWordChar c = true) :
    (Source.ofText (line.text ++ text)).flowReadings.map (fun reading =>
        Declaration.stream ((Source.ofText (line.text ++ text)).flowOf reading)) =
      (Source.ofText text).flowReadings.map fun reading =>
        line.mark (Source.ofText text).masked
          (reading.start, .stream ((Source.ofText text).flowOf reading)) := by
  have encloses := encloses_annotationLine line text
  have readings : (Source.ofText (line.text ++ text)).flowReadings =
      (Source.ofText text).flowReadings.map (Occurrence.annotateReading
        (line.marksIn (Source.ofText text).masked .stream) line.masked.length) := by
    have places := filterMap_places_annotationLine isHeaderReader_anyFunction .stream starts
      (behindRound? flowElement?)
    exact (congrArg (List.filter _) places).trans
      (filter_annotateReading (fun (header : Bool × FunctionHeader) (tail : Text × Text) =>
        !header.1 && !isBlankText tail.2) _ _ _)
  rw [readings]
  refine map_annotateReading .stream (fun _ => rfl) (fun reading member start => ?_)
    fun reading member => congrArg _ (encloses.flowOf_eq member)
  have found := (List.mem_filter.mp member).1
  have inner := outside_of_start_eq_zero isHeaderReader_anyFunction .stream
    (Source.mem_readings_of_mem found) start
  have parameters := @inner_annotationLine _ _ line text _ _ _ found start _
    (Source.fits_of_mem_flowReadings member)
  simp only [Source.flowOf, Occurrence.withMarker, Declaration.markedBy, outside_annotationLine.2,
    start, inner.2, encloses.identity_eq, parameters]
  rfl

theorem property_annotationLine (starts : line.Marks .stream →
      ∃ c ∈ (Source.ofText text).masked.head?, c = '@' ∨ isWordChar c = true) :
    (Source.ofText (line.text ++ text)).propertyReadings.map (fun reading =>
        Declaration.stream ((Source.ofText (line.text ++ text)).propertyOf reading)) =
      (Source.ofText text).propertyReadings.map fun reading =>
        line.mark (Source.ofText text).masked
          (reading.start, .stream ((Source.ofText text).propertyOf reading)) := by
  have encloses := encloses_annotationLine line text
  have readings : (Source.ofText (line.text ++ text)).propertyReadings =
      (Source.ofText text).propertyReadings.map (Occurrence.annotateReading
        (line.marksIn (Source.ofText text).masked .stream) line.masked.length) := by
    have places := filterMap_places_annotationLine isHeaderReader_flowProperty .stream starts
      Bracket.angle.inside
    exact (congrArg (List.filter _) places).trans
      (filter_annotateReading (fun _ tail => !isBlankText tail) _ _ _)
  rw [readings]
  refine map_annotateReading .stream (fun _ => rfl) (fun reading member start => ?_)
    fun reading member => congrArg _ (encloses.propertyOf_eq member)
  have inner := outside_of_start_eq_zero isHeaderReader_flowProperty .stream
    (Source.mem_readings_of_mem (List.mem_filter.mp member).1) start
  simp only [Source.propertyOf, Occurrence.withMarker, Declaration.markedBy,
    outside_annotationLine.2, start, inner.2, encloses.identity_eq]
  rfl

/-- An annotation in front of a source marks what begins with the source. -/
theorem scan_annotationLine (starts : ∀ kind, line.Marks kind →
      ∃ c ∈ (Source.ofText text).masked.head?, c = '@' ∨ isWordChar c = true) :
    scan (line.text ++ text) =
      (Source.ofText text).headed.map (line.mark (Source.ofText text).masked) := by
  have sums := sum_annotationLine (starts .sum)
  have functions := async_annotationLine (starts .async)
  have flows := flow_annotationLine (starts .stream)
  have properties := property_annotationLine (starts .stream)
  have streams : (Source.ofText (line.text ++ text)).streams.map Declaration.stream =
      ((Source.ofText text).flowReadings.map fun reading =>
        line.mark (Source.ofText text).masked
          (reading.start, .stream ((Source.ofText text).flowOf reading))) ++
      (Source.ofText text).propertyReadings.map fun reading =>
        line.mark (Source.ofText text).masked
          (reading.start, .stream ((Source.ofText text).propertyOf reading)) := by
    rw [Source.streams_eq, List.map_append, List.map_map, List.map_map, ← flows, ← properties]
    rfl
  rw [scan, sums, functions, streams, Source.headed]
  simp only [List.map_append, List.map_map, List.append_assoc]
  rfl

/-- An annotation that marks nothing, or stands in front of another one, changes nothing. -/
theorem scan_annotationLine_eq
    (apart : ∀ kind, line.Marks kind → (Source.ofText text).masked.head? = some '@') :
    scan (line.text ++ text) = scan text := by
  rw [scan_annotationLine fun kind marks => ⟨'@', apart kind marks, .inl rfl⟩, ← Source.map_headed]
  refine List.map_congr_left fun entry _ => ?_
  have unmarked : line.marksIn (Source.ofText text).masked entry.2.kind = false := by
    by_cases marks : line.Marks entry.2.kind
    · rw [AnnotationLine.marksIn, apart _ marks]
      exact Bool.and_false _
    · rw [AnnotationLine.marksIn, decide_eq_false marks, Bool.false_and]
  rw [AnnotationLine.mark, unmarked]
  rfl

end

def annotationLines (annotations : List AnnotationLine) : Text :=
  annotations.flatMap AnnotationLine.text

/-- Only the last annotation in front of a source can mark something in it. -/
theorem scan_annotationLines {annotations : List AnnotationLine}
    (foreign : ∀ last ∈ annotations.getLast?, ∀ kind, ¬last.Marks kind) (text : Text) :
    scan (annotationLines annotations ++ text) = scan text := by
  induction annotations with
  | nil => rfl
  | cons line others ih =>
    rw [annotationLines, List.flatMap_cons, List.append_assoc]
    cases others with
    | nil => exact scan_annotationLine_eq fun kind marks => absurd marks (foreign line rfl kind)
    | cons next others =>
      refine (scan_annotationLine_eq fun kind _ => ?_).trans (ih foreign)
      rw [List.flatMap_cons, List.append_assoc, ofText_annotationLine]
      rfl

/-! What an annotation marks -/

section

variable {text : Text} (begins : (Source.ofText text).masked.head?.any isWordChar = true)
include begins

theorem marker_eq_zero {words : List String} {header? : Text → Option (α × Text)}
    (reader : IsHeaderReader words header?) (kind : Kind) {read : Text → Option (β × Text)}
    {reading : Occurrence (Reading (Marked α) β)}
    (member : reading ∈ ((Source.ofText text).places fun _ =>
      marked? kind.markers header?).filterMap (·.readOn read))
    (start : reading.start = 0) : reading.found.header.marker = 0 := by
  obtain ⟨place, located, found⟩ := List.mem_filterMap.mp member
  obtain ⟨first, same⟩ := Occurrence.readOn_eq found
  rw [first] at start
  have here := marked?_of_start_eq_zero reader (List.mem_filter.mp located).1 start
  have unsigned : (Source.ofText text).masked.head? ≠ some '@' := by
    intro sign
    rw [sign] at begins
    cases begins
  rw [marked?_of_unmarked unsigned] at here
  obtain ⟨answer, -, equal⟩ := Option.map_eq_some_iff.mp here
  rw [same]
  exact (congrArg (fun found => found.1.marker) equal).symm

/-- A declaration that begins with a source has no marker. -/
theorem isMarked_of_mem_headed {entry : Nat × Declaration}
    (member : entry ∈ (Source.ofText text).headed) (start : entry.1 = 0) :
    entry.2.isMarked = false := by
  simp only [Source.headed, List.mem_append, List.mem_map] at member
  rcases member with ((⟨reading, found, rfl⟩ | ⟨reading, found, rfl⟩) | ⟨reading, found, rfl⟩) |
    ⟨reading, found, rfl⟩
  · have unmarked := marker_eq_zero begins isHeaderReader_sealed .sum
      (Source.mem_filterMap_of_mem_sumReadings found) start
    simp [Source.sumOf, Source.slice, unmarked, Declaration.isMarked]
  · have unmarked := marker_eq_zero begins isHeaderReader_suspend .async found start
    simp [Source.asyncOf, Source.slice, unmarked, Declaration.isMarked]
  · have unmarked := marker_eq_zero begins isHeaderReader_anyFunction .stream
      (List.mem_filter.mp found).1 start
    simp [Source.flowOf, unmarked, Declaration.isMarked]
  · have unmarked := marker_eq_zero begins isHeaderReader_flowProperty .stream
      (List.mem_filter.mp found).1 start
    simp [Source.propertyOf, unmarked, Declaration.isMarked]

theorem mark_of_begins (line : AnnotationLine) (entry : Nat × Declaration) :
    line.mark (Source.ofText text).masked entry =
      if entry.1 = 0 ∧ line.Marks entry.2.kind then entry.2.markedBy line.text
      else entry.2 := by
  rw [AnnotationLine.mark, AnnotationLine.marksIn, begins, Bool.and_true]
  by_cases start : entry.1 = 0 <;> by_cases marks : line.Marks entry.2.kind <;>
    simp [start, marks]

end

/-- An annotation in front of a source that begins with a header marks the declaration with that
header, if there is one and the annotation is of its kind. Other annotations in front of it change
nothing, but between it and the header they take the marker away: what is found then is what is
found without any annotation. That is the same only when there is nothing to mark. -/
theorem scan_annotated (line : AnnotationLine) {others : List AnnotationLine}
    (nonempty : others ≠ []) (foreign : ∀ other ∈ others, ∀ kind, ¬other.Marks kind) {text : Text}
    (begins : (Source.ofText text).masked.head?.any isWordChar = true) :
    let source := Source.ofText text
    scan text = source.headed.map Prod.snd ∧
    scan (line.text ++ text) = source.headed.map (fun entry =>
      if entry.1 = 0 ∧ line.Marks entry.2.kind then entry.2.markedBy line.text
      else entry.2) ∧
    scan (annotationLines others ++ (line.text ++ text)) = scan (line.text ++ text) ∧
    scan (line.text ++ (annotationLines others ++ text)) = scan text ∧
    (scan (line.text ++ (annotationLines others ++ text)) = scan (line.text ++ text) ↔
      ∀ entry ∈ source.headed, entry.1 = 0 → ¬line.Marks entry.2.kind) := by
  intro source
  have last : ∀ last ∈ others.getLast?, ∀ kind, ¬last.Marks kind :=
    fun last member => foreign last (List.mem_of_getLast? member)
  have marked : scan (line.text ++ text) = source.headed.map fun entry =>
      if entry.1 = 0 ∧ line.Marks entry.2.kind then entry.2.markedBy line.text
      else entry.2 := by
    obtain ⟨c, head, letter⟩ := (Option.any_eq_true ..).mp begins
    rw [scan_annotationLine fun kind _ => ⟨c, head, .inr letter⟩]
    exact List.map_congr_left fun entry _ => mark_of_begins begins line entry
  have taken : scan (line.text ++ (annotationLines others ++ text)) = scan text := by
    have whole : line.text ++ (annotationLines others ++ text) =
        annotationLines (line :: others) ++ text := by
      rw [annotationLines, annotationLines, List.flatMap_cons, List.append_assoc]
    rw [whole]
    refine scan_annotationLines (fun member inside => last member ?_) text
    rwa [List.getLast?_cons_of_ne_nil nonempty] at inside
  refine ⟨(Source.map_headed text).symm, marked, scan_annotationLines last _, taken, ?_⟩
  rw [taken, marked, ← Source.map_headed, List.map_inj_left]
  refine forall₂_congr fun entry member => ?_
  constructor
  · intro same start marks
    rw [if_pos ⟨start, marks⟩] at same
    have unmarked := isMarked_of_mem_headed begins member start
    rw [same, Declaration.isMarked_markedBy] at unmarked
    cases unmarked
  · intro unmarked
    rw [if_neg fun both => unmarked both.1 both.2]

/-- That a function does not throw is lost when another annotation comes between. -/
theorem scan_annotated_throwing :
    ∃ (line : AnnotationLine) (others : List AnnotationLine),
      line.text = "@SwiftAsync(throwing = false)\n".toList ∧
      annotationLines others = "@Deprecated(\"old\")\n@JvmStatic\n".toList ∧
      others ≠ [] ∧ (∀ other ∈ others, ∀ kind, ¬other.Marks kind) ∧
      (Source.ofText "suspend fun f()".toList).masked.head?.any isWordChar = true ∧
      scan (line.text ++ (annotationLines others ++ "suspend fun f()".toList)) ≠
        scan (line.text ++ "suspend fun f()".toList) := by
  have throwing : ∀ text ∈ some "throwing = false".toList, IsArguments text := by
    rintro _ ⟨⟩
    exact ⟨isArgumentText_of_free (by decide), by decide +kernel⟩
  have old : ∀ text ∈ some "\"old\"".toList, IsArguments text := by
    rintro _ ⟨⟩
    have quoted : IsQuoted "old".toList := by
      refine .plain (by decide) (by decide) (by decide) ?_
      refine .plain (by decide) (by decide) (by decide) ?_
      exact .plain (by decide) (by decide) (by decide) .nil
    exact ⟨@IsArgumentText.string "old".toList [] quoted (by decide) .nil, by decide +kernel⟩
  have foreign (kind : Kind) : "Deprecated".toList ∉ kind.markers.map String.toList ∧
      "JvmStatic".toList ∉ kind.markers.map String.toList := by
    cases kind <;> decide
  have begins : (Source.ofText "suspend fun f()".toList).masked.head?.any isWordChar = true := by
    decide +kernel
  have declared : (Source.ofText "suspend fun f()".toList).headed.any
      (fun entry => entry.1 = 0 ∧ entry.2.kind = .async) = true := by
    decide +kernel
  let line : AnnotationLine :=
    ⟨"SwiftAsync".toList, some "throwing = false".toList, by decide, by simp, throwing⟩
  let first : AnnotationLine :=
    ⟨"Deprecated".toList, some "\"old\"".toList, by decide, by simp, old⟩
  let second : AnnotationLine := ⟨"JvmStatic".toList, none, by decide, by decide, by simp⟩
  have apart : ∀ other ∈ [first, second], ∀ kind, ¬other.Marks kind := by
    intro other member kind
    rcases List.mem_pair.mp member with rfl | rfl
    · exact (foreign kind).1
    · exact (foreign kind).2
  obtain ⟨-, -, -, -, same⟩ :=
    scan_annotated line (List.cons_ne_nil first [second]) apart begins
  refine ⟨line, [first, second], rfl, rfl, by simp, apart, begins, ?_⟩
  rw [ne_eq, same]
  intro unmarked
  obtain ⟨entry, member, found⟩ := List.any_eq_true.mp declared
  obtain ⟨start, kind⟩ := of_decide_eq_true found
  refine unmarked entry member start ?_
  rw [kind]
  exact (by decide : "SwiftAsync".toList ∈ Kind.async.markers.map String.toList)

/-- An annotation between the marker of a function and its header takes the marker away. -/
theorem scan_annotated_deprecated :
    (scan "@SwiftAsync\nsuspend fun f()".toList).map (·.isMarked) = [true] ∧
    (scan "@SwiftAsync\n@Deprecated\nsuspend fun f()".toList).map (·.isMarked) = [false] ∧
    scan "@SwiftAsync\n@Deprecated\nsuspend fun f()".toList ≠
      scan "@SwiftAsync\nsuspend fun f()".toList := by
  decide +kernel

end DeclBridge.Kotlin
