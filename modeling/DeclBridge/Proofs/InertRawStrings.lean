import DeclBridge.Proofs.LiteralReadings

/-! What a raw string holds is inert. With and without it the same declarations are found, and each
that is not read across the raw string is equal. -/

namespace DeclBridge

/-! Declarations without the texts that are read in brackets -/

def Variant.outline (variant : Variant) : Variant :=
  { variant with properties := [] }

def SumType.outline (declaration : SumType) : SumType :=
  { declaration with
    typeParameters := []
    variants := declaration.variants.map Variant.outline
    rename := declaration.rename.map fun _ => []
    isExhaustive := true }

def AsyncFunction.outline (declaration : AsyncFunction) : AsyncFunction :=
  { declaration with parameters := [], returnType := [], typeParameters := [], isFailable := true }

def Stream.outline (declaration : Stream) : Stream :=
  { declaration with elementType := [], parameters := [] }

/-- What is declared, without the texts of parameters, types and markers. -/
def Declaration.outline : Declaration → Declaration
  | sum declaration => .sum declaration.outline
  | async declaration => .async declaration.outline
  | stream declaration => .stream declaration.outline

namespace Kotlin

open Text Syntax

/-- Up to the texts that are read in brackets a declaration is the same as another one, and if that
is not read across an offset it is the same as a whole. -/
def Placed.IsKept (placed : Placed) (offset : Nat) (declaration : Declaration) : Prop :=
  declaration.outline = placed.declaration.outline ∧
    (placed.IsApart offset → declaration = placed.declaration)

variable {α β γ δ : Type} {front back content : Text}

section

variable (unquoted : '"' ∉ front) (calm : '\n' ∈ content → ¬AwaitsBody front)
include unquoted calm

/-! The declarations of both sources -/

omit calm in
theorem identity_literalSource (owner : Option Text) (name : Text) :
    (literalSource front back content).identity owner name =
      (literalSource front back []).identity owner name := by
  have package : (literalSource front back content).package =
      (literalSource front back []).package :=
    packageName_literal unquoted (isBlanked_blankOut content) true
  rw [Source.identity, Source.identity, package]

omit unquoted calm in
theorem isEmpty_marker {outline : α → γ} {last : β → δ}
    {filled empty : Occurrence (Reading (Marked α) β)}
    (found : Matches front back (blankOut content) (Reading.outline (Marked.outline outline) last)
      filled empty) :
    ((literalSource front back content).slice filled.start filled.found.header.marker).isEmpty =
      ((literalSource front back []).slice empty.start empty.found.header.marker).isEmpty := by
  have slice (content : Text) {start length : Nat}
      (inside : start < front.length + 6 + back.length + content.length) :
      ((literalSource front back content).slice start length).isEmpty = (length = 0 : Bool) := by
    have longer : start < (literalSource front back content).text.length := by
      rw [literalSource, List.length_append, List.length_append, length_rawString]
      omega
    cases length with
    | zero => rfl
    | succ length =>
      rw [Source.slice, List.drop_eq_getElem_cons longer]
      rfl
  have length : (blankOut content).length = content.length := by simp [blankOut]
  have bounds := found.start_lt
  rw [length] at bounds
  simp only [slice content bounds.1, slice [] bounds.2, found.unmarked_iff]

theorem objectCases_literalSource (parent : Text) :
    (literalSource front back content).objectCases parent =
      ((literalSource front back []).objectCases parent).map
        (Prod.map (shift front (blankOut content)) id) := by
  have header (before : Option Char) :
      Respects front back (blankOut content) id (objectHeader? before) :=
    .of_stopsAt (isOuter_quote.stopsAt_objectHeader? before) unquoted id
  have places := matches_places unquoted calm (by decide) refuses_object header
  rw [Source.objectCases, Source.objectCases, List.map_filterMap]
  refine filterMap_eq_of_forall₂ places fun empty _ filled found => ?_
  have same : filled.found = empty.found := found.outline_eq
  rw [same, found.start_eq]
  split <;> rfl

section

variable {view : Variant → Variant} {parent : Text}
  (seen : ∀ filled, ∀ empty ∈ (literalSource front back []).caseReadings,
    afterLast '.' empty.found.tail.2 = parent →
    Matches front back (blankOut content) (Reading.outline id fun tail => tail.2) filled empty →
    view ((literalSource front back content).caseOf filled).2 =
      view ((literalSource front back []).caseOf empty).2)
include seen

theorem dataCases_literalSource :
    ((literalSource front back content).dataCases parent).map (Prod.map id view) =
      ((literalSource front back []).dataCases parent).map
        (Prod.map (shift front (blankOut content)) view) := by
  rw [Source.dataCases_eq, Source.dataCases_eq, List.map_map, List.map_map]
  rw [← List.forall₂_eq_eq_eq]
  refine forall₂_map (forall₂_filter (matches_caseReadings unquoted calm)
    fun empty _ filled found => ?_) fun empty member filled found => ?_
  · have same : filled.found.tail.2 = empty.found.tail.2 := congrArg (·.2) found.outline_eq
    rw [same]
  · obtain ⟨member, named⟩ := List.mem_filter.mp member
    exact Prod.ext found.start_eq (seen filled empty member (of_decide_eq_true named) found)

theorem variants_literalSource :
    ((literalSource front back content).variants parent).map view =
      ((literalSource front back []).variants parent).map view := by
  have cases := dataCases_literalSource unquoted calm seen
  have objects : ((literalSource front back content).objectCases parent).map (Prod.map id view) =
      ((literalSource front back []).objectCases parent).map
        (Prod.map (shift front (blankOut content)) view) := by
    rw [objectCases_literalSource unquoted calm, List.map_map]
    rfl
  have order (move : Nat → Nat) (mono : StrictMono move) (found : List (Nat × Variant)) :
      (found.mergeSort (·.1 ≤ ·.1)).map (Prod.map move view) =
        (found.map (Prod.map move view)).mergeSort (·.1 ≤ ·.1) :=
    List.map_mergeSort fun _ _ _ _ => by simp [mono.le_iff_le]
  have second (move : Nat → Nat) (found : List (Nat × Variant)) :
      (found.map (·.2)).map view = (found.map (Prod.map move view)).map (·.2) := by
    rw [List.map_map, List.map_map]
    rfl
  rw [Source.variants, Source.variants, second id, second (shift front (blankOut content)),
    order id strictMono_id, order _ (strictMono_shift front (blankOut content)), List.map_append,
    List.map_append, cases, objects]

end

omit unquoted calm in
theorem caseOf_outline {filled empty : Occurrence (Reading Text (Text × Text))}
    (found : Matches front back (blankOut content) (Reading.outline id fun tail => tail.2)
      filled empty) :
    ((literalSource front back content).caseOf filled).2.outline =
      ((literalSource front back []).caseOf empty).2.outline := by
  have name : filled.found.header = empty.found.header := congrArg (·.1) found.outline_eq
  simp only [Source.caseOf, Variant.outline, name]

omit unquoted calm in
theorem caseOf_eq {filled empty : Occurrence (Reading Text (Text × Text))}
    (found : Matches front back (blankOut content) (Reading.outline id fun tail => tail.2)
      filled empty)
    (apart : ¬(empty.start < front.length ∧ front.length < empty.stop))
    (fits : empty.start + empty.found.length + empty.found.tail.1.length ≤ empty.stop) :
    ((literalSource front back content).caseOf filled).2 =
      ((literalSource front back []).caseOf empty).2 := by
  have inner := found.slice_eq apart fits
  simp only [Source.caseOf, found.found_eq apart, inner]

/-! Sum types -/

theorem sumOf_outline {filled empty : Occurrence (Reading (Marked Text) Text)}
    (found : Matches front back (blankOut content) (Reading.outline (Marked.outline id) fun _ => ())
      filled empty) :
    ((literalSource front back content).sumOf filled).outline =
      ((literalSource front back []).sumOf empty).outline := by
  have name : filled.found.header.header = empty.found.header.header :=
    congrArg (·.1.2) found.outline_eq
  have owner := containingType_eq_of_matches unquoted calm found
  have variants (name : Text) :
      ((literalSource front back content).variants name).map Variant.outline =
        ((literalSource front back []).variants name).map Variant.outline :=
    variants_literalSource unquoted calm fun _ _ _ _ found => caseOf_outline found
  have marker := isEmpty_marker found
  simp only [SumType.outline, Source.sumOf, name, owner, variants, marker,
    identity_literalSource unquoted]
  split <;> rfl

theorem sumOf_eq {filled empty : Occurrence (Reading (Marked Text) Text)}
    (found : Matches front back (blankOut content) (Reading.outline (Marked.outline id) fun _ => ())
      filled empty)
    (apart : ∀ extent ∈ (literalSource front back []).sumExtents empty,
      ¬(extent.1 < front.length ∧ front.length < extent.2))
    (member : empty ∈ (literalSource front back []).sumReadings) :
    (literalSource front back content).sumOf filled =
      (literalSource front back []).sumOf empty := by
  obtain ⟨here, cases⟩ := List.forall_mem_cons.mp apart
  have apartCases : ∀ reading ∈ (literalSource front back []).caseReadings,
      afterLast '.' reading.found.tail.2 = empty.found.header.header →
        ¬(reading.start < front.length ∧ front.length < reading.stop) := by
    intro reading inside named
    have found : reading ∈ (literalSource front back []).caseReadings.filter fun found =>
        afterLast '.' found.found.tail.2 = empty.found.header.header :=
      List.mem_filter.mpr ⟨inside, decide_eq_true named⟩
    exact cases (reading.start, reading.stop) (List.mem_map.mpr ⟨reading, found, rfl⟩)
  have same := found.found_eq here
  have owner := containingType_eq_of_matches unquoted calm found
  have variants : (literalSource front back content).variants empty.found.header.header =
      (literalSource front back []).variants empty.found.header.header := by
    have viewed := @variants_literalSource front back content unquoted calm id
      empty.found.header.header fun _ _ inside named found =>
        caseOf_eq found (apartCases _ inside named) (Source.fits_of_mem_caseReadings inside)
    rwa [List.map_id, List.map_id] at viewed
  have marker := found.marker_eq here (Source.fits_of_mem_sumReadings member)
  simp only [Source.sumOf, same, owner, variants, marker, identity_literalSource unquoted]

/-! Functions and properties -/

theorem asyncOf_outline
    {filled empty : Occurrence (Reading (Marked FunctionHeader) (Text × Option Text))}
    (found : Matches front back (blankOut content)
      (Reading.outline (Marked.outline FunctionHeader.name) fun _ => ()) filled empty) :
    ((literalSource front back content).asyncOf filled).outline =
      ((literalSource front back []).asyncOf empty).outline := by
  have name : filled.found.header.header.name = empty.found.header.header.name :=
    congrArg (·.1.2) found.outline_eq
  have owner := containingType_eq_of_matches unquoted calm found
  have marker := isEmpty_marker found
  simp only [AsyncFunction.outline, Source.asyncOf, name, owner, marker,
    identity_literalSource unquoted]

theorem asyncOf_eq
    {filled empty : Occurrence (Reading (Marked FunctionHeader) (Text × Option Text))}
    (found : Matches front back (blankOut content)
      (Reading.outline (Marked.outline FunctionHeader.name) fun _ => ()) filled empty)
    (apart : ¬(empty.start < front.length ∧ front.length < empty.stop))
    (member : empty ∈ (literalSource front back []).asyncReadings) :
    (literalSource front back content).asyncOf filled =
      (literalSource front back []).asyncOf empty := by
  have fits := Source.fits_of_mem_asyncReadings member
  have same := found.found_eq apart
  have owner := containingType_eq_of_matches unquoted calm found
  have marker := found.marker_eq apart fits.1
  have inner := found.slice_eq apart fits.2
  simp only [Source.asyncOf, same, owner, marker, inner, identity_literalSource unquoted]

theorem flowOf_outline
    {filled empty : Occurrence (Reading (Marked (Bool × FunctionHeader)) (Text × Text))}
    (found : Matches front back (blankOut content) (Reading.outline
      (Marked.outline (Prod.map id FunctionHeader.name)) fun tail => isBlankText tail.2)
      filled empty) :
    ((literalSource front back content).flowOf filled).outline =
      ((literalSource front back []).flowOf empty).outline := by
  have name : filled.found.header.header.2.name = empty.found.header.header.2.name :=
    congrArg (·.1.2.2) found.outline_eq
  have owner := containingType_eq_of_matches unquoted calm found
  simp only [Stream.outline, Source.flowOf, name, owner, identity_literalSource unquoted, ne_eq,
    found.unmarked_iff]

theorem flowOf_eq
    {filled empty : Occurrence (Reading (Marked (Bool × FunctionHeader)) (Text × Text))}
    (found : Matches front back (blankOut content) (Reading.outline
      (Marked.outline (Prod.map id FunctionHeader.name)) fun tail => isBlankText tail.2)
      filled empty)
    (apart : ¬(empty.start < front.length ∧ front.length < empty.stop))
    (member : empty ∈ (literalSource front back []).flowReadings) :
    (literalSource front back content).flowOf filled =
      (literalSource front back []).flowOf empty := by
  have same := found.found_eq apart
  have owner := containingType_eq_of_matches unquoted calm found
  have inner := found.slice_eq apart (Source.fits_of_mem_flowReadings member)
  simp only [Source.flowOf, same, owner, inner, identity_literalSource unquoted]

theorem propertyOf_outline {filled empty : Occurrence (Reading (Marked Text) Text)}
    (found : Matches front back (blankOut content)
      (Reading.outline (Marked.outline id) isBlankText) filled empty) :
    ((literalSource front back content).propertyOf filled).outline =
      ((literalSource front back []).propertyOf empty).outline := by
  have name : filled.found.header.header = empty.found.header.header :=
    congrArg (·.1.2) found.outline_eq
  have owner := containingType_eq_of_matches unquoted calm found
  simp only [Stream.outline, Source.propertyOf, name, owner, identity_literalSource unquoted, ne_eq,
    found.unmarked_iff]

theorem propertyOf_eq {filled empty : Occurrence (Reading (Marked Text) Text)}
    (found : Matches front back (blankOut content)
      (Reading.outline (Marked.outline id) isBlankText) filled empty)
    (apart : ¬(empty.start < front.length ∧ front.length < empty.stop)) :
    (literalSource front back content).propertyOf filled =
      (literalSource front back []).propertyOf empty := by
  have same := found.found_eq apart
  have owner := containingType_eq_of_matches unquoted calm found
  simp only [Source.propertyOf, same, owner, identity_literalSource unquoted]

/-! Whole sources -/

/-- Whatever is declared is declared in both sources, at the same place of the answer. -/
theorem kept_placed :
    List.Forall₂ (fun filled empty => empty.IsKept front.length filled.declaration)
      (literalSource front back content).placed (literalSource front back []).placed := by
  have here {α β : Type} {reading : Occurrence (Reading α β)} {declaration : Declaration}
      (apart : Placed.IsApart ⟨[(reading.start, reading.stop)], declaration⟩ front.length) :
      ¬(reading.start < front.length ∧ front.length < reading.stop) :=
    apart (reading.start, reading.stop) List.mem_cons_self
  rw [Source.placed, Source.placed]
  refine List.rel_append (List.rel_append (List.rel_append ?sums ?functions) ?flows) ?properties
  case sums =>
    refine forall₂_map (matches_sumReadings unquoted calm) fun empty member filled found => ?_
    exact ⟨congrArg Declaration.sum (sumOf_outline unquoted calm found), fun apart =>
      congrArg Declaration.sum (sumOf_eq unquoted calm found apart member)⟩
  case functions =>
    refine forall₂_map (matches_asyncReadings unquoted calm) fun empty member filled found => ?_
    exact ⟨congrArg Declaration.async (asyncOf_outline unquoted calm found), fun apart =>
      congrArg Declaration.async (asyncOf_eq unquoted calm found (here apart) member)⟩
  case flows =>
    refine forall₂_map (matches_flowReadings unquoted calm) fun empty member filled found => ?_
    exact ⟨congrArg Declaration.stream (flowOf_outline unquoted calm found), fun apart =>
      congrArg Declaration.stream (flowOf_eq unquoted calm found (here apart) member)⟩
  case properties =>
    refine forall₂_map (matches_propertyReadings unquoted calm) fun empty _ filled found => ?_
    exact ⟨congrArg Declaration.stream (propertyOf_outline unquoted calm found), fun apart =>
      congrArg Declaration.stream (propertyOf_eq unquoted calm found (here apart))⟩

end

theorem newline_of_withoutComments (broken : '\n' ∈ withoutComments content) :
    '\n' ∈ content := by
  by_contra single
  simp [withoutComments, withoutBlockComments, single] at broken

/-- With and without the contents of a raw string the same is declared in the same order, and what
is not read across the raw string is the same as a whole. -/
theorem scan_rawString (frontFree : IsFree replaceMarks front) (backFree : IsFree replaceMarks back)
    (unquoted : '"' ∉ content) (closed : IsClosedContent content)
    (calm : '\n' ∈ content → ¬AwaitsBody front) :
    let placed := (Source.ofText (front ++ rawString [] ++ back)).placed
    placed.map Placed.declaration = scan (front ++ rawString [] ++ back) ∧
      List.Forall₂ (fun declaration placed => placed.IsKept front.length declaration)
        (scan (front ++ rawString content ++ back)) placed ∧
      ((∀ declared ∈ placed, declared.IsApart front.length) →
        scan (front ++ rawString content ++ back) = scan (front ++ rawString [] ++ back)) := by
  have quiet : '"' ∉ front := fun inside => frontFree '"' inside (by decide)
  have awaits : '\n' ∈ withoutComments content → ¬AwaitsBody front := fun broken =>
    calm (newline_of_withoutComments broken)
  have filled := ofText_rawString frontFree backFree unquoted closed
  have empty : Source.ofText (front ++ rawString [] ++ back) = literalSource front back [] :=
    ofText_rawString frontFree backFree List.not_mem_nil (by decide)
  have kept := @kept_placed front back (withoutComments content) quiet awaits
  rw [← filled, ← empty] at kept
  intro placed
  have found : List.Forall₂ (fun declaration placed => placed.IsKept front.length declaration)
      (scan (front ++ rawString content ++ back)) placed := by
    rw [← Source.map_placed]
    exact List.forall₂_map_left_iff.mpr kept
  refine ⟨Source.map_placed _, found, fun apart => ?_⟩
  rw [← Source.map_placed (front ++ rawString [] ++ back), ← List.map_id (scan _),
    ← List.forall₂_eq_eq_eq]
  exact forall₂_map found fun declared member _ kept => kept.2 (apart declared member)

/-- In the body of a type neither braces nor comments nor headers do anything. -/
theorem scan_rawString_member :
    let front := "sealed class S \x7b\n val q = ".toList
    let content := "\x7d // a\nsuspend fun ghost() /* b */".toList
    let back := "\n suspend fun f(x: Int): T\n\x7d".toList
    IsFree replaceMarks front ∧ IsFree replaceMarks back ∧ '"' ∉ content ∧
      IsClosedContent content ∧ ('\n' ∈ content → ¬AwaitsBody front) ∧
      (∀ declared ∈ (Source.ofText (front ++ rawString [] ++ back)).placed,
        declared.IsApart front.length) ∧
      scan (front ++ rawString content ++ back) = scan (front ++ rawString [] ++ back) := by
  intro front content back
  have frontFree : IsFree replaceMarks front := by decide
  have backFree : IsFree replaceMarks back := by decide
  have unquoted : '"' ∉ content := by decide
  have closed : IsClosedContent content := by decide +kernel
  have calm : '\n' ∈ content → ¬AwaitsBody front := by decide +kernel
  have apart : ∀ declared ∈ (Source.ofText (front ++ rawString [] ++ back)).placed,
      declared.IsApart front.length := by decide +kernel
  exact ⟨frontFree, backFree, unquoted, closed, calm, apart,
    (scan_rawString frontFree backFree unquoted closed calm).2.2 apart⟩

/-- A line comment at the end of a raw string uncovers what is in it. -/
theorem scan_uncovered :
    let front := "val q = ".toList
    let content := "\nsuspend fun ghost()\n// ".toList
    scan (front ++ rawString content ++ ['\n']) ≠ scan (front ++ rawString [] ++ ['\n']) := by
  decide +kernel

/-- A line break ends a header that awaits its body. -/
example :
    let front := "class A : CharSequence by ".toList
    let back := " \x7b\n suspend fun f()\n\x7d".toList
    scan (front ++ rawString ['\n'] ++ back) ≠ scan (front ++ rawString [] ++ back) := by
  decide +kernel

/-- Among parameters a backslash takes the first of the closing quotes with it. -/
example :
    let front := "suspend fun f(a: String = ".toList
    let back := ", b: Int)".toList
    scan (front ++ rawString ['\\'] ++ back) ≠ scan (front ++ rawString [] ++ back) := by
  decide +kernel

end Kotlin

end DeclBridge
