import DeclBridge.Kotlin.Scan
import DeclBridge.Proofs.CrossingHeaders
import DeclBridge.Proofs.KotlinHeaders
import DeclBridge.Proofs.LiteralPlaces

/-! What the scanner reads for one declaration: its header, and behind it brackets and types. The
declaration is made from this reading and from the text it was read in. -/

namespace DeclBridge.Text

/-- A header, its length, and what is read behind it. -/
structure Reading (α β : Type) where
  header : α
  length : Nat
  tail : β

/-- Reads on behind a header. -/
def Occurrence.readOn (read : Text → Option (β × Text)) (place : Occurrence α) :
    Option (Occurrence (Reading α β)) :=
  (read place.rest).map fun (tail, rest) =>
    ⟨place.start, place.stop + (place.rest.length - rest.length),
      ⟨place.found, place.stop - place.start, tail⟩, rest⟩

theorem le_start_of_mem_occurrencesFrom {read : Lookbehind α} {offset : Nat} {before : Option Char}
    {text : Text} {place : Occurrence α}
    (member : place ∈ occurrencesFrom read offset before text) : offset ≤ place.start := by
  fun_induction occurrencesFrom read offset before text with
  | case1 => cases member
  | case2 offset before c text refused ih | case4 offset before c text item rest found longer ih =>
    exact Nat.le_of_succ_le (ih member)
  | case3 offset before c text item rest found bound used ih =>
    rcases List.mem_cons.mp member with rfl | member
    · exact Nat.le_refl offset
    · exact Nat.le_trans (Nat.le_add_right _ _) (ih member)

theorem start_lt_stop_of_mem_occurrencesFrom {read : Lookbehind α} {offset : Nat}
    {before : Option Char} {text : Text} {place : Occurrence α}
    (member : place ∈ occurrencesFrom read offset before text) : place.start < place.stop := by
  fun_induction occurrencesFrom read offset before text with
  | case1 => cases member
  | case2 offset before c text refused ih | case4 offset before c text item rest found longer ih =>
    exact ih member
  | case3 offset before c text item rest found bound used ih =>
    rcases List.mem_cons.mp member with rfl | member
    · have length : used.length = text.length + 1 - rest.length := by simp [used]
      dsimp only
      omega
    · exact ih member

end DeclBridge.Text

namespace DeclBridge.Kotlin

open Text

variable {α β γ : Type}

/-! What is read behind a header -/

/-- The type parameters of a sum type. -/
def typeClause? : Text → Option (Text × Text)
  | '<' :: rest => Bracket.angle.inside rest
  | text => some ([], text)

/-- What stands in parentheses, and what is read behind them. -/
def behindRound? (read : Text → Option (β × Text)) (text : Text) :
    Option ((Text × β) × Text) := do
  let (inner, after) ← Bracket.round.inside text
  let (found, rest) ← read after
  pure ((inner, found), rest)

/-- A return type, which may be missing. -/
def returnType? (text : Text) : Option (Option Text × Text) :=
  some ((((afterColon? text).bind readType?).map (Prod.map some id)).getD (none, text))

/-- The elements of the flow that a function returns. -/
def flowElement? (text : Text) : Option (Text × Text) :=
  (afterFlowReturn? text).bind Bracket.angle.inside

section

variable {front blank : Text} (back : Text) (unquoted : '"' ∉ front) (blanked : IsBlanked blank)
include unquoted blanked

theorem respects_typeClause? : Respects front back blank (fun _ => ()) typeClause? := by
  have inside := (respects_inside back .angle unquoted blanked).map id (fun _ => ())
    fun _ _ _ => rfl
  have missing : StopsAt '"' fun text => some (([] : Text), text) := .pure []
  have whole := inside.choose '<' (by decide) (.of_stopsAt missing unquoted _)
  refine (congrArg (Respects front back blank _) (funext fun text => ?_)).mp whole
  cases text with
  | nil => rfl
  | cons c text => by_cases angle : c = '<' <;> simp [angle, typeClause?]

theorem respects_behindRound? {read : Text → Option (α × Text)} {outline : α → β}
    (respects : Respects front back blank outline read) :
    Respects front back blank (fun tail => outline tail.2) (behindRound? read) := by
  have tail (inner : Text) := respects.map (inner, ·) (fun tail => outline tail.2)
    fun _ _ same => same
  have whole := (respects_inside back .round unquoted blanked).bind tail
    fun _ _ _ _ => by simp only [Option.map_map]; rfl
  refine (congrArg (Respects front back blank _) (funext fun text => ?_)).mp whole
  simp only [behindRound?, Option.bind_eq_bind, Option.map_eq_bind]
  rfl

theorem respects_returnType? : Respects front back blank (fun _ => ()) returnType? := by
  have colon : Respects front back blank id (passing afterColon?) :=
    .of_stopsAt isOuter_quote.stopsAt_afterColon? unquoted id
  have returned := (colon.behind (respects_readType? back unquoted blanked)).map some (fun _ => ())
    fun _ _ _ => rfl
  exact returned.optional none

theorem respects_flowElement? : Respects front back blank isBlankText flowElement? := by
  have lead : Respects front back blank id (passing afterFlowReturn?) :=
    .of_stopsAt isOuter_quote.stopsAt_afterFlowReturn? unquoted id
  exact lead.behind (respects_inside back .angle unquoted blanked)

end

/-- A declaration, and from where to where the text is read for it. -/
structure Placed where
  extents : List (Nat × Nat)
  declaration : Declaration

/-- The text is not read across an offset: it stands neither in the marker or the header of the
declaration nor in its parameters or its type. -/
def Placed.IsApart (placed : Placed) (offset : Nat) : Prop :=
  ∀ extent ∈ placed.extents, ¬(extent.1 < offset ∧ offset < extent.2)

instance (placed : Placed) (offset : Nat) : Decidable (placed.IsApart offset) :=
  inferInstanceAs (Decidable (∀ extent ∈ placed.extents, _))

namespace Source

variable (source : Source)

/-! The readings of a source -/

def sumReadings : List (Occurrence (Reading (Marked Text) Text)) :=
  let places := source.places fun _ => marked? ["SwiftEnum"] sealedHeader?
  let closed := places.filter fun place =>
    !source.scopes.isUnterminatedHeader (place.stop - place.found.header.length)
  closed.filterMap (·.readOn typeClause?)

def caseReadings : List (Occurrence (Reading Text (Text × Text))) :=
  (source.places dataCaseHeader?).filterMap (·.readOn (behindRound? supertype?))

def asyncReadings : List (Occurrence (Reading (Marked FunctionHeader) (Text × Option Text))) :=
  let places := source.places fun _ => marked? ["SwiftAsync", "SwiftDefaults"] suspendHeader?
  places.filterMap (·.readOn (behindRound? returnType?))

def flowReadings : List (Occurrence (Reading (Marked (Bool × FunctionHeader)) (Text × Text))) :=
  let places := source.places fun _ => marked? ["SwiftFlow"] anyFunctionHeader?
  (places.filterMap (·.readOn (behindRound? flowElement?))).filter fun reading =>
    !reading.found.header.header.1 && !isBlankText reading.found.tail.2

def propertyReadings : List (Occurrence (Reading (Marked Text) Text)) :=
  let places := source.places fun _ => marked? ["SwiftFlow"] flowPropertyHeader?
  (places.filterMap (·.readOn Bracket.angle.inside)).filter fun reading =>
    !isBlankText reading.found.tail

/-! The declarations of readings -/

def sumOf (reading : Occurrence (Reading (Marked Text) Text)) : SumType :=
  let name := reading.found.header.header
  let marker := source.slice reading.start reading.found.header.marker
  { toIdentity := source.identity (source.scopes.containingType reading.start) name
    typeParameters := typeParameters (trim reading.found.tail)
    variants := source.variants name
    rename :=
      if marker.isEmpty then none else some ((firstMatch? (wordArgument? "name") marker).getD name)
    isExhaustive := (firstMatch? (booleanArgument? "exhaustive") marker).getD true }

def caseOf (reading : Occurrence (Reading Text (Text × Text))) : Nat × Variant :=
  let inner := source.slice (reading.start + reading.found.length) reading.found.tail.1.length
  (reading.start, { name := reading.found.header, properties := readProperties inner })

def asyncOf (reading : Occurrence (Reading (Marked FunctionHeader) (Text × Option Text))) :
    AsyncFunction :=
  let header := reading.found.header.header
  let marker := source.slice reading.start reading.found.header.marker
  let inner := source.slice (reading.start + reading.found.length) reading.found.tail.1.length
  let owner := source.scopes.containingType reading.start
  { toIdentity := source.identity owner header.name
    parameters := readParameters inner
    returnType := (reading.found.tail.2.map collapse).getD unitType
    typeParameters := typeParameters header.typeClause
    isFailable := (firstMatch? (booleanArgument? "throwing") marker).getD true
    owner
    isMarked := !marker.isEmpty }

def flowOf (reading : Occurrence (Reading (Marked (Bool × FunctionHeader)) (Text × Text))) :
    Stream :=
  let inner := source.slice (reading.start + reading.found.length) reading.found.tail.1.length
  let owner := source.scopes.containingType reading.start
  { toIdentity := source.identity owner reading.found.header.header.2.name
    elementType := collapse reading.found.tail.2
    parameters := readParameters inner
    owner
    isMarked := reading.found.header.marker ≠ 0 }

def propertyOf (reading : Occurrence (Reading (Marked Text) Text)) : Stream :=
  let owner := source.scopes.containingType reading.start
  { toIdentity := source.identity owner reading.found.header.header
    elementType := collapse reading.found.tail
    owner
    isProperty := true
    isMarked := reading.found.header.marker ≠ 0 }

/-- From where to where the text is read for a sum type and for each of its cases. -/
def sumExtents (reading : Occurrence (Reading (Marked Text) Text)) : List (Nat × Nat) :=
  let cases := source.caseReadings.filter fun found =>
    afterLast '.' found.found.tail.2 = reading.found.header.header
  (reading.start, reading.stop) :: cases.map fun found => (found.start, found.stop)

/-- What the scanner answers with, and where it is read. -/
def placed : List Placed :=
  source.sumReadings.map (fun reading =>
      ⟨source.sumExtents reading, .sum (source.sumOf reading)⟩) ++
    source.asyncReadings.map (fun reading =>
      ⟨[(reading.start, reading.stop)], .async (source.asyncOf reading)⟩) ++
    source.flowReadings.map (fun reading =>
      ⟨[(reading.start, reading.stop)], .stream (source.flowOf reading)⟩) ++
    source.propertyReadings.map (fun reading =>
      ⟨[(reading.start, reading.stop)], .stream (source.propertyOf reading)⟩)

variable {source}

theorem start_lt_stop_of_mem_places {header? : Lookbehind α} {place : Occurrence α}
    (member : place ∈ source.places header?) : place.start < place.stop :=
  start_lt_stop_of_mem_occurrencesFrom (List.mem_filter.mp member).1

theorem sumTypes_eq : source.sumTypes = source.sumReadings.map source.sumOf := by
  rw [sumTypes, sumReadings, List.map_filterMap]
  refine List.filterMap_congr fun place _ => ?_
  have plain : typeParameters (trim []) = [] := rfl
  simp only [sumType?, Occurrence.readOn]
  cases place.rest with
  | nil => simp [typeClause?, plain, sumOf, markerText]
  | cons c rest =>
    by_cases angle : c = '<'
    · simp only [angle, typeClause?]
      cases Bracket.angle.inside rest <;> simp [sumOf, markerText]
    · simp [typeClause?, angle, plain, sumOf, markerText]

theorem dataCases_eq (parent : Text) :
    source.dataCases parent = (source.caseReadings.filter fun reading =>
      afterLast '.' reading.found.tail.2 = parent).map source.caseOf := by
  rw [dataCases, caseReadings, List.filter_filterMap, List.map_filterMap]
  refine List.filterMap_congr fun place member => ?_
  have order := start_lt_stop_of_mem_places member
  have stop : place.start + (place.stop - place.start) = place.stop :=
    Nat.add_sub_of_le (Nat.le_of_lt order)
  simp only [Occurrence.readOn, behindRound?]
  cases closed : Bracket.round.inside place.rest with
  | none => rfl
  | some answer =>
    obtain ⟨inner, after⟩ := answer
    cases named : supertype? after with
    | none => simp [named]
    | some answer =>
      by_cases same : afterLast '.' answer.1 = parent <;>
        simp [named, same, caseOf, stop, Option.filter]

theorem asyncFunctions_eq : source.asyncFunctions = source.asyncReadings.map source.asyncOf := by
  rw [asyncFunctions, asyncReadings, List.map_filterMap]
  refine List.filterMap_congr fun place member => ?_
  have order := start_lt_stop_of_mem_places member
  have stop : place.start + (place.stop - place.start) = place.stop :=
    Nat.add_sub_of_le (Nat.le_of_lt order)
  simp only [asyncFunction?, Occurrence.readOn, behindRound?, returnType?]
  cases closed : Bracket.round.inside place.rest with
  | none => rfl
  | some answer =>
    simp only [Option.bind_eq_bind, Option.bind_some]
    cases (afterColon? answer.2).bind readType? <;> simp [asyncOf, markerText, stop]

theorem streams_eq : source.streams =
    source.flowReadings.map source.flowOf ++ source.propertyReadings.map source.propertyOf := by
  rw [streams, flowReadings, propertyReadings, List.filter_filterMap, List.filter_filterMap,
    List.map_filterMap, List.map_filterMap]
  refine congrArg₂ _ (List.filterMap_congr fun place member => ?_)
    (List.filterMap_congr fun place _ => ?_)
  · have order := start_lt_stop_of_mem_places member
    have stop : place.start + (place.stop - place.start) = place.stop :=
      Nat.add_sub_of_le (Nat.le_of_lt order)
    simp only [flowFunction?, Occurrence.readOn, behindRound?, flowElement?, elementType?]
    cases Bracket.round.inside place.rest with
    | none => cases place.found.header.1 <;> rfl
    | some answer =>
      cases returned : afterFlowReturn? answer.2 with
      | none => cases place.found.header.1 <;> simp [returned]
      | some behind =>
        cases element : Bracket.angle.inside behind with
        | none => cases place.found.header.1 <;> simp [returned, element]
        | some last =>
          by_cases suspends : place.found.header.1 <;> by_cases blank : isBlankText last.1 <;>
            simp [suspends, returned, element, blank, flowOf, stop, Option.filter]
  · simp only [flowProperty?, Occurrence.readOn, elementType?]
    cases closed : Bracket.angle.inside place.rest with
    | none => rfl
    | some answer =>
      by_cases blank : isBlankText answer.1 <;> simp [blank, propertyOf, Option.filter]

theorem map_placed (text : Text) :
    (ofText text).placed.map Placed.declaration = scan text := by
  rw [scan, sumTypes_eq, asyncFunctions_eq, streams_eq, placed]
  simp only [List.map_append, List.map_map, List.append_assoc]
  rfl

end Source

/-! Where the parts of a reading lie -/

/-- Where the header behind a marker is read. -/
theorem exists_suffix_of_marked? {names : List String} {header? : Text → Option (α × Text)}
    {text rest : Text} {found : Marked α} (read : marked? names header? text = some (found, rest)) :
    ∃ unmarked, unmarked <:+ text ∧ found.marker + unmarked.length = text.length ∧
      header? unmarked = some (found.header, rest) := by
  obtain ⟨marker, unmarked, -, length, rfl, headed⟩ := exists_marker_of_marked? read
  exact ⟨unmarked, List.suffix_append marker unmarked, by rw [length, List.length_append], headed⟩

/-- The marker of a reading and its header lie within it. -/
theorem marker_le_of_readOn {source : Source} {names : List String}
    (unquoted : ∀ name ∈ names, '"' ∉ name.toList) {header? : Text → Option (α × Text)}
    {outline : α → γ} (respects : Respects [] [] [] outline header?)
    {place : Occurrence (Marked α)} (member : place ∈ source.places fun _ => marked? names header?)
    {read : Text → Option (β × Text)} {reading : Occurrence (Reading (Marked α) β)}
    (found : place.readOn read = some reading) :
    reading.start + reading.found.header.marker ≤ reading.stop := by
  have marker := respects_marked? [] List.not_mem_nil isBlanked_nil unquoted respects
  obtain ⟨-, here, read, -, -, start, stop⟩ := exists_read_of_mem_occurrencesFrom
    (fun _ => marker.suffix) (List.mem_filter.mp member).1
  obtain ⟨unmarked, -, length, headed⟩ := exists_suffix_of_marked? read
  have shorter := (respects.suffix _ _ _ headed).length_le
  obtain ⟨⟨tail, rest⟩, -, rfl⟩ := Option.map_eq_some_iff.mp found
  dsimp only
  omega

/-- What stands in parentheses behind a header lies within the reading. -/
theorem inner_le_of_readOn {source : Source} {header? : Lookbehind α} {place : Occurrence α}
    (member : place ∈ source.places header?) {read : Text → Option (β × Text)} {outline : β → γ}
    (respects : Respects [] [] [] outline read) {reading : Occurrence (Reading α (Text × β))}
    (found : place.readOn (behindRound? read) = some reading) :
    reading.start + reading.found.length + reading.found.tail.1.length ≤ reading.stop := by
  have order := Source.start_lt_stop_of_mem_places member
  obtain ⟨⟨tail, rest⟩, begun, rfl⟩ := Option.map_eq_some_iff.mp found
  obtain ⟨⟨inner, after⟩, closed, begun⟩ := Option.bind_eq_some_iff.mp begun
  obtain ⟨⟨item, last⟩, reached, same⟩ := Option.bind_eq_some_iff.mp begun
  have length := Bracket.length_inside closed
  have shorter := (respects.suffix _ _ _ reached).length_le
  cases same
  dsimp only
  omega

namespace Source

variable {source : Source}

theorem fits_of_mem_sumReadings {reading : Occurrence (Reading (Marked Text) Text)}
    (member : reading ∈ source.sumReadings) :
    reading.start + reading.found.header.marker ≤ reading.stop := by
  obtain ⟨place, member, read⟩ := List.mem_filterMap.mp member
  have header : Respects [] [] [] id sealedHeader? :=
    .of_stopsAt isOuter_quote.stopsAt_sealedHeader? List.not_mem_nil id
  exact marker_le_of_readOn (by decide) header (List.mem_filter.mp member).1 read

theorem fits_of_mem_caseReadings {reading : Occurrence (Reading Text (Text × Text))}
    (member : reading ∈ source.caseReadings) :
    reading.start + reading.found.length + reading.found.tail.1.length ≤ reading.stop := by
  obtain ⟨place, member, read⟩ := List.mem_filterMap.mp member
  have supertype : Respects [] [] [] id supertype? :=
    .of_stopsAt isOuter_quote.stopsAt_supertype? List.not_mem_nil id
  exact inner_le_of_readOn member supertype read

theorem fits_of_mem_asyncReadings
    {reading : Occurrence (Reading (Marked FunctionHeader) (Text × Option Text))}
    (member : reading ∈ source.asyncReadings) :
    reading.start + reading.found.header.marker ≤ reading.stop ∧
      reading.start + reading.found.length + reading.found.tail.1.length ≤ reading.stop := by
  obtain ⟨place, member, read⟩ := List.mem_filterMap.mp member
  have header := respects_suspendHeader? [] List.not_mem_nil isBlanked_nil
  have returned := respects_returnType? [] List.not_mem_nil isBlanked_nil
  exact ⟨marker_le_of_readOn (by decide) header member read,
    inner_le_of_readOn member returned read⟩

theorem fits_of_mem_flowReadings
    {reading : Occurrence (Reading (Marked (Bool × FunctionHeader)) (Text × Text))}
    (member : reading ∈ source.flowReadings) :
    reading.start + reading.found.length + reading.found.tail.1.length ≤ reading.stop := by
  obtain ⟨place, member, read⟩ := List.mem_filterMap.mp (List.mem_filter.mp member).1
  have element := respects_flowElement? [] List.not_mem_nil isBlanked_nil
  exact inner_le_of_readOn member element read

end Source

end DeclBridge.Kotlin
