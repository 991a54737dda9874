import DeclBridge.Proofs.EnclosedReaders
import DeclBridge.Proofs.HierarchyHeaders
import DeclBridge.Proofs.ShiftedScopes

/-! A source within another one. Where nothing is read in the text before it, nothing goes on over
the text behind it, and the types around its declarations are the same, the declarations of both
sources are equal. -/

namespace DeclBridge.Text

variable {α β : Type}

/-- The same place when the text is moved and a tail stands behind it. -/
def Occurrence.enclose (distance : Nat) (tail : Text) (place : Occurrence α) : Occurrence α :=
  ⟨place.start + distance, place.stop + distance, place.found, place.rest ++ tail⟩

/-- The rest of a place is what stands behind it. -/
theorem stop_add_length_of_mem_occurrencesFrom {read : Lookbehind α} {offset : Nat}
    {before : Option Char} {text : Text} {place : Occurrence α}
    (member : place ∈ occurrencesFrom read offset before text) :
    place.stop + place.rest.length = offset + text.length := by
  fun_induction occurrencesFrom read offset before text with
  | case1 => cases member
  | case2 offset before c text refused ih | case4 offset before c text item rest found longer ih =>
    rw [ih member, List.length_cons]
    omega
  | case3 offset before c text item rest found bound used ih =>
    have length : used.length = text.length + 1 - rest.length := by simp [used]
    rcases List.mem_cons.mp member with rfl | member
    · rw [List.length_cons]
      dsimp only
      omega
    · rw [ih member, List.length_cons]
      omega

end DeclBridge.Text

namespace DeclBridge.Kotlin

open Text Syntax

variable {α β : Type} {lead tail : Text}

/-! Searching -/

theorem occurrencesFrom_enclose {read : Lookbehind α}
    (keeps : ∀ before, KeepsTail tail (read before))
    (quiet : ∀ offset before, occurrencesFrom read offset before tail = [])
    (distance offset : Nat) (before : Option Char) (text : Text) :
    occurrencesFrom read (offset + distance) before (text ++ tail) =
      (occurrencesFrom read offset before text).map (Occurrence.enclose distance tail) := by
  fun_induction occurrencesFrom read offset before text with
  | case1 => exact quiet _ _
  | case2 offset before c text refused ih =>
    have here := keeps before (c :: text)
    rw [refused, Option.map_none, List.cons_append] at here
    rw [List.cons_append, occurrencesFrom_refused here, Nat.add_right_comm, ih]
  | case3 offset before c text item rest found bound used ih =>
    have here := keeps before (c :: text)
    rw [found, Option.map_some, List.cons_append] at here
    have shorter : (rest ++ tail).length ≤ (text ++ tail).length := by
      rw [List.length_append, List.length_append]
      omega
    have whole : (c :: (text ++ tail)).take ((text ++ tail).length + 1 - (rest ++ tail).length) =
        used := by
      have length : (text ++ tail).length + 1 - (rest ++ tail).length =
          text.length + 1 - rest.length := by
        rw [List.length_append, List.length_append]
        omega
      rw [length, ← List.cons_append]
      refine List.take_append_of_le_length ?_
      rw [List.length_cons]
      omega
    rw [List.cons_append, occurrencesFrom, here]
    simp only [Prod.map, id, if_pos shorter, whole, List.map_cons]
    rw [Nat.add_right_comm, ih]
    rfl
  | case4 offset before c text item rest found longer ih =>
    have here := keeps before (c :: text)
    rw [found, Option.map_some, List.cons_append] at here
    have long : ¬(rest ++ tail).length ≤ (text ++ tail).length := by
      rw [List.length_append, List.length_append]
      omega
    rw [List.cons_append, occurrencesFrom, here]
    simp only [Prod.map, if_neg long]
    rw [Nat.add_right_comm, ih]

/-- Before a text without letters and marker signs nothing is found in it. -/
theorem occurrencesFrom_marks {words : List String} {read : Lookbehind α}
    (keywords : ∀ word ∈ words, IsWord word.toList) (refuses : Refuses words read)
    (marks : ∀ c ∈ tail, isWordChar c = false ∧ c ≠ '@') (offset : Nat) (before : Option Char) :
    occurrencesFrom read offset before tail = [] := by
  have quiet : IsQuiet words [] tail := isQuiet_of_marks keywords marks
  have passed := occurrencesFrom_quiet refuses quiet offset before
  rwa [List.append_nil, occurrencesFrom] at passed

theorem readOn_enclose {read : Text → Option (β × Text)} (keeps : KeepsTail tail read)
    (distance : Nat) (place : Occurrence α) :
    (place.enclose distance tail).readOn read =
      (place.readOn read).map (Occurrence.enclose distance tail) := by
  rw [Occurrence.readOn, Occurrence.enclose, keeps place.rest, Option.map_map, Occurrence.readOn,
    Option.map_map]
  refine Option.map_congr fun found _ => ?_
  have length : (place.rest ++ tail).length - (found.2 ++ tail).length =
      place.rest.length - found.2.length := by
    rw [List.length_append, List.length_append, Nat.add_sub_add_right]
  have stop : place.stop + distance - (place.start + distance) = place.stop - place.start :=
    Nat.add_sub_add_right _ _ _
  simp only [Function.comp_apply, Prod.map, Occurrence.enclose, length, stop, Nat.add_right_comm,
    id]

/-- What is read behind the headers of a text. -/
def readings (header? : Lookbehind α) (read : Text → Option (β × Text)) (text : Text) :
    List (Occurrence (Reading α β)) :=
  (occurrences header? text).filterMap (·.readOn read)

/-- Nothing is read in the lead or over its end. -/
def IsSilent (lead : Text) (header? : Lookbehind α) (read : Text → Option (β × Text)) : Prop :=
  ∀ text, readings header? read (lead ++ text) =
    (occurrencesFrom header? lead.length none text).filterMap (·.readOn read)

/-- A text that ends in a mark is quiet whatever stands behind it. -/
theorem isQuiet_concat {words : List String} (keywords : ∀ word ∈ words, IsWord word.toList)
    {front : Text} (quiet : IsQuiet words [] front) {mark : Char}
    (outside : isWordChar mark = false) (ink : isBlank mark = false) (unmarked : mark ≠ '@')
    (rest : Text) : IsQuiet words rest (front ++ [mark]) := by
  have single : IsQuiet words rest [mark] := isQuiet_of_marks keywords (by simp [outside, unmarked])
  refine IsQuiet.append ?_ single
  induction front with
  | nil => trivial
  | cons c front ih =>
    obtain ⟨here, later⟩ := quiet
    rw [List.append_nil] at here
    refine ⟨⟨here.unmarked, ?_⟩, ih later⟩
    intro word member
    have stops := stopsAt_keyword? ((keywords word member).not_mem outside) ink
    have keeps := (KeepsTail.of_stopsAt_mark stops rest).skip (c :: front)
    rw [here.wordless word member, Option.map_none] at keeps
    exact keeps

theorem occurrencesFrom_congr {read : Lookbehind α} {before other : Option Char}
    (same : read before = read other) (offset : Nat) (text : Text) :
    occurrencesFrom read offset before text = occurrencesFrom read offset other text := by
  cases text with
  | nil => rw [occurrencesFrom, occurrencesFrom]
  | cons c text => rw [occurrencesFrom, occurrencesFrom, same]

/-- Where no header begins, nothing is read. -/
theorem isSilent_of_quiet {words : List String} {header? : Lookbehind α}
    (refuses : Refuses words header?) (quiet : ∀ text, IsQuiet words text lead)
    (same : header? (lastFrom none lead) = header? none) (read : Text → Option (β × Text)) :
    IsSilent lead header? read := by
  intro text
  have passed := occurrencesFrom_quiet refuses (quiet text) 0 none
  rw [readings, occurrences, passed, occurrencesFrom_congr same, Nat.zero_add]

/-- Headers and what is read behind them are the same within a lead and a tail. -/
structure Searches (lead tail : Text) (header? : Lookbehind α) (read : Text → Option (β × Text)) :
    Prop where
  silent : IsSilent lead header? read
  quiet : ∀ offset before, occurrencesFrom header? offset before tail = []
  headers : ∀ before, KeepsTail tail (header? before)
  reads : KeepsTail tail read

/-- What is read in a text is what is read in it between a lead and a tail. -/
def IsMoved (lead tail : Text) (header? : Lookbehind α) (read : Text → Option (β × Text))
    (text : Text) : Prop :=
  readings header? read (lead ++ (text ++ tail)) =
    (readings header? read text).map (Occurrence.enclose lead.length tail)

theorem Searches.isMoved {header? : Lookbehind α} {read : Text → Option (β × Text)}
    (searches : Searches lead tail header? read) (text : Text) :
    IsMoved lead tail header? read text := by
  have moved := occurrencesFrom_enclose searches.headers searches.quiet lead.length 0 none text
  rw [Nat.zero_add] at moved
  rw [IsMoved, searches.silent, moved, List.filterMap_map, readings, List.map_filterMap]
  exact List.filterMap_congr fun place _ => readOn_enclose searches.reads lead.length place

theorem start_lt_stop_of_mem_readings {header? : Lookbehind α} {read : Text → Option (β × Text)}
    {text : Text} {reading : Occurrence (Reading α β)}
    (member : reading ∈ readings header? read text) : reading.start < reading.stop := by
  obtain ⟨place, found, same⟩ := List.mem_filterMap.mp member
  obtain ⟨answer, -, rfl⟩ := Option.map_eq_some_iff.mp same
  have order := start_lt_stop_of_mem_occurrencesFrom found
  dsimp only
  omega

/-- A reading does not go on behind the text. -/
theorem stop_le_of_mem_readings {header? : Lookbehind α} {read : Text → Option (β × Text)}
    {text : Text} {reading : Occurrence (Reading α β)}
    (member : reading ∈ readings header? read text) : reading.stop ≤ text.length := by
  obtain ⟨place, found, same⟩ := List.mem_filterMap.mp member
  obtain ⟨answer, -, rfl⟩ := Option.map_eq_some_iff.mp same
  have whole := stop_add_length_of_mem_occurrencesFrom found
  dsimp only
  omega

namespace Source

variable (source : Source)

/-- Types that are never closed are told by where a reading starts. -/
theorem filterMap_places (header? : Lookbehind α) (read : Text → Option (β × Text)) :
    (source.places header?).filterMap (·.readOn read) =
      (readings header? read source.masked).filter fun reading =>
        !source.scopes.isUnterminated reading.start := by
  rw [places, List.filterMap_filter, readings, List.filter_filterMap]
  refine List.filterMap_congr fun place _ => ?_
  rw [Occurrence.readOn]
  cases read place.rest with
  | none => simp
  | some found =>
    cases unclosed : source.scopes.isUnterminated place.start <;> simp [Option.filter, unclosed]

theorem mem_readings_of_mem {source : Source} {header? : Lookbehind α}
    {read : Text → Option (β × Text)} {reading : Occurrence (Reading α β)}
    (member : reading ∈ (source.places header?).filterMap (·.readOn read)) :
    reading ∈ readings header? read source.masked := by
  rw [filterMap_places] at member
  exact (List.mem_filter.mp member).1

theorem start_lt_length_of_mem {source : Source} {header? : Lookbehind α}
    {read : Text → Option (β × Text)} {reading : Occurrence (Reading α β)}
    (member : reading ∈ (source.places header?).filterMap (·.readOn read)) :
    reading.start < source.masked.length := by
  have found := mem_readings_of_mem member
  exact Nat.lt_of_lt_of_le (start_lt_stop_of_mem_readings found) (stop_le_of_mem_readings found)

/-- The headers of sum types are told by where their names start as well. -/
theorem sumReadings_eq :
    source.sumReadings =
      ((readings (fun _ => marked? ["SwiftEnum"] sealedHeader?) typeClause? source.masked).filter
        fun reading => !source.scopes.isUnterminated reading.start).filter fun reading =>
          !source.scopes.isUnterminatedHeader
            (reading.start + reading.found.length - reading.found.header.header.length) := by
  rw [← filterMap_places, sumReadings, List.filterMap_filter, List.filter_filterMap]
  refine List.filterMap_congr fun place member => ?_
  have order := start_lt_stop_of_mem_places member
  have stop : place.start + (place.stop - place.start) = place.stop :=
    Nat.add_sub_of_le (Nat.le_of_lt order)
  rw [Occurrence.readOn]
  cases typeClause? place.rest with
  | none => simp
  | some found =>
    cases unclosed : source.scopes.isUnterminatedHeader
      (place.stop - place.found.header.length) <;> simp [Option.filter, stop, unclosed]

theorem mem_filterMap_of_mem_sumReadings {source : Source}
    {reading : Occurrence (Reading (Marked Text) Text)} (member : reading ∈ source.sumReadings) :
    reading ∈ (source.places fun _ => marked? ["SwiftEnum"] sealedHeader?).filterMap
      (·.readOn typeClause?) :=
  (List.filter_sublist.filterMap _).subset member

theorem length_name_le_of_mem_sumReadings {source : Source}
    {reading : Occurrence (Reading (Marked Text) Text)} (member : reading ∈
      readings (fun _ => marked? ["SwiftEnum"] sealedHeader?) typeClause? source.masked) :
    reading.found.header.header.length ≤ reading.start + reading.found.length := by
  obtain ⟨place, found, same⟩ := List.mem_filterMap.mp member
  obtain ⟨answer, -, rfl⟩ := Option.map_eq_some_iff.mp same
  have header : Respects [] [] [] id sealedHeader? :=
    .of_stopsAt isOuter_quote.stopsAt_sealedHeader? List.not_mem_nil id
  have unquoted : ∀ name ∈ ["SwiftEnum"], '"' ∉ name.toList := by decide
  have marker := respects_marked? [] List.not_mem_nil isBlanked_nil unquoted header
  obtain ⟨-, here, read, -, order, start, stop⟩ :=
    exists_read_of_mem_occurrencesFrom (fun _ => marker.suffix) found
  obtain ⟨unmarked, suffix, -, read⟩ := exists_suffix_of_marked? read
  have name := ((suffix_of_sealedHeader? read).trans suffix).length_le
  rw [List.length_append] at name
  dsimp only
  omega

/-- Nothing is read behind the header of an object. -/
theorem objectCases_eq (parent : Text) :
    source.objectCases parent =
      ((source.places objectHeader?).filterMap (·.readOn fun text => some ((), text))).filterMap
        fun reading =>
          if afterLast '.' reading.found.header.supertype = parent then
            some (reading.start, { name := reading.found.header.name, isObject := true })
          else none := by
  rw [objectCases, List.filterMap_filterMap]
  rfl

/-- The declarations of a source. -/
def declarations : List Declaration :=
  source.sumTypes.map .sum ++ source.asyncFunctions.map .async ++ source.streams.map .stream

end Source

/-- The inner source stands between the lead and the tail, and the types around its declarations are
those of the outer source. The lead may have literals in it, which are not blank in the text. -/
structure Encloses (lead tail : Text) (outer inner : Source) : Prop where
  text : outer.text.drop lead.length = inner.text ++ tail
  masked : outer.masked = lead ++ (inner.masked ++ tail)
  length : inner.text.length = inner.masked.length
  package : outer.package = inner.package
  owner : ∀ offset < inner.masked.length,
    outer.scopes.containingType (offset + lead.length) = inner.scopes.containingType offset
  unterminated : ∀ offset,
    outer.scopes.isUnterminated (offset + lead.length) = inner.scopes.isUnterminated offset
  unterminatedHeader : ∀ nameStart,
    outer.scopes.isUnterminatedHeader (nameStart + lead.length) =
      inner.scopes.isUnterminatedHeader nameStart

/-- All that the scanner looks for is found between the lead and the tail as it is found alone. -/
structure SearchesAll (lead tail : Text) : Prop where
  sums : Searches lead tail (fun _ => marked? ["SwiftEnum"] sealedHeader?) typeClause?
  cases : Searches lead tail dataCaseHeader? (behindRound? supertype?)
  objects : Searches lead tail objectHeader? fun text => some ((), text)
  functions : Searches lead tail (fun _ => marked? ["SwiftAsync", "SwiftDefaults"] suspendHeader?)
    (behindRound? returnType?)
  flows : Searches lead tail (fun _ => marked? ["SwiftFlow"] anyFunctionHeader?)
    (behindRound? flowElement?)
  properties : Searches lead tail (fun _ => marked? ["SwiftFlow"] flowPropertyHeader?)
    Bracket.angle.inside

section

variable (outer : IsOuterTail tail)
include outer

theorem searches_of_silent {words : List String} {header? : Lookbehind α}
    {read : Text → Option (β × Text)} (keywords : ∀ word ∈ words, IsWord word.toList)
    (refuses : Refuses words header?) (silent : IsSilent lead header? read)
    (headers : ∀ before, KeepsTail tail (header? before)) (reads : KeepsTail tail read) :
    Searches lead tail header? read :=
  ⟨silent, occurrencesFrom_marks keywords refuses outer.marks, headers, reads⟩

/-- Whether something is found depends on the lead alone. -/
theorem searchesAll_of_silent
    (sums : IsSilent lead (fun _ => marked? ["SwiftEnum"] sealedHeader?) typeClause?)
    (cases : IsSilent lead dataCaseHeader? (behindRound? supertype?))
    (objects : IsSilent lead objectHeader? fun text => some ((), text))
    (functions : IsSilent lead (fun _ => marked? ["SwiftAsync", "SwiftDefaults"] suspendHeader?)
      (behindRound? returnType?))
    (flows : IsSilent lead (fun _ => marked? ["SwiftFlow"] anyFunctionHeader?)
      (behindRound? flowElement?))
    (properties : IsSilent lead (fun _ => marked? ["SwiftFlow"] flowPropertyHeader?)
      Bracket.angle.inside) : SearchesAll lead tail where
  sums := searches_of_silent outer (by decide) (refuses_sealed _) sums
    (fun _ => outer.marked? (by decide)
      (.of_stopsAt outer fun _ mark => mark.stopsAt_sealedHeader?)) outer.typeClause?
  cases := searches_of_silent outer (by decide) refuses_data cases outer.dataCaseHeader?
    (outer.behindRound? outer.supertype?)
  objects := searches_of_silent outer (by decide) refuses_object objects
    (fun before => .of_stopsAt outer fun _ mark => mark.stopsAt_objectHeader? before) (.pure ())
  functions := searches_of_silent outer (by decide) (refuses_suspend _) functions
    (fun _ => outer.marked? (by decide) outer.suspendHeader?)
    (outer.behindRound? outer.returnType?)
  flows := searches_of_silent outer (by decide) (refuses_anyFunction _) flows
    (fun _ => outer.marked? (by decide) outer.anyFunctionHeader?)
    (outer.behindRound? outer.flowElement?)
  properties := searches_of_silent outer (by decide) (refuses_flowProperty _) properties
    (fun _ => outer.marked? (by decide)
      (.of_stopsAt outer fun _ mark => mark.stopsAt_flowPropertyHeader?))
    (IsOuterTail.inside .angle (outer.unclosed '>' (by decide)))

end

namespace Encloses

variable {outer inner : Source} (encloses : Encloses lead tail outer inner)
include encloses

theorem filterMap_places {header? : Lookbehind α} {read : Text → Option (β × Text)}
    (moved : IsMoved lead tail header? read inner.masked) :
    (outer.places header?).filterMap (·.readOn read) =
      ((inner.places header?).filterMap (·.readOn read)).map
        (Occurrence.enclose lead.length tail) := by
  rw [Source.filterMap_places, Source.filterMap_places, encloses.masked, moved, List.filter_map]
  refine congrArg (List.map _) (List.filter_congr fun reading _ => ?_)
  exact congrArg (!·) (encloses.unterminated reading.start)

theorem sumReadings_eq (moved : IsMoved lead tail
      (fun _ => marked? ["SwiftEnum"] sealedHeader?) typeClause? inner.masked) :
    outer.sumReadings = inner.sumReadings.map (Occurrence.enclose lead.length tail) := by
  rw [Source.sumReadings_eq, Source.sumReadings_eq, encloses.masked, moved, List.filter_map,
    List.filter_map]
  have unterminated : (readings (fun _ => marked? ["SwiftEnum"] sealedHeader?) typeClause?
        inner.masked).filter ((fun reading => !outer.scopes.isUnterminated reading.start) ∘
          Occurrence.enclose lead.length tail) =
      (readings (fun _ => marked? ["SwiftEnum"] sealedHeader?) typeClause? inner.masked).filter
        fun reading => !inner.scopes.isUnterminated reading.start :=
    List.filter_congr fun reading _ => congrArg (!·) (encloses.unterminated reading.start)
  rw [unterminated]
  refine congrArg (List.map _) (List.filter_congr fun reading member => congrArg (!·) ?_)
  have bound := Source.length_name_le_of_mem_sumReadings (List.mem_filter.mp member).1
  have same := encloses.unterminatedHeader
    (reading.start + reading.found.length - reading.found.header.header.length)
  rw [← same]
  refine congrArg outer.scopes.isUnterminatedHeader ?_
  simp only [Occurrence.enclose]
  omega

theorem flowReadings_eq (moved : IsMoved lead tail
      (fun _ => marked? ["SwiftFlow"] anyFunctionHeader?) (behindRound? flowElement?)
      inner.masked) :
    outer.flowReadings = inner.flowReadings.map (Occurrence.enclose lead.length tail) := by
  rw [Source.flowReadings, encloses.filterMap_places moved, List.filter_map]
  rfl

theorem propertyReadings_eq (moved : IsMoved lead tail
      (fun _ => marked? ["SwiftFlow"] flowPropertyHeader?) Bracket.angle.inside inner.masked) :
    outer.propertyReadings = inner.propertyReadings.map (Occurrence.enclose lead.length tail) := by
  rw [Source.propertyReadings, encloses.filterMap_places moved, List.filter_map]
  rfl

theorem slice_eq {start length : Nat} (fits : start + length ≤ inner.masked.length) :
    outer.slice (start + lead.length) length = inner.slice start length := by
  have inside : start + length ≤ inner.text.length := by rwa [encloses.length]
  rw [Source.slice, Source.slice, Nat.add_comm start, ← List.drop_drop, encloses.text,
    List.drop_append_of_le_length (Nat.le_of_add_right_le inside), List.take_append_of_le_length]
  rw [List.length_drop]
  omega

theorem identity_eq (owner : Option Text) (name : Text) :
    outer.identity owner name = inner.identity owner name := by
  rw [Source.identity, Source.identity, encloses.package]

/-! The declarations of both sources -/

theorem owner_eq {header? : Lookbehind α} {read : Text → Option (β × Text)}
    {reading : Occurrence (Reading α β)}
    (member : reading ∈ (inner.places header?).filterMap (·.readOn read)) :
    outer.scopes.containingType (reading.start + lead.length) =
      inner.scopes.containingType reading.start :=
  encloses.owner _ (Source.start_lt_length_of_mem member)

theorem slice_eq_of_mem {header? : Lookbehind α} {read : Text → Option (β × Text)}
    {reading : Occurrence (Reading α β)}
    (member : reading ∈ (inner.places header?).filterMap (·.readOn read)) {start length : Nat}
    (fits : start + length ≤ reading.stop) :
    outer.slice (start + lead.length) length = inner.slice start length := by
  have found := Source.mem_readings_of_mem member
  exact encloses.slice_eq (Nat.le_trans fits (stop_le_of_mem_readings found))

theorem inner_eq_of_mem {header? : Lookbehind α} {read : Text → Option (β × Text)}
    {reading : Occurrence (Reading α β)}
    (member : reading ∈ (inner.places header?).filterMap (·.readOn read)) {length : Nat}
    (fits : reading.start + reading.found.length + length ≤ reading.stop) :
    outer.slice (reading.start + lead.length + reading.found.length) length =
      inner.slice (reading.start + reading.found.length) length := by
  rw [Nat.add_right_comm]
  exact encloses.slice_eq_of_mem member fits

theorem asyncOf_eq {reading : Occurrence (Reading (Marked FunctionHeader) (Text × Option Text))}
    (member : reading ∈ inner.asyncReadings) :
    outer.asyncOf (reading.enclose lead.length tail) = inner.asyncOf reading := by
  have fits := Source.fits_of_mem_asyncReadings member
  have owner := encloses.owner_eq member
  have marker := encloses.slice_eq_of_mem member fits.1
  have parameters := encloses.inner_eq_of_mem member fits.2
  simp only [Source.asyncOf, Occurrence.enclose, owner, marker, parameters, encloses.identity_eq]

theorem flowOf_eq
    {reading : Occurrence (Reading (Marked (Bool × FunctionHeader)) (Text × Text))}
    (member : reading ∈ inner.flowReadings) :
    outer.flowOf (reading.enclose lead.length tail) = inner.flowOf reading := by
  have found := (List.mem_filter.mp member).1
  have owner := encloses.owner_eq found
  have parameters := encloses.inner_eq_of_mem found (Source.fits_of_mem_flowReadings member)
  simp only [Source.flowOf, Occurrence.enclose, owner, parameters, encloses.identity_eq]
  rfl

theorem propertyOf_eq {reading : Occurrence (Reading (Marked Text) Text)}
    (member : reading ∈ inner.propertyReadings) :
    outer.propertyOf (reading.enclose lead.length tail) = inner.propertyOf reading := by
  have owner := encloses.owner_eq (List.mem_filter.mp member).1
  simp only [Source.propertyOf, Occurrence.enclose, owner, encloses.identity_eq]
  rfl

theorem dataCases_eq
    (moved : IsMoved lead tail dataCaseHeader? (behindRound? supertype?) inner.masked)
    (parent : Text) :
    outer.dataCases parent =
      (inner.dataCases parent).map (Prod.map (· + lead.length) id) := by
  have cases : outer.caseReadings = inner.caseReadings.map (Occurrence.enclose lead.length tail) :=
    encloses.filterMap_places moved
  rw [Source.dataCases_eq, Source.dataCases_eq, cases, List.filter_map, List.map_map, List.map_map]
  refine List.map_congr_left fun reading member => ?_
  have found := (List.mem_filter.mp member).1
  have properties := encloses.inner_eq_of_mem found (Source.fits_of_mem_caseReadings found)
  simp only [Function.comp_apply, Source.caseOf, Occurrence.enclose, properties, Prod.map, id]

theorem objectCases_eq
    (moved : IsMoved lead tail objectHeader? (fun text => some ((), text)) inner.masked)
    (parent : Text) :
    outer.objectCases parent =
      (inner.objectCases parent).map (Prod.map (· + lead.length) id) := by
  rw [Source.objectCases_eq, Source.objectCases_eq, encloses.filterMap_places moved,
    List.filterMap_map, List.map_filterMap]
  refine List.filterMap_congr fun reading _ => ?_
  rw [Function.comp_apply, apply_ite (Option.map _)]
  rfl

section

variable (cases : IsMoved lead tail dataCaseHeader? (behindRound? supertype?) inner.masked)
  (objects : IsMoved lead tail objectHeader? (fun text => some ((), text)) inner.masked)
include cases objects

theorem variants_eq (parent : Text) : outer.variants parent = inner.variants parent := by
  have order (found : List (Nat × Variant)) :
      (found.map (Prod.map (· + lead.length) id)).mergeSort (·.1 ≤ ·.1) =
        (found.mergeSort (·.1 ≤ ·.1)).map (Prod.map (· + lead.length) id) :=
    (List.map_mergeSort fun _ _ _ _ => by simp).symm
  rw [Source.variants, Source.variants, encloses.dataCases_eq cases,
    encloses.objectCases_eq objects, ← List.map_append, order, List.map_map]
  rfl

theorem sumOf_eq {reading : Occurrence (Reading (Marked Text) Text)}
    (member : reading ∈ inner.sumReadings) :
    outer.sumOf (reading.enclose lead.length tail) = inner.sumOf reading := by
  have found := Source.mem_filterMap_of_mem_sumReadings member
  have owner := encloses.owner_eq found
  have marker := encloses.slice_eq_of_mem found (Source.fits_of_mem_sumReadings member)
  simp only [Source.sumOf, Occurrence.enclose, owner, marker, encloses.identity_eq,
    encloses.variants_eq cases objects]

end

theorem declarations_eq (searches : SearchesAll lead tail) :
    outer.declarations = inner.declarations := by
  have sums : outer.sumTypes = inner.sumTypes := by
    rw [Source.sumTypes_eq, Source.sumTypes_eq, encloses.sumReadings_eq (searches.sums.isMoved _),
      List.map_map]
    exact List.map_congr_left fun reading member =>
      encloses.sumOf_eq (searches.cases.isMoved _) (searches.objects.isMoved _) member
  have functions : outer.asyncFunctions = inner.asyncFunctions := by
    have moved : outer.asyncReadings =
        inner.asyncReadings.map (Occurrence.enclose lead.length tail) :=
      encloses.filterMap_places (searches.functions.isMoved _)
    rw [Source.asyncFunctions_eq, Source.asyncFunctions_eq, moved, List.map_map]
    exact List.map_congr_left fun reading member => encloses.asyncOf_eq member
  have streams : outer.streams = inner.streams := by
    rw [Source.streams_eq, Source.streams_eq, encloses.flowReadings_eq (searches.flows.isMoved _),
      encloses.propertyReadings_eq (searches.properties.isMoved _), List.map_map, List.map_map]
    refine congrArg₂ _ ?_ ?_
    · exact List.map_congr_left fun reading member => encloses.flowOf_eq member
    · exact List.map_congr_left fun reading member => encloses.propertyOf_eq member
  rw [Source.declarations, Source.declarations, sums, functions, streams]

end Encloses

end DeclBridge.Kotlin
