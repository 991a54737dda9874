import DeclBridge.Proofs.HierarchyScan
import DeclBridge.Proofs.SourceOrder

/-! Which cases a sum type has. A source has one list of cases, in the order of their headers. Each
case names its supertype, and the last part of that name alone decides which sum types it joins. -/

namespace DeclBridge.Kotlin

open Text

/-- The header of a data class or an object with a supertype, and the variant made from it. -/
structure Case where
  start : Nat
  supertype : Text
  variant : Variant
deriving DecidableEq, Repr

/-- Whether a case names a sum type as its supertype, which may be written with a qualifier. -/
def Case.isOf (case : Case) (name : Text) : Bool :=
  afterLast '.' case.supertype = name

namespace Source

variable (source : Source)

def dataCase (reading : Occurrence (Reading Text (Text × Text))) : Case :=
  ⟨reading.start, reading.found.tail.2, (source.caseOf reading).2⟩

def objectCase (place : Occurrence ObjectHeader) : Case :=
  ⟨place.start, place.found.supertype, { name := place.found.name, isObject := true }⟩

/-- All cases, in the order of their headers. -/
def cases : List Case :=
  (source.caseReadings.map source.dataCase ++
    (source.places objectHeader?).map objectCase).mergeSort (·.start ≤ ·.start)

end Source

/-! Headers of data classes and of objects -/

/-- No header is read as that of a data class and as that of an object. -/
theorem objectHeader?_eq_none {before last : Option Char} {text rest name : Text}
    (read : dataCaseHeader? before text = some (name, rest)) : objectHeader? last text = none := by
  unfold dataCaseHeader? at read
  split at read
  · obtain ⟨behind, data, read⟩ := Option.bind_eq_some_iff.mp read
    obtain ⟨after, isClass, -⟩ := Option.bind_eq_some_iff.mp read
    obtain ⟨_, same, -⟩ := exists_of_keyword? isClass
    have other : keyword? "object" behind = none := by
      by_contra found
      obtain ⟨_, found⟩ := Option.ne_none_iff_exists'.mp found
      obtain ⟨_, equal, -⟩ := exists_of_keyword? found
      rw [same] at equal
      simp at equal
    unfold objectHeader?
    split
    · simp [data, other]
    · rfl
  · cases read

namespace Source

variable {source : Source}

theorem pairwise_places (header? : Lookbehind α) :
    (source.places header?).Pairwise fun first second => first.start < second.start := by
  refine List.Pairwise.sublist List.filter_sublist ?_
  refine (List.Pairwise.and_mem.mp
    (pairwise_occurrencesFrom header? 0 none source.masked)).imp ?_
  rintro first second ⟨member, -, apart⟩
  exact Nat.lt_of_lt_of_le (start_lt_stop_of_mem_occurrencesFrom member) apart

theorem pairwise_caseReadings :
    source.caseReadings.Pairwise fun first second => first.start < second.start := by
  refine List.Pairwise.filterMap _ ?_ (pairwise_places dataCaseHeader?)
  intro first second less reading found other located
  rw [(Occurrence.readOn_eq found).1, (Occurrence.readOn_eq located).1]
  exact less

theorem start_ne_start {reading : Occurrence (Reading Text (Text × Text))}
    (isData : reading ∈ source.caseReadings) {place : Occurrence ObjectHeader}
    (isObject : place ∈ source.places objectHeader?) : reading.start ≠ place.start := by
  obtain ⟨data, located, found⟩ := List.mem_filterMap.mp isData
  rw [(Occurrence.readOn_eq found).1]
  intro same
  have dataHeader := respects_dataCaseHeader? [] List.not_mem_nil isBlanked_nil
  obtain ⟨_, first, read, isFirst, -, begins, -⟩ := exists_read_of_mem_occurrencesFrom
    (fun before => (dataHeader before).suffix) (List.mem_filter.mp located).1
  obtain ⟨_, second, other, isSecond, -, starts, -⟩ := exists_read_of_mem_occurrencesFrom
    (fun before => (isOuter_quote.stopsAt_objectHeader? before).suffix)
    (List.mem_filter.mp isObject).1
  -- Both headers are read at one offset, and so in one text.
  have length : first.length = second.length := by omega
  have equal : first = second :=
    (List.suffix_of_suffix_length_le isFirst isSecond (Nat.le_of_eq length)).eq_of_length length
  rw [← equal, objectHeader?_eq_none read] at other
  cases other

/-- Each case has its own header. -/
theorem pairwise_cases : source.cases.Pairwise fun first second => first.start < second.start := by
  have perm := List.mergeSort_perm (source.caseReadings.map source.dataCase ++
    (source.places objectHeader?).map objectCase) (·.start ≤ ·.start)
  have distinct : ((source.caseReadings.map source.dataCase ++
      (source.places objectHeader?).map objectCase).map (·.start)).Nodup := by
    rw [List.map_append, List.map_map, List.map_map]
    refine List.nodup_append.mpr ⟨?_, ?_, ?_⟩
    · exact List.pairwise_map.mpr (pairwise_caseReadings.imp Nat.ne_of_lt)
    · exact List.pairwise_map.mpr ((pairwise_places objectHeader?).imp Nat.ne_of_lt)
    · intro start isData other isObject
      obtain ⟨reading, found, rfl⟩ := List.mem_map.mp isData
      obtain ⟨place, located, rfl⟩ := List.mem_map.mp isObject
      exact start_ne_start found located
  have order : source.cases.Pairwise fun first second =>
      decide (first.start ≤ second.start) = true := by
    refine List.pairwise_mergeSort (fun first second third => ?_) (fun first second => ?_) _
    · simp only [decide_eq_true_eq]
      exact Nat.le_trans
    · simp only [Bool.or_eq_true, decide_eq_true_eq]
      exact Nat.le_total _ _
  have apart := List.pairwise_map.mp ((perm.map (·.start)).nodup_iff.mpr distinct)
  refine (order.and apart).imp ?_
  intro first second ⟨before, differ⟩
  exact Nat.lt_of_le_of_ne (of_decide_eq_true before) differ

/-- The cases of a sum type, by its simple name. -/
theorem variants_eq (name : Text) :
    source.variants name = (source.cases.filter (·.isOf name)).map (·.variant) := by
  have data : source.dataCases name =
      ((source.caseReadings.map source.dataCase).filter (·.isOf name)).map
        fun case => (case.start, case.variant) := by
    rw [dataCases_eq, List.filter_map, List.map_map]
    rfl
  have objects : source.objectCases name =
      (((source.places objectHeader?).map objectCase).filter (·.isOf name)).map
        fun case => (case.start, case.variant) := by
    rw [objectCases, ← List.filterMap_eq_filter, List.filterMap_map, List.map_filterMap]
    refine List.filterMap_congr fun place _ => ?_
    by_cases same : afterLast '.' place.found.supertype = name <;>
      simp [same, objectCase, Case.isOf, Option.guard]
  have sorted : (source.dataCases name ++ source.objectCases name).mergeSort (·.1 ≤ ·.1) =
      (source.cases.filter (·.isOf name)).map fun case => (case.start, case.variant) := by
    apply Syntax.mergeSort_eq_of_perm
    · rw [data, objects, ← List.map_append, ← List.filter_append]
      exact ((List.mergeSort_perm _ _).symm.filter _).map _
    · exact List.pairwise_map.mpr (pairwise_cases.sublist List.filter_sublist)
  rw [variants, sorted, List.map_map]
  rfl

end Source

/-! Sum types with cases -/

section

variable {cases : List Case} {sums : List SumType}

end

end DeclBridge.Kotlin
