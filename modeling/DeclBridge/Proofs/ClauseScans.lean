import DeclBridge.Proofs.FunctionClauses

/-! Scanning declarations that have a clause of type parameters. They are found when no bound has
generic arguments, and hidden when one has. A data class is hidden as a case of its sum type, which
is found all the same. -/

namespace DeclBridge.Kotlin.Syntax

open Text

/-! A case of a sum type -/

section

variable (clause : TypeClause)

def sealedLine : Text :=
  "sealed interface S\n".toList

/-- The words of the first line. -/
def sealedPhrase : List (String × Char) :=
  [("sealed", ' '), ("interface", ' '), ("S", '\n')]

/-- The words of the second line, of which the first may have lost its first letter. -/
def casePhrase (first : String) : List (String × Char) :=
  [(first, ' '), ("class", ' '), ("V", '<')]

def caseLead : Text :=
  "data class ".toList ++ ("V".toList ++ (clause.text ++ ['(']))

def caseRest : Text :=
  "val a: Int) : S".toList

theorem case_text :
    "sealed interface S\ndata class V".toList ++ (clause.text ++ "(val a: Int) : S".toList) =
      sealedLine ++ (caseLead clause ++ caseRest) := by
  have lines : "sealed interface S\ndata class V".toList =
      sealedLine ++ ("data class ".toList ++ "V".toList) := by decide
  have round : "(val a: Int) : S".toList = ['('] ++ caseRest := by decide
  unfold caseLead
  rw [lines, round]
  simp only [List.append_assoc]

section

variable {words : List String} {read : Lookbehind α} (seeks : Seeks words read) {rest : Text}
include seeks

theorem Seeks.isQuiet_sealedLine (quiet : ∀ part ∈ sealedPhrase, IsQuietPart words part) :
    IsQuiet words rest sealedLine :=
  isQuiet_phraseText seeks.known sealedPhrase quiet

/-- The line of the case, or what is left of it behind its first letter. -/
theorem Seeks.skips_case (first : String) {back : Text}
    (quiet : ∀ part ∈ casePhrase first, IsQuietPart words part) (last : Skips read rest back) :
    Skips read rest (first.toList ++ ' ' :: "class V".toList ++ (clause.text ++ back)) := by
  have keywords : ∀ word ∈ words, IsWord word.toList :=
    fun word member => isWord_of_mem_lineWords word (seeks.known member)
  obtain ⟨opening, type, name, -⟩ : IsQuietPart words (first, ' ') ∧
      IsQuietPart words ("class", ' ') ∧ IsQuietPart words ("V", '<') ∧ _ := by
    simpa only [casePhrase, List.forall_mem_cons] using quiet
  have named : IsQuiet words (clause.text ++ back ++ rest) "V".toList :=
    isQuiet_of_word keywords name.isWord name.apart (outside_head name.outside _)
  have phrase : IsQuiet words ("V".toList ++ (clause.text ++ back ++ rest))
      (phraseText [(first, ' '), ("class", ' ')]) :=
    isQuiet_phraseText seeks.known _ (by simp [opening, type])
  have front := phrase.append named
  refine seeks.skips_between clause ?_ last
  simpa [phraseText] using front

end

theorem occurrences_data :
    occurrences dataCaseHeader? (sealedLine ++ (caseLead clause ++ caseRest)) =
      (clause.read? ⟨sealedLine.length, sealedLine.length + (caseLead clause).length, "V".toList,
        caseRest⟩).toList := by
  have quiet : IsQuiet ["data"] [] caseRest := by decide
  have round : IsQuiet ["data"] caseRest ['('] := by decide
  have hidden : Skips dataCaseHeader? caseRest (caseLead clause).tail :=
    seeks_data.skips_case clause "ata" (by decide) (round.skips refuses_data)
  have nonempty : caseLead clause ≠ [] := List.append_ne_nil_of_left_ne_nil (by decide) _
  have header : dataCaseHeader? (some '\n') (caseLead clause ++ caseRest) =
      clause.read? ("V".toList, caseRest) := by
    unfold caseLead
    simp only [List.append_assoc, List.singleton_append]
    exact clause.dataCaseHeader?_clause rfl (by decide) caseRest
  have found := occurrencesFrom_read clause _ nonempty header (fun _ => hidden)
    (quiet.skips refuses_data) sealedLine.length
  have line : IsQuiet ["data"] (caseLead clause ++ caseRest) sealedLine :=
    seeks_data.isQuiet_sealedLine (by decide)
  have passed := occurrencesFrom_quiet refuses_data line 0 none
  rw [occurrences, passed, Nat.zero_add]
  exact found

theorem case_lead : caseLead clause ++ caseRest =
    "data".toList ++ ' ' :: "class V".toList ++ (clause.text ++ "(val a: Int) : S".toList) := by
  unfold caseLead
  simp only [List.append_assoc]
  rfl

/-- Searches for other words find nothing in both lines. -/
theorem Seeks.skips_lines {words : List String} {read : Lookbehind α} (seeks : Seeks words read)
    (quiet : ∀ part ∈ sealedPhrase ++ casePhrase "data", IsQuietPart words part)
    (last : Skips read [] "(val a: Int) : S".toList) :
    Skips read [] (sealedLine ++ (caseLead clause ++ caseRest)) := by
  obtain ⟨first, second⟩ := List.forall_mem_append.mp quiet
  have line : IsQuiet words (caseLead clause ++ caseRest ++ []) sealedLine :=
    seeks.isQuiet_sealedLine first
  refine (line.skips seeks.refuses).append ?_
  rw [case_lead]
  exact seeks.skips_case clause _ second last

/-- A property of a class is no flow. -/
theorem skips_flowProperty_case (names : List String) :
    Skips (fun _ => marked? names flowPropertyHeader?) [] "(val a: Int) : S".toList := by
  have refuses := refuses_flowProperty names
  have round : IsQuiet (modifiers ++ ["val", "var"]) (caseRest ++ []) ['('] := by decide
  have behind : IsQuiet (modifiers ++ ["val", "var"]) [] caseRest.tail := by decide
  have header : flowPropertyHeader? caseRest = none := by decide +kernel
  have property : Skips (fun _ => marked? names flowPropertyHeader?) [] caseRest := by
    refine ⟨fun _ => ?_, behind.skips refuses⟩
    exact (marked?_of_unmarked (by decide)).trans (congrArg _ header)
  exact (round.skips refuses).append property

theorem skips_object_case :
    Skips objectHeader? [] (sealedLine ++ (caseLead clause ++ caseRest)) := by
  have line : IsQuiet ["data", "object"] (caseLead clause ++ caseRest ++ []) sealedLine :=
    seeks_object.isQuiet_sealedLine (by decide)
  have quiet : IsQuiet ["data", "object"] [] "(val a: Int) : S".toList := by decide
  refine (line.skips refuses_object).append ?_
  rw [case_lead]
  refine ⟨fun before => ?_, seeks_object.skips_case clause "ata" (by decide)
    (quiet.skips refuses_object)⟩
  exact objectHeader?_data _

/-- The case that the second line declares. -/
def caseVariant : Variant where
  name := "V".toList
  properties := [{ name := "a".toList, type := "Int".toList }]

theorem dataCases_case :
    (plainSource (sealedLine ++ (caseLead clause ++ caseRest))).dataCases "S".toList =
      (clause.read? (sealedLine.length, caseVariant)).toList := by
  have inside : Bracket.round.inside caseRest = some ("val a: Int".toList, " : S".toList) := by
    decide
  have supertype : supertype? " : S".toList = some ("S".toList, []) := by decide
  have parent : afterLast '.' "S".toList = "S".toList := by decide
  have properties : readProperties (caseRest.take "val a: Int".toList.length) =
      [{ name := "a".toList, type := "Int".toList }] := by decide +kernel
  have slice (length : Nat) : (plainSource (sealedLine ++ (caseLead clause ++ caseRest))).slice
      (sealedLine.length + (caseLead clause).length) length = caseRest.take length := by
    rw [← List.append_assoc, ← List.length_append, slice_plain]
  rw [Source.dataCases, places_plain, occurrences_data]
  refine clause.filterMap_read? ?_
  simp only [inside, supertype, parent, slice, properties, Option.bind_eq_bind, Option.bind_some]
  rfl

theorem variants_case :
    (plainSource (sealedLine ++ (caseLead clause ++ caseRest))).variants "S".toList =
      (clause.read? caseVariant).toList := by
  have objects : (plainSource (sealedLine ++ (caseLead clause ++ caseRest))).objectCases
      "S".toList = [] := by
    rw [Source.objectCases, places_eq_nil _ (skips_object_case clause)]
    rfl
  rw [Source.variants, dataCases_case, objects, TypeClause.read?, TypeClause.read?]
  split <;> simp

/-- The sum type that the first line declares. -/
def caseSum : SumType where
  qualifiedName := "S".toList
  name := "S".toList
  package := []
  variants := (clause.read? caseVariant).toList

theorem occurrences_sealed (names : List String) :
    occurrences (fun _ => marked? names sealedHeader?)
        (sealedLine ++ (caseLead clause ++ caseRest)) =
      [⟨0, ("sealed interface ".toList ++ "S".toList).length, ⟨0, "S".toList⟩,
        '\n' :: (caseLead clause ++ caseRest)⟩] := by
  have seeks := seeks_sealed names
  have header := sealedHeader?_text ⟨⟨"S".toList, by decide, by decide⟩, by decide⟩
    ('\n' :: (caseLead clause ++ caseRest)) (outside_head (by decide) _) names
  rw [← List.append_assoc] at header
  have quiet : IsQuiet (modifiers ++ ["sealed"]) [] "(val a: Int) : S".toList := by decide
  have skips : Skips (fun _ => marked? names sealedHeader?) []
      ('\n' :: (caseLead clause ++ caseRest)) := by
    have line : IsQuiet (modifiers ++ ["sealed"]) (caseLead clause ++ caseRest ++ []) ['\n'] :=
      isQuiet_of_marks (by decide) (by decide)
    have behind :
        Skips (fun _ => marked? names sealedHeader?) [] (caseLead clause ++ caseRest) := by
      rw [case_lead]
      exact seeks.skips_case clause _ (by decide) (quiet.skips seeks.refuses)
    exact ⟨fun before => seeks.refuses before _ line.1, behind⟩
  have found : occurrencesFrom (fun _ => marked? names sealedHeader?) 0 none _ = _ :=
    occurrencesFrom_found (by decide) header 0
  have lines : sealedLine ++ (caseLead clause ++ caseRest) =
      "sealed interface ".toList ++ "S".toList ++ '\n' :: (caseLead clause ++ caseRest) := by
    have line : sealedLine = "sealed interface ".toList ++ "S".toList ++ ['\n'] := by decide
    rw [line, List.append_assoc _ ['\n'], List.singleton_append]
  rw [occurrencesFrom_skips skips, Nat.zero_add] at found
  rw [lines]
  exact found

theorem sumTypes_case :
    (plainSource (sealedLine ++ (caseLead clause ++ caseRest))).sumTypes = [caseSum clause] := by
  have closed (places : List (Occurrence (Marked Text))) : places.filter (fun place =>
      !(plainSource (sealedLine ++ (caseLead clause ++ caseRest))).scopes.isUnterminatedHeader
        (place.stop - place.found.header.length)) = places :=
    List.filter_eq_self.mpr fun place _ => rfl
  have sumType : (plainSource (sealedLine ++ (caseLead clause ++ caseRest))).sumType?
      ⟨0, ("sealed interface ".toList ++ "S".toList).length, ⟨0, "S".toList⟩,
        '\n' :: (caseLead clause ++ caseRest)⟩ = some (caseSum clause) := by
    rw [Source.sumType?, markerText_plain _ rfl]
    simp only [variants_case, containingType_plain,
      identity_plain _ (show IsWord "S".toList by decide), Option.bind_eq_bind, Option.bind_some]
    rfl
  rw [Source.sumTypes, closed, places_plain, occurrences_sealed, List.filterMap_cons_some sumType,
    List.filterMap_nil]

theorem scan_case :
    Kotlin.scan
        ("sealed interface S\ndata class V".toList ++ (clause.text ++ "(val a: Int) : S".toList)) =
      [.sum (caseSum clause)] := by
  have source := ofText_clause clause "sealed interface S\ndata class V".toList
    "(val a: Int) : S".toList (by decide) (by decide) fun _ => rfl
  have suspends := seeks_suspend ["SwiftAsync", "SwiftDefaults"]
  have functions := seeks_anyFunction ["SwiftFlow"]
  have properties := seeks_flowProperty ["SwiftFlow"]
  have asyncs := places_eq_nil _ (suspends.skips_lines clause (by decide)
    (IsQuiet.skips (by decide) suspends.refuses))
  have streams := places_eq_nil _ (functions.skips_lines clause (by decide)
    (IsQuiet.skips (by decide) functions.refuses))
  have flows := places_eq_nil _ (properties.skips_lines clause (by decide)
    (skips_flowProperty_case ["SwiftFlow"]))
  rw [scan, source, case_text, sumTypes_case, Source.asyncFunctions, asyncs, Source.streams,
    streams, flows]
  rfl

end

/-! Clauses -/

/-- A declaration with a clause of type parameters is found when no bound has generic arguments, and
only then. -/
theorem scan_clause (clause : TypeClause) :
    Kotlin.scan ("suspend fun ".toList ++ (clause.text ++ " f(a: Int): Int = 1".toList)) =
        (if clause.isNested then []
        else
          [.async
            { qualifiedName := "f".toList, name := "f".toList, package := []
              parameters := [{ name := "a".toList, type := "Int".toList }]
              returnType := "Int".toList
              typeParameters := typeParameters clause.text }]) ∧
      Kotlin.scan ("fun ".toList ++ (clause.text ++ " g(): Flow<Int> = x".toList)) =
        (if clause.isNested then []
        else
          [.stream
            { qualifiedName := "g".toList, name := "g".toList, package := []
              elementType := "Int".toList }]) ∧
      Kotlin.scan
          ("sealed interface S\ndata class V".toList ++
            (clause.text ++ "(val a: Int) : S".toList)) =
        [.sum
          { qualifiedName := "S".toList, name := "S".toList, package := []
            variants :=
              if clause.isNested then []
              else
                [{ name := "V".toList
                   properties := [{ name := "a".toList, type := "Int".toList }] }] }] := by
  refine ⟨(scan_suspending clause).trans ?_, (scan_flow clause).trans ?_,
    (scan_case clause).trans ?_⟩ <;>
    cases nested : clause.isNested <;>
    simp [caseSum, TypeClause.read?, nested, suspendingFunction, flowStream, caseVariant]

/-- The splitter knows how to read a clause for which the function is not found. -/
theorem scan_nested_clause :
    Kotlin.scan "suspend fun <T : Comparable<T>> f(a: Int): Int = 1".toList = [] ∧
      typeParameters "<T : Comparable<T>>".toList = ["T : Comparable<T>".toList] := by
  decide +kernel

end DeclBridge.Kotlin.Syntax
