import DeclBridge.Proofs.ClauseSearches

/-! Scanning functions that have a clause of type parameters. A suspending function is one
declaration, a function of a flow another, and either is found whenever its header is read on behind
the clause. -/

namespace DeclBridge.Kotlin.Syntax

open Text

/-! Functions -/

/-- A function up to its opening parenthesis. -/
def functionLead (clause : TypeClause) (name : Text) : Text :=
  "fun ".toList ++ (clause.text ++ ' ' :: (name ++ ['(']))

section

variable (clause : TypeClause) {name : Text} (names : List String)

theorem functionLead_append (rest : Text) :
    functionLead clause name ++ rest =
      "fun ".toList ++ (clause.text ++ ' ' :: (name ++ '(' :: rest)) := by
  unfold functionLead
  simp only [List.append_assoc, List.cons_append, List.nil_append]

section

variable (isWord : IsWord name) (rest : Text)
include isWord

theorem suspendHeader?_lead_clause :
    marked? names suspendHeader? ("suspend ".toList ++ functionLead clause name ++ rest) =
      clause.read? (⟨0, ⟨clause.text, name⟩⟩, rest) := by
  rw [List.append_assoc, functionLead_append, marked?_suspend,
    clause.functionHeader?_clause isWord rest, clause.map_read?]

theorem anyFunctionHeader?_suspend_clause :
    marked? names anyFunctionHeader? ("suspend ".toList ++ functionLead clause name ++ rest) =
      clause.read? (⟨0, true, ⟨clause.text, name⟩⟩, rest) := by
  rw [List.append_assoc, functionLead_append, marked?_anyFunction_suspend,
    clause.functionHeader?_clause isWord rest, clause.map_read?]

theorem anyFunctionHeader?_lead_clause :
    marked? names anyFunctionHeader? (functionLead clause name ++ rest) =
      clause.read? (⟨0, false, ⟨clause.text, name⟩⟩, rest) := by
  rw [functionLead_append, marked?_anyFunction, clause.functionHeader?_clause isWord rest,
    clause.map_read?]

end

variable {rest : Text}

/-- Behind its first letter a hidden function is nothing for any search. -/
theorem Seeks.skips_unLead {words : List String} {read : Lookbehind α} (seeks : Seeks words read)
    (unled : IsQuietPart words ("un", ' '))
    (quiet : IsQuiet words rest (' ' :: (name ++ ['(']))) :
    Skips read rest ("un ".toList ++ (clause.text ++ ' ' :: (name ++ ['(']))) :=
  seeks.skips clause [("un", ' ')] (List.forall_mem_singleton.mpr unled) quiet

theorem skips_anyFunction_nested (isWord : IsWord name) (nested : clause.isNested = true)
    (quiet : IsQuiet (modifiers ++ ["suspend", "fun"]) rest (' ' :: (name ++ ['(']))) :
    Skips (fun _ => marked? names anyFunctionHeader?) rest (functionLead clause name) := by
  refine ⟨fun _ => ?_, (seeks_anyFunction names).skips_unLead clause (by decide) quiet⟩
  have header := anyFunctionHeader?_lead_clause clause names isWord rest
  rw [TypeClause.read?, if_pos nested] at header
  exact header

end

/-! A suspending function -/

section

variable (clause : TypeClause)

def suspendingLead : Text :=
  "suspend ".toList ++ functionLead clause "f".toList

/-- What stands behind the parenthesis. -/
def suspendingRest : Text :=
  "a: Int): Int = 1".toList

theorem suspendingLead_ne_nil : suspendingLead clause ≠ [] :=
  List.append_ne_nil_of_left_ne_nil (by decide) _

theorem suspending_text : "suspend fun ".toList ++ (clause.text ++ " f(a: Int): Int = 1".toList) =
    suspendingLead clause ++ suspendingRest := by
  unfold suspendingLead
  rw [List.append_assoc, functionLead_append]
  rfl

theorem occurrences_suspend_suspending (names : List String) :
    occurrences (fun _ => marked? names suspendHeader?) (suspendingLead clause ++ suspendingRest) =
      (clause.read? ⟨0, (suspendingLead clause).length, ⟨0, ⟨clause.text, "f".toList⟩⟩,
        suspendingRest⟩).toList := by
  have seeks := seeks_suspend names
  have quiet : IsQuiet (modifiers ++ ["suspend"]) [] suspendingRest := by decide
  have hidden : Skips (fun _ => marked? names suspendHeader?) suspendingRest
      (suspendingLead clause).tail :=
    seeks.skips clause [("uspend", ' '), ("fun", ' ')] (by decide) (by decide)
  have found := occurrencesFrom_read clause none (suspendingLead_ne_nil clause)
    (suspendHeader?_lead_clause clause names (by decide) suspendingRest) (fun _ => hidden)
    (quiet.skips seeks.refuses) 0
  rw [Nat.zero_add] at found
  exact found

theorem occurrences_anyFunction_suspending (names : List String) :
    occurrences (fun _ => marked? names anyFunctionHeader?)
        (suspendingLead clause ++ suspendingRest) =
      (clause.read? ⟨0, (suspendingLead clause).length, ⟨0, true, ⟨clause.text, "f".toList⟩⟩,
        suspendingRest⟩).toList := by
  have seeks := seeks_anyFunction names
  have quiet : IsQuiet (modifiers ++ ["suspend", "fun"]) [] suspendingRest := by decide
  have hidden (nested : clause.isNested = true) :
      Skips (fun _ => marked? names anyFunctionHeader?) suspendingRest
        (suspendingLead clause).tail := by
    have front : IsQuiet (modifiers ++ ["suspend", "fun"])
        (functionLead clause "f".toList ++ suspendingRest) "uspend ".toList :=
      isQuiet_phraseText seeks.known [("uspend", ' ')] (by decide)
    exact (front.skips seeks.refuses).append
      (skips_anyFunction_nested clause names (by decide) nested (by decide))
  have found := occurrencesFrom_read clause none (suspendingLead_ne_nil clause)
    (anyFunctionHeader?_suspend_clause clause names (by decide) suspendingRest) hidden
    (quiet.skips seeks.refuses) 0
  rw [Nat.zero_add] at found
  exact found

/-- The function that the text declares. -/
def suspendingFunction : AsyncFunction where
  qualifiedName := "f".toList
  name := "f".toList
  package := []
  parameters := [{ name := "a".toList, type := "Int".toList }]
  returnType := "Int".toList
  typeParameters := typeParameters clause.text

theorem asyncFunction?_suspending :
    (plainSource (suspendingLead clause ++ suspendingRest)).asyncFunction?
        ⟨0, (suspendingLead clause).length, ⟨0, ⟨clause.text, "f".toList⟩⟩, suspendingRest⟩ =
      some (suspendingFunction clause) := by
  have inside : Bracket.round.inside suspendingRest =
      some ("a: Int".toList, ": Int = 1".toList) := by decide
  have returned : (afterColon? ": Int = 1".toList).bind readType? =
      some ("Int".toList, " = 1".toList) := by decide +kernel
  have collapsed : collapse "Int".toList = "Int".toList := by decide +kernel
  have parameters : readParameters (suspendingRest.take "a: Int".toList.length) =
      [{ name := "a".toList, type := "Int".toList }] := by decide +kernel
  rw [Source.asyncFunction?, markerText_plain _ rfl]
  dsimp only
  rw [inside, Option.bind_eq_bind, Option.bind_some]
  dsimp only
  rw [returned, Option.map_some]
  dsimp only
  rw [collapsed, slice_plain, parameters, containingType_plain,
    identity_plain _ (show IsWord "f".toList by decide)]
  rfl

theorem Seeks.skips_suspending {words : List String} {read : Lookbehind α}
    (seeks : Seeks words read)
    (first : ∀ part ∈ [("suspend", ' '), ("fun", ' ')], IsQuietPart words part)
    (quiet : IsQuiet words [] " f(a: Int): Int = 1".toList) :
    Skips read [] (suspendingLead clause ++ suspendingRest) := by
  rw [← suspending_text]
  exact seeks.skips clause [("suspend", ' '), ("fun", ' ')] first quiet

theorem scan_suspending :
    Kotlin.scan ("suspend fun ".toList ++ (clause.text ++ " f(a: Int): Int = 1".toList)) =
      (clause.read? (.async (suspendingFunction clause))).toList := by
  have source := ofText_clause clause "suspend fun ".toList " f(a: Int): Int = 1".toList
    (by decide) (by decide) fun _ => rfl
  have sums := sumTypes_eq_nil _ fun names =>
    (seeks_sealed names).skips_suspending clause (by decide) (by decide)
  have properties := places_eq_nil _
    ((seeks_flowProperty ["SwiftFlow"]).skips_suspending clause (by decide) (by decide))
  rw [scan, source, suspending_text]
  rw [sums, Source.asyncFunctions, places_plain, occurrences_suspend_suspending,
    clause.filterMap_read? (asyncFunction?_suspending clause), Source.streams, properties,
    places_plain, occurrences_anyFunction_suspending, clause.filterMap_read?_eq_nil rfl,
    ← clause.map_read? Declaration.async, Option.toList_map]
  simp

end

/-! A function of a flow -/

section

variable (clause : TypeClause)

def flowRest : Text :=
  "): Flow<Int> = x".toList

theorem flow_text : "fun ".toList ++ (clause.text ++ " g(): Flow<Int> = x".toList) =
    functionLead clause "g".toList ++ flowRest := by
  rw [functionLead_append]
  rfl

theorem occurrences_anyFunction_flow (names : List String) :
    occurrences (fun _ => marked? names anyFunctionHeader?)
        (functionLead clause "g".toList ++ flowRest) =
      (clause.read? ⟨0, (functionLead clause "g".toList).length,
        ⟨0, false, ⟨clause.text, "g".toList⟩⟩, flowRest⟩).toList := by
  have seeks := seeks_anyFunction names
  have quiet : IsQuiet (modifiers ++ ["suspend", "fun"]) [] flowRest := by decide
  have nonempty : functionLead clause "g".toList ≠ [] :=
    List.append_ne_nil_of_left_ne_nil (by decide) _
  have hidden (nested : clause.isNested = true) :
      Skips (fun _ => marked? names anyFunctionHeader?) flowRest
        (functionLead clause "g".toList).tail :=
    (skips_anyFunction_nested clause names (by decide) nested (by decide)).2
  have found := occurrencesFrom_read clause none nonempty
    (anyFunctionHeader?_lead_clause clause names (by decide) flowRest) hidden
    (quiet.skips seeks.refuses) 0
  rw [Nat.zero_add] at found
  exact found

/-- The stream that the text declares. -/
def flowStream : Stream where
  qualifiedName := "g".toList
  name := "g".toList
  package := []
  elementType := "Int".toList

theorem flowFunction?_flow :
    (plainSource (functionLead clause "g".toList ++ flowRest)).flowFunction?
        ⟨0, (functionLead clause "g".toList).length, ⟨0, false, ⟨clause.text, "g".toList⟩⟩,
          flowRest⟩ = some flowStream := by
  have inside : Bracket.round.inside flowRest = some ([], ": Flow<Int> = x".toList) := by decide
  have flow : afterFlowReturn? ": Flow<Int> = x".toList = some "Int> = x".toList := by decide
  have element : Source.elementType? "Int> = x".toList = some "Int".toList := by decide
  rw [Source.flowFunction?]
  dsimp only
  rw [inside, if_neg Bool.false_ne_true, Option.bind_eq_bind, Option.bind_some]
  dsimp only
  rw [flow, Option.bind_eq_bind, Option.bind_some, element, Option.bind_some, slice_plain,
    containingType_plain, identity_plain _ (show IsWord "g".toList by decide)]
  rfl

theorem Seeks.skips_flow {words : List String} {read : Lookbehind α} (seeks : Seeks words read)
    (first : IsQuietPart words ("fun", ' '))
    (quiet : IsQuiet words [] " g(): Flow<Int> = x".toList) :
    Skips read [] (functionLead clause "g".toList ++ flowRest) := by
  rw [← flow_text]
  exact seeks.skips clause [("fun", ' ')] (List.forall_mem_singleton.mpr first) quiet

theorem scan_flow :
    Kotlin.scan ("fun ".toList ++ (clause.text ++ " g(): Flow<Int> = x".toList)) =
      (clause.read? (.stream flowStream)).toList := by
  have source := ofText_clause clause "fun ".toList " g(): Flow<Int> = x".toList (by decide)
    (by decide) fun _ => rfl
  have sums := sumTypes_eq_nil _ fun names =>
    (seeks_sealed names).skips_flow clause (by decide) (by decide)
  have asyncs := places_eq_nil _
    ((seeks_suspend ["SwiftAsync", "SwiftDefaults"]).skips_flow clause (by decide) (by decide))
  have properties := places_eq_nil _
    ((seeks_flowProperty ["SwiftFlow"]).skips_flow clause (by decide) (by decide))
  rw [scan, source, flow_text, sums, Source.asyncFunctions, asyncs, Source.streams, properties,
    places_plain, occurrences_anyFunction_flow, clause.filterMap_read? (flowFunction?_flow clause),
    ← clause.map_read? Declaration.stream, Option.toList_map]
  simp

end

end DeclBridge.Kotlin.Syntax
