import DeclBridge.Proofs.HierarchyHeaders
import DeclBridge.Proofs.SourceScopes
import Mathlib.Data.List.Nodup

/-! Scanning finds every interface of a hierarchy with exactly the cases that name it, in the order
of the text. Data classes and objects are searched for separately and put in order by their places.
-/

namespace DeclBridge.Kotlin.Syntax

open Text

/-! Properties -/

namespace Field

variable (field : Field)

theorem text_cons : field.text =
    "val".toList ++ ' ' :: (field.name.text ++ ':' :: ' ' :: field.parameter.typed) := by
  rw [text_eq, Parameter.print_text]
  rfl

theorem skipBlanks_text : skipBlanks field.text = field.text :=
  skipBlanks_eq_self_iff.mpr fun _ head => field.isTrimmed_text.1.head_ink head

theorem skipAnnotations_text : skipAnnotations field.text = field.text := by
  refine skipAnnotations_eq fun head => ?_
  exact absurd (Option.some.inj head) (by decide)

theorem readParameter?_text : readParameter? field.text = some field.parameter.declared := by
  have front : skipAnnotations (skipBlanks field.text) = field.text := by
    rw [field.skipBlanks_text, field.skipAnnotations_text]
  have member : "val" ∈ parameterModifiers := by decide
  have modifiers := many_modifier field.name.word (' ' :: field.parameter.typed) member
  rw [← text_cons] at modifiers
  exact field.parameter.readParameter?_of_many front modifiers

theorem declaresProperty_text : declaresProperty field.text = true := by
  let typed := ':' :: ' ' :: field.parameter.typed
  have visible : many (oneKeyword? visibilities) field.text = ([], field.text) := by
    refine many_of_refused (oneKeyword?_eq_none fun word member => ?_)
    have keywords : ∀ word ∈ visibilities, IsWord word.toList := by decide
    have apart : ∀ word ∈ visibilities, ¬word.toList <:+ "val".toList := by decide
    rw [text_cons]
    exact keyword?_eq_none (by decide) (keywords word member) (apart word member) _
  have keyword :
      oneKeyword? ["val", "var"] field.text = some ("val", field.name.text ++ typed) := by
    rw [text_cons]
    exact oneKeyword?_keyword (by simp) (by decide) (by decide) (field.name.head_ink typed)
  have name : word? (field.name.text ++ typed) = some (field.name.text, typed) :=
    field.name.word?_text _ (by decide)
  have colon : mark? ':' typed = some (' ' :: field.parameter.typed) := by
    simp [typed, mark?, skipBlanks, show isBlank ':' = false from rfl]
  rw [declaresProperty, field.skipBlanks_text, field.skipAnnotations_text, visible]
  simp [keyword, name, colon]

end Field

theorem readProperties_fields (fields : List Field) :
    readProperties (commaSpaced (fields.map (·.text))) = fields.map (·.declared) := by
  have selfContained : ∀ entry ∈ fields.map (·.text), IsSelfContained entry :=
    List.forall_mem_map.mpr fun field _ => field.balanced.isSelfContained
  have trimmed : ∀ entry ∈ fields.map (·.text), IsTrimmed entry ∧ entry ≠ [] :=
    List.forall_mem_map.mpr fun field _ => field.isTrimmed_text
  have all : (fields.map (·.text)).filter declaresProperty = fields.map (·.text) :=
    List.filter_eq_self.mpr (List.forall_mem_map.mpr fun field _ => field.declaresProperty_text)
  have read : (fun entry => (readParameter? entry).map fun read =>
      (⟨read.name, read.type, read.isNullable⟩ : Property)) ∘ Field.text =
      some ∘ Field.declared := by
    funext field
    simp only [Function.comp_apply, field.readParameter?_text]
    rfl
  rw [readProperties, splitTopLevel_commaSpaced selfContained trimmed, all, List.filterMap_map,
    read, ← List.filterMap_map, List.filterMap_some]

/-! What there is besides headers -/

theorem Field.isFree_text (field : Field) : IsFree foreignMarks field.text := by
  have keyword : IsFree foreignMarks "val ".toList := by decide
  have name := keyword.append (isFree_of_isWord field.name.word)
  exact (name.append (by decide)).append (isFree_of_spelling field.type.spelling)

theorem Line.isFree_text (line : Line) : IsFree foreignMarks line.text := by
  have name (name : TypeName) : IsFree foreignMarks name.text := isFree_of_isWord name.word
  cases line with
  | blank => exact fun c inside => absurd inside (by simp [text_blank])
  | sealed interface =>
    have keyword : IsFree foreignMarks "sealed interface ".toList := by decide
    rw [text_sealed]
    exact keyword.append (name interface)
  | object case parent =>
    have object : IsFree foreignMarks "object ".toList := by decide
    rw [text_object]
    exact ((object.append (name case)).append (by decide)).append (name parent)
  | data case fields parent =>
    have keyword : IsFree foreignMarks "data class ".toList := by decide
    have list : IsFree foreignMarks (commaSpaced (fields.map (·.text))) := by
      intro c inside
      rcases mem_intercalate inside with comma | ⟨part, member, inside⟩
      · exact (by decide : IsFree foreignMarks [',', ' ']) c comma
      · obtain ⟨field, -, rfl⟩ := List.mem_map.mp member
        exact field.isFree_text c inside
    have round : IsFree foreignMarks ['('] := by decide
    have front := (keyword.append (name case)).append (round.append list)
    rw [text_data]
    exact (front.append (by decide : IsFree foreignMarks ") : ".toList)).append (name parent)

theorem free_of_mem_textOf {lines : List Line} {c : Char} (inside : c ∈ textOf lines) :
    c = '\n' ∨ c ∉ foreignMarks := by
  rcases mem_intercalate inside with newline | ⟨part, member, inside⟩
  · exact .inl (List.mem_singleton.mp newline)
  · obtain ⟨line, -, rfl⟩ := List.mem_map.mp member
    exact .inr (line.isFree_text c inside)

theorem isFree_textOf (lines : List Line) : IsFree replaceMarks (textOf lines) := by
  intro c inside member
  rcases free_of_mem_textOf inside with rfl | free
  · exact absurd member (by decide)
  · exact free (List.mem_append_left _ member)

theorem unbraced_textOf (lines : List Line) : ∀ c ∈ textOf lines, c ≠ '{' ∧ c ≠ '}' := by
  intro c inside
  rcases free_of_mem_textOf inside with rfl | free
  · decide
  · constructor <;> rintro rfl <;> exact free (by decide)

/-- No line begins with a `p`, and only blanks can come before it. -/
theorem head_textOf (lines : List Line) : ∀ c ∈ (skipBlanks (textOf lines)).head?, c ≠ 'p' := by
  induction lines with
  | nil => simp [textOf, unlines, skipBlanks]
  | cons line lines ih =>
    have ink {c : Char} (text : Text) (ink : isBlank c = false) :
        (skipBlanks (c :: text)).head? = some c := by simp [skipBlanks, ink]
    rw [textOf_cons]
    cases line with
    | blank =>
      rw [Line.text_blank]
      cases lines with
      | nil => simp [behind, skipBlanks]
      | cons next lines => simpa [behind, skipBlanks, show isBlank '\n' = true from rfl]
    | sealed name => simp [Line.text_sealed, ink, show isBlank 's' = false from rfl]
    | data name fields parent => simp [Line.text_data, ink, show isBlank 'd' = false from rfl]
    | object name parent => simp [Line.text_object, ink, show isBlank 'o' = false from rfl]

theorem packageName_textOf (lines : List Line) : packageName true (textOf lines) = [] := by
  induction lines with
  | nil => rfl
  | cons line lines ih =>
    have single : '\n' ∉ line.text := fun inside => line.isFree_text _ inside (by decide)
    have head := head_textOf (line :: lines)
    rw [textOf_cons] at head ⊢
    cases within : line.text with
    | nil =>
      rw [within] at head
      cases lines with
      | nil => rfl
      | cons next lines => exact (packageName_start head).trans ih
    | cons c more =>
      rw [within] at head single
      rw [List.mem_cons, not_or] at single
      rw [List.cons_append] at head ⊢
      rw [packageName_start head, decide_eq_false (Ne.symm single.1), packageName_inside single.2]
      cases lines with
      | nil => rfl
      | cons next lines => exact ih

/-- What the scanner works on when a text has no comments, literals, bodies or package. -/
def plainSource (text : Text) : Source :=
  ⟨text, text, [], ⟨[], []⟩⟩

theorem ofText_plain {text : Text} (free : IsFree replaceMarks text)
    (unbraced : ∀ c ∈ text, c ≠ '{' ∧ c ≠ '}') (unnamed : packageName true text = []) :
    Source.ofText text = plainSource text := by
  have kept {read : Text → Option (Text × Text)} (replaces : Replaces read) :
      replaceAll read text = text := by
    have whole := replaces.replaceAll_free free []
    rwa [replaceAll, List.append_nil] at whole
  have stripped : stripComments text = text := by
    rw [stripComments, stripBlockComments, kept replaces_blockComments]
    exact kept replaces_lineComments
  have masked : maskLiterals text = text := kept replaces_literals
  have scopes : ScopeIndex.ofText text = ⟨[], []⟩ := by
    have passed (headers : List TypeHeader) : scopesFrom headers 0 [] (text ++ []) = ⟨[], []⟩ :=
      scopesFrom_free unbraced 0 []
    rw [ScopeIndex.ofText, masked]
    simpa using passed (typeHeaders text)
  rw [Source.ofText, stripped, masked, unnamed, scopes, plainSource]

theorem ofText_textOf (lines : List Line) :
    Source.ofText (textOf lines) = ⟨textOf lines, textOf lines, [], ⟨[], []⟩⟩ :=
  ofText_plain (isFree_textOf lines) (unbraced_textOf lines) (packageName_textOf lines)

/-! Places -/

/-- The source of some lines, in which nothing is enclosed by anything. -/
def linesSource (lines : List Line) : Source :=
  ⟨textOf lines, textOf lines, [], ⟨[], []⟩⟩

theorem filterMap_spots (find? : Line → Option α) (offset : Nat) (lines : List Line) :
    (spots offset lines).filterMap (fun spot => find? spot.line) = lines.filterMap find? := by
  induction lines generalizing offset with
  | nil => rfl
  | cons line lines ih => rw [spots, List.filterMap_cons, List.filterMap_cons, ih]

theorem start_of_mem_spots {offset : Nat} {lines : List Line} {spot : Spot}
    (member : spot ∈ spots offset lines) : offset ≤ spot.start := by
  induction lines generalizing offset with
  | nil => cases member
  | cons line lines ih =>
    rcases List.mem_cons.mp member with rfl | member
    · exact Nat.le_refl offset
    · have later := ih member
      omega

theorem pairwise_spots (offset : Nat) (lines : List Line) :
    (spots offset lines).Pairwise (·.start < ·.start) := by
  induction lines generalizing offset with
  | nil => exact .nil
  | cons line lines ih =>
    refine List.Pairwise.cons (fun spot member => ?_) (ih _)
    have later := start_of_mem_spots member
    dsimp only
    omega

theorem drop_start {lines : List Line} {spot : Spot} (front : Text)
    (member : spot ∈ spots front.length lines) :
    (front ++ textOf lines).drop spot.start = spot.line.text ++ behind spot.after := by
  induction lines generalizing front with
  | nil => cases member
  | cons line lines ih =>
    rcases List.mem_cons.mp member with rfl | member
    · rw [List.drop_left, textOf_cons]
    · cases lines with
      | nil => cases member
      | cons next lines =>
        have later := ih (front ++ line.text ++ ['\n']) (by simpa [Nat.add_assoc] using member)
        rw [textOf_cons, behind, ← later]
        simp

theorem places_lines {words : List String} {read : Lookbehind α}
    {found? : Line → Option (Finding α)} (finds : FindsLines words read found?)
    (lines : List Line) :
    (linesSource lines).places read =
      (spots 0 lines).filterMap fun spot => (found? spot.line).map spot.place := by
  have start : atBoundary none = true := rfl
  rw [Source.places, ← finds.occurrencesFrom_textOf lines 0 start]
  exact List.filter_eq_self.mpr fun place _ => rfl

/-! Cases -/

/-- The case in a line with its offset. -/
def Spot.case? (interface : Text) (spot : Spot) : Option (Nat × Variant) :=
  (spot.line.case? interface).map (spot.start, ·)

def Line.isData : Line → Bool
  | data _ _ _ => true
  | _ => false

theorem afterLast_name (name : TypeName) : afterLast '.' name.text = name.text :=
  afterLast_of_not_mem (name.word.not_mem (by decide))

/-- What a search for data classes finds in a line, and what is read behind it. -/
theorem dataCase_line {lines after : List Line} {start : Nat} {name : TypeName}
    {fields : List Field} {parent : TypeName}
    (member : ⟨start, .data name fields parent, after⟩ ∈ spots 0 lines) :
    let lead := "data class ".toList ++ name.text ++ ['(']
    let list := commaSpaced (fields.map (·.text))
    let behind := " : ".toList ++ (parent.text ++ behind after)
    Bracket.round.inside (fieldsText fields parent ++ Syntax.behind after) = some (list, behind) ∧
      (linesSource lines).slice (start + lead.length) list.length = list := by
  intro lead list behind
  have balanced : ∀ entry ∈ fields.map (·.text), Balanced false entry :=
    List.forall_mem_map.mpr fun field _ => field.balanced
  have closed := (balanced_commaSpaced balanced).inside .round behind
  have dropped : (textOf lines).drop start = lead ++ (list ++ ')' :: behind) := by
    have whole := drop_start [] member
    simpa [lead, list, behind, Line.text_data] using whole
  constructor
  · simpa [fieldsText, Bracket.closer, behind, list] using closed
  · rw [Source.slice, ← List.drop_drop, linesSource, dropped, List.drop_left, List.take_left]

theorem dataCases_lines (lines : List Line) (interface : Text) :
    (linesSource lines).dataCases interface =
      ((spots 0 lines).filter (·.line.isData)).filterMap (·.case? interface) := by
  rw [Source.dataCases, places_lines finds_data_lines, List.filterMap_filterMap,
    List.filterMap_filter]
  refine List.filterMap_congr fun spot member => ?_
  obtain ⟨start, line, after⟩ := spot
  cases line with
  | data name fields parent =>
    obtain ⟨closed, slice⟩ := dataCase_line member
    have supertype := supertype?_text parent (behind after) fun c head =>
      (outside_break (head_behind after) c head).2
    simp only [Line.data?, Option.map_some, Option.bind_some, Spot.place, closed, slice,
      Option.bind_eq_bind, supertype, afterLast_name, readProperties_fields, Line.isData, if_true,
      Spot.case?, Line.case?]
    split <;> rfl
  | blank | sealed | object => rfl

theorem objectCases_lines (lines : List Line) (interface : Text) :
    (linesSource lines).objectCases interface =
      ((spots 0 lines).filter (!·.line.isData)).filterMap (·.case? interface) := by
  rw [Source.objectCases, places_lines finds_object_lines, List.filterMap_filterMap,
    List.filterMap_filter]
  refine List.filterMap_congr fun spot _ => ?_
  obtain ⟨start, line, after⟩ := spot
  cases line with
  | object name parent =>
    simp only [Line.object?, Option.map_some, Option.bind_some, Spot.place, afterLast_name,
      Line.isData, Bool.not_false, if_true, Spot.case?, Line.case?]
    split <;> rfl
  | blank | sealed | data => rfl

/-! Order -/

/-- Sorting leaves no choice where all keys are different. -/
theorem mergeSort_eq_of_perm {items sorted : List (Nat × α)} (perm : items.Perm sorted)
    (increasing : sorted.Pairwise (·.1 < ·.1)) : items.mergeSort (·.1 ≤ ·.1) = sorted := by
  have keys : (sorted.map (·.1)).Nodup := by
    refine List.pairwise_map.mpr (increasing.imp fun less => ?_)
    exact Nat.ne_of_lt less
  have order : (items.mergeSort (·.1 ≤ ·.1)).Pairwise fun first second =>
      decide (first.1 ≤ second.1) = true := by
    refine List.pairwise_mergeSort (fun first second third => ?_) (fun first second => ?_) items
    · simp only [decide_eq_true_eq]
      exact Nat.le_trans
    · simp only [Bool.or_eq_true, decide_eq_true_eq]
      exact Nat.le_total _ _
  have same := (List.mergeSort_perm items (·.1 ≤ ·.1)).trans perm
  refine List.Perm.eq_of_pairwise ?_ order (increasing.imp fun less => ?_) same
  · intro first second isFirst isSecond forward backward
    have equal := Nat.le_antisymm (of_decide_eq_true forward) (of_decide_eq_true backward)
    exact List.inj_on_of_nodup_map keys (same.mem_iff.mp isFirst) isSecond equal
  · exact decide_eq_true (Nat.le_of_lt less)

/-- Data classes and objects are put back in the order of the text. -/
theorem variants_lines (lines : List Line) (interface : Text) :
    (linesSource lines).variants interface = lines.filterMap (Line.case? interface) := by
  have increasing : ((spots 0 lines).filterMap (·.case? interface)).Pairwise (·.1 < ·.1) := by
    refine (pairwise_spots 0 lines).filterMap _ ?_
    intro first second less found isFound other isOther
    obtain ⟨_, -, rfl⟩ := Option.map_eq_some_iff.mp isFound
    obtain ⟨_, -, rfl⟩ := Option.map_eq_some_iff.mp isOther
    exact less
  have perm : ((linesSource lines).dataCases interface ++
      (linesSource lines).objectCases interface).Perm
        ((spots 0 lines).filterMap (·.case? interface)) := by
    rw [dataCases_lines, objectCases_lines, ← List.filterMap_append]
    exact (List.filter_append_perm (·.line.isData) (spots 0 lines)).filterMap _
  have numbered : Spot.case? interface =
      fun spot => (spot.line.case? interface).map (spot.start, ·) := rfl
  rw [Source.variants, mergeSort_eq_of_perm perm increasing, List.map_filterMap, numbered,
    ← filterMap_spots _ 0 lines]
  simp [Option.map_map, Function.comp_def]

/-! Interfaces -/

/-- An interface stands alone, and its name ends the line. -/
theorem sumType?_line (lines : List Line) (start : Nat) (name : TypeName) (after : List Line) :
    (linesSource lines).sumType? (Spot.place ⟨start, .sealed name, after⟩
        ⟨"sealed interface ".toList ++ name.text, ⟨0, name.text⟩, []⟩) =
      Line.sumType? lines (.sealed name) := by
  have identity : (linesSource lines).identity none name.text =
      { qualifiedName := name.text, name := name.text, package := [] } := by
    simp [Source.identity, linesSource, name.word.nonempty]
  have marker (place : Occurrence (Marked Text)) (unmarked : place.found.marker = 0) :
      (linesSource lines).markerText place = [] := by
    rw [Source.markerText, Source.slice, unmarked, List.take_zero]
  rw [Source.sumType?, Line.sumType?, marker _ rfl, ← variants_lines, ← identity]
  cases after <;> rfl

theorem sumTypes_lines (lines : List Line) :
    (linesSource lines).sumTypes = lines.filterMap (Line.sumType? lines) := by
  have closed (places : List (Occurrence (Marked Text))) : places.filter (fun place =>
      !(linesSource lines).scopes.isUnterminatedHeader (place.stop - place.found.header.length)) =
      places := List.filter_eq_self.mpr fun place _ => rfl
  rw [Source.sumTypes, closed, places_lines (finds_sealed_lines _), List.filterMap_filterMap,
    ← filterMap_spots _ 0 lines]
  refine List.filterMap_congr fun spot _ => ?_
  obtain ⟨start, line, after⟩ := spot
  cases line with
  | sealed name => exact sumType?_line lines start name after
  | blank | data | object => rfl

/-- The sum type that a declaration describes, if it describes one. -/
def sum? : Declaration → Option SumType
  | .sum declaration => some declaration
  | _ => none

/-- Every interface is found with exactly its own cases, in the order of the text. -/
theorem sumTypes_scan (lines : List Line) :
    (Kotlin.scan (textOf lines)).filterMap sum? = lines.filterMap (Line.sumType? lines) := by
  have sums (types : List SumType) : (types.map Declaration.sum).filterMap sum? = types := by
    rw [List.filterMap_map]
    exact List.filterMap_some
  have asyncs (functions : List AsyncFunction) :
      (functions.map Declaration.async).filterMap sum? = [] := by
    rw [List.filterMap_map]
    exact List.filterMap_none functions
  have streams (streams : List Stream) : (streams.map Declaration.stream).filterMap sum? = [] := by
    rw [List.filterMap_map]
    exact List.filterMap_none streams
  rw [scan, ofText_textOf]
  rw [List.filterMap_append, List.filterMap_append, sums, asyncs, streams, List.append_nil,
    List.append_nil]
  exact sumTypes_lines lines

/-- A case before its interface, and an object behind it. -/
example :
    let shape : TypeName := ⟨⟨"Shape".toList, by decide, by decide⟩, by decide⟩
    let side : Field := ⟨⟨"a".toList, by decide, by decide⟩,
      .named ⟨[⟨"Int".toList, by decide, by decide⟩], by simp⟩ [] true⟩
    let lines : List Line :=
      [.data ⟨⟨"Box".toList, by decide, by decide⟩, by decide⟩ [side, side] shape, .sealed shape,
        .object ⟨⟨"Dot".toList, by decide, by decide⟩, by decide⟩ shape]
    textOf lines = unlines
      ["data class Box(val a: Int?, val a: Int?) : Shape".toList, "sealed interface Shape".toList,
        "object Dot : Shape".toList] := by
  decide

end DeclBridge.Kotlin.Syntax
