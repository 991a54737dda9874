import DeclBridge.Proofs.HierarchyHeaders
import DeclBridge.Proofs.MaskedSources
import Mathlib.Data.List.Chain

/-! Clauses of type parameters, whose bounds have generic arguments to any depth. Their names may be
keywords: one that stands before a colon begins no header. -/

namespace DeclBridge.Kotlin.Syntax

open Text

/-! Clauses -/

/-- The texts of bounds, and of lists of generic arguments. -/
inductive IsBound : (isList : Bool) → Text → Prop where
  | word {isList text} (isWord : IsWord text) : IsBound isList text
  | dotted {isList first second} (front : IsBound false first) (back : IsBound false second) :
    IsBound isList (first ++ '.' :: second)
  | generic {isList text arguments} (front : IsBound false text)
    (within : IsBound true arguments) : IsBound isList (text ++ '<' :: arguments ++ ['>'])
  | nullable {isList text} (front : IsBound false text) : IsBound isList (text ++ ['?'])
  | star : IsBound true ['*']
  | projected {mode : String} {text} (isMode : mode ∈ ["in", "out"])
    (projection : IsBound false text) : IsBound true (mode.toList ++ [' '] ++ text)
  | listed {first others} (front : IsBound true first) (back : IsBound true others) :
    IsBound true (first ++ [',', ' '] ++ others)

/-- A bound is a type of its own, no list. -/
structure Bound where
  text : Text
  isBound : IsBound false text

structure TypeEntry where
  name : Text
  isWord : IsWord name
  bound : Option Bound := none

def TypeEntry.text (entry : TypeEntry) : Text :=
  entry.name ++ entry.bound.elim [] (" : ".toList ++ ·.text)

structure TypeClause where
  entries : List TypeEntry
  nonempty : entries ≠ []

namespace TypeClause

/-- The text between the brackets. -/
def inner (clause : TypeClause) : Text :=
  commaSpaced (clause.entries.map (·.text))

def text (clause : TypeClause) : Text :=
  '<' :: clause.inner ++ ['>']

/-- Some bound has generic arguments. -/
def isNested (clause : TypeClause) : Bool :=
  clause.inner.contains '>'

end TypeClause

/-! Characters -/

private theorem balanced_of_isWord {isList : Bool} {text : Text} (isWord : IsWord text) :
    Balanced isList text := by
  have outside : ∀ mark ∈ ',' :: Nesting.marks, isWordChar mark = false := by decide
  refine .of_plain fun c inside => ⟨fun mark => ?_, ?_⟩
  · exact isWord.not_mem (outside c (List.mem_cons_of_mem _ mark)) inside
  · rintro rfl
    exact isWord.not_mem (by decide) inside

private theorem isWord_of_mem_modes : ∀ mode ∈ ["in", "out"], IsWord mode.toList := by
  decide

namespace IsBound

def marks : List Char :=
  ['.', '<', '>', ',', ' ', '?', '*']

variable {isList : Bool} {text : Text}

theorem chars (isBound : IsBound isList text) : ∀ c ∈ text, isWordChar c = true ∨ c ∈ marks := by
  have blank : (' ' : Char) ∈ marks := by decide
  induction isBound with
  | word isWord => exact fun c inside => .inl (isWord.wordChars c inside)
  | dotted _ _ front back | generic _ _ front back | listed _ _ front back =>
    simp_all [marks, or_imp]
  | nullable _ front => simp_all [marks, or_imp]
  | star => decide
  | @projected mode _ isMode _ projection =>
    have isWord := isWord_of_mem_modes mode isMode
    have front : ∀ c ∈ mode.toList, isWordChar c = true ∨ c ∈ marks :=
      fun c inside => .inl (isWord.wordChars c inside)
    refine List.forall_mem_append.mpr ⟨List.forall_mem_append.mpr ⟨front, ?_⟩, projection⟩
    exact fun c inside => .inr (List.mem_singleton.mp inside ▸ blank)

end IsBound

theorem TypeEntry.chars (entry : TypeEntry) :
    ∀ c ∈ entry.text, isWordChar c = true ∨ c ∈ ':' :: IsBound.marks := by
  obtain ⟨name, isWord, bound⟩ := entry
  refine List.forall_mem_append.mpr ⟨fun c inside => .inl (isWord.wordChars c inside), ?_⟩
  cases bound with
  | none => simp
  | some bound =>
    refine List.forall_mem_append.mpr ⟨by decide, fun c inside => ?_⟩
    exact (bound.isBound.chars c inside).imp_right (List.mem_cons_of_mem _)

namespace TypeClause

variable (clause : TypeClause)

theorem chars : ∀ c ∈ clause.text, isWordChar c = true ∨ c ∈ ':' :: IsBound.marks := by
  have inner : ∀ c ∈ clause.inner, isWordChar c = true ∨ c ∈ ':' :: IsBound.marks := by
    intro c inside
    rcases mem_intercalate inside with comma | ⟨part, member, inside⟩
    · exact .inr ((by decide : ∀ c ∈ [',', ' '], c ∈ ':' :: IsBound.marks) c comma)
    · obtain ⟨entry, -, rfl⟩ := List.mem_map.mp member
      exact entry.chars c inside
  exact List.forall_mem_append.mpr ⟨List.forall_mem_cons.mpr ⟨by decide, inner⟩, by decide⟩

/-- There is nothing in a clause for comments, literals and bodies. -/
theorem isFree_text : IsFree foreignMarks clause.text := by
  have outside : ∀ mark ∈ foreignMarks, isWordChar mark = false ∧ mark ∉ ':' :: IsBound.marks := by
    decide
  intro c inside foreign
  rcases clause.chars c inside with word | mark
  · rw [(outside c foreign).1] at word
    cases word
  · exact (outside c foreign).2 mark

end TypeClause

/-! Splitting -/

theorem IsBound.balanced {isList : Bool} {text : Text} (isBound : IsBound isList text) :
    Balanced isList text := by
  induction isBound with
  | word isWord => exact balanced_of_isWord isWord
  | dotted _ _ front back => exact front.weaken.append (.cons (by decide) back.weaken)
  | generic _ _ front within =>
    rw [List.append_assoc]
    exact front.weaken.append (within.bracketed .angle)
  | nullable _ front => exact front.weaken.append (.cons (by decide) .nil)
  | star => exact .of_plain (by decide)
  | @projected mode _ isMode _ projection =>
    have isWord := isWord_of_mem_modes mode isMode
    rw [List.append_assoc]
    exact (balanced_of_isWord isWord).append (.cons (by decide) projection.weaken)
  | listed _ _ front back =>
    rw [List.append_assoc]
    exact front.append (.plain (by decide) (fun _ => rfl) (.cons (by decide) back))

theorem IsBound.spaced {isList : Bool} {text : Text} (isBound : IsBound isList text) :
    IsSpaced text := by
  have mark (c : Char) (ink : isBlank c = false) : IsSpaced [c] :=
    .word (by simp) (by simpa using ink)
  have word {text : Text} (isWord : IsWord text) : IsSpaced text :=
    .word isWord.nonempty fun c inside => isBlank_of_isWordChar (isWord.wordChars c inside)
  induction isBound with
  | word isWord => exact word isWord
  | dotted _ _ front back =>
    rw [List.append_cons]
    exact (front.append (mark '.' rfl)).append back
  | generic _ _ front within =>
    simpa using ((front.append (mark '<' rfl)).append within).append (mark '>' rfl)
  | nullable _ front => exact front.append (mark '?' rfl)
  | star => exact mark '*' rfl
  | @projected mode _ isMode _ projection =>
    have isWord := isWord_of_mem_modes mode isMode
    simpa using (word isWord).spaced_append projection
  | listed _ _ front back => simpa using (front.append (mark ',' rfl)).spaced_append back

namespace TypeEntry

variable (entry : TypeEntry)

theorem balanced : Balanced false entry.text := by
  obtain ⟨name, isWord, bound⟩ := entry
  refine (balanced_of_isWord isWord).append ?_
  cases bound with
  | none => exact .nil
  | some bound => exact (Balanced.of_plain (by decide)).append bound.isBound.balanced

theorem spaced : IsSpaced entry.text := by
  obtain ⟨name, isWord, bound⟩ := entry
  have front : IsSpaced name :=
    .word isWord.nonempty fun c inside => isBlank_of_isWordChar (isWord.wordChars c inside)
  cases bound with
  | none => simpa [text] using front
  | some bound =>
    have colon : IsSpaced [':'] := .word (by simp) (by decide)
    exact front.spaced_append (colon.spaced_append bound.isBound.spaced)

end TypeEntry

/-- A clause is divided into its entries, whatever its depth. -/
theorem TypeClause.typeParameters_text (clause : TypeClause) :
    typeParameters clause.text = clause.entries.map (·.text) := by
  have trimmed : trim clause.text = clause.text := by
    refine isTrimmed_iff.mpr ⟨?_, fun c last => ?_⟩
    · rintro _ ⟨⟩
      decide
    · rw [text, List.getLast?_append_of_ne_nil _ (by simp)] at last
      cases last
      decide
  have inner : (clause.text.drop 1).dropLast = clause.inner := List.dropLast_concat
  have last : clause.text.getLast? = some '>' := List.getLast?_concat
  rw [typeParameters, trimmed]
  simp only [inner, last]
  refine splitTopLevel_commaSpaced ?_ ?_
  · exact List.forall_mem_map.mpr fun entry _ => entry.balanced.isSelfContained
  · exact List.forall_mem_map.mpr fun entry _ => ⟨entry.spaced.isTrimmed, entry.spaced.ne_nil⟩

/-! Where the first bracket closes -/

/-- What can come behind a bracket that is closed within a clause. -/
def closingMarks : List Char :=
  ['.', '<', '>', ',', '?']

/-- Behind every closing bracket there is such a mark or the end. -/
def IsPunctuated (text : Text) : Prop :=
  text.IsChain fun c next => c = '>' → next ∈ closingMarks

namespace IsPunctuated

variable {text other : Text} {c : Char}

theorem cons (differs : c ≠ '>') (back : IsPunctuated text) : IsPunctuated (c :: text) :=
  List.isChain_cons.mpr ⟨fun _ _ same => absurd same differs, back⟩

theorem append_of_not_mem (absent : '>' ∉ text) (back : IsPunctuated other) :
    IsPunctuated (text ++ other) := by
  induction text with
  | nil => exact back
  | cons c text ih =>
    rw [List.mem_cons, not_or] at absent
    exact (ih absent.2).cons (Ne.symm absent.1)

theorem append_mark (front : IsPunctuated text) (mark : c ∈ closingMarks)
    (back : IsPunctuated (c :: other)) : IsPunctuated (text ++ c :: other) := by
  refine List.isChain_append.mpr ⟨front, back, ?_⟩
  rintro _ - _ ⟨⟩ -
  exact mark

end IsPunctuated

theorem IsBound.isPunctuated {isList : Bool} {text : Text} (isBound : IsBound isList text) :
    IsPunctuated text := by
  have point : '.' ∈ closingMarks ∧ '<' ∈ closingMarks ∧ '>' ∈ closingMarks := by decide
  have comma : ',' ∈ closingMarks ∧ '?' ∈ closingMarks := by decide
  have single (c : Char) : IsPunctuated [c] := .singleton c
  have word {text other : Text} (isWord : IsWord text) (back : IsPunctuated other) :
      IsPunctuated (text ++ other) := .append_of_not_mem (isWord.not_mem (by decide)) back
  induction isBound with
  | word isWord => simpa using word isWord .nil
  | dotted _ _ front back => exact front.append_mark point.1 (back.cons (by decide))
  | generic _ _ front within =>
    have bracketed := (within.append_mark point.2.2 (single '>')).cons (c := '<') (by decide)
    simpa using front.append_mark point.2.1 bracketed
  | nullable _ front => exact front.append_mark comma.2 (single '?')
  | star => exact single '*'
  | @projected mode _ isMode _ projection =>
    have isWord := isWord_of_mem_modes mode isMode
    simpa using word isWord (projection.cons (c := ' ') (by decide))
  | listed _ _ front back =>
    have spaced := (back.cons (c := ' ') (by decide)).cons (c := ',') (by decide)
    simpa using front.append_mark comma.1 spaced

theorem TypeEntry.isPunctuated (entry : TypeEntry) : IsPunctuated entry.text := by
  obtain ⟨name, isWord, bound⟩ := entry
  refine .append_of_not_mem (isWord.not_mem (by decide)) ?_
  cases bound with
  | none => exact .nil
  | some bound => exact .append_of_not_mem (by decide) bound.isBound.isPunctuated

namespace TypeClause

variable (clause : TypeClause)

theorem isPunctuated_inner : IsPunctuated clause.inner := by
  have comma : ',' ∈ closingMarks := by decide
  rw [inner]
  induction clause.entries with
  | nil => exact .nil
  | cons entry entries ih =>
    cases entries with
    | nil => simpa [commaSpaced_singleton] using entry.isPunctuated
    | cons next more =>
      have spaced := (ih.cons (c := ' ') (by decide)).cons (c := ',') (by decide)
      rw [List.map_cons, List.map_cons, commaSpaced_cons_cons]
      simpa using entry.isPunctuated.append_mark comma spaced

/-- A clause without nested brackets is read to its end. -/
theorem simpleClause?_flat (flat : clause.isNested = false) (rest : Text) :
    simpleClause? (clause.text ++ rest) = some (clause.inner, rest) := by
  have absent : '>' ∉ clause.inner := by simpa [isNested] using flat
  have behind : literal? "<" ('<' :: (clause.inner ++ '>' :: rest)) =
      some (clause.inner ++ '>' :: rest) := literal?_append "<" _
  simp only [text, List.cons_append, List.append_assoc, List.nil_append]
  rw [simpleClause?, behind]
  exact cut_append absent rest

/-- Any other is read up to the first bracket that closes, so that a mark comes next. -/
theorem simpleClause?_nested (nested : clause.isNested = true) (rest : Text) :
    ∃ found after, simpleClause? (clause.text ++ rest) = some (found, after) ∧
      ∃ c ∈ after.head?, c ∈ closingMarks := by
  have inside : '>' ∈ clause.inner := by simpa [isNested] using nested
  obtain ⟨before, more, same, absent⟩ := List.eq_append_cons_of_mem inside
  refine ⟨before, more ++ '>' :: rest, ?_, ?_⟩
  · have behind : literal? "<" ('<' :: (before ++ '>' :: (more ++ '>' :: rest))) =
        some (before ++ '>' :: (more ++ '>' :: rest)) := literal?_append "<" _
    rw [text, same]
    simp only [List.cons_append, List.append_assoc, List.nil_append]
    rw [simpleClause?, behind]
    exact cut_append absent _
  · cases more with
    | nil => exact ⟨'>', rfl, by decide⟩
    | cons c more =>
      have closed := clause.isPunctuated_inner
      rw [same] at closed
      have pair := (List.isChain_append.mp closed).2.1
      exact ⟨c, rfl, (List.isChain_cons_cons.mp pair).1 rfl⟩

end TypeClause

/-! Still places -/

private theorem isQuiet_of_name {text rest : Text} (isWord : IsWord text)
    (ends : ∀ c ∈ rest.head?, isWordChar c = false ∧ isBlank c = false) :
    IsQuiet lineWords rest text := by
  have ink := fun c inside => isBlank_of_isWordChar (isWord.wordChars c inside)
  exact isQuiet_of_ink isWord_of_mem_lineWords ink (isWord.not_mem (by decide)) ends

/-- No adoption marker begins here, and behind any word of a header there is a colon. -/
structure IsStillAt (text : Text) : Prop where
  unmarked : text.head? ≠ some '@'
  stops : ∀ word ∈ lineWords, ∀ rest, keyword? word text = some rest → rest.head? = some ':'

/-- All places of a text are still when it stands before `rest`. -/
def IsStill (rest : Text) : Text → Prop
  | [] => True
  | c :: text => IsStillAt (c :: text ++ rest) ∧ IsStill rest text

theorem IsQuietAt.isStillAt {text : Text} (quiet : IsQuietAt lineWords text) : IsStillAt text := by
  refine ⟨quiet.unmarked, fun word member rest read => ?_⟩
  rw [quiet.wordless word member] at read
  cases read

theorem IsQuiet.isStill {rest text : Text} (quiet : IsQuiet lineWords rest text) :
    IsStill rest text := by
  induction text with
  | nil => trivial
  | cons c text ih => exact ⟨quiet.1.isStillAt, ih quiet.2⟩

theorem IsStill.append {text other rest : Text} (first : IsStill (other ++ rest) text)
    (second : IsStill rest other) : IsStill rest (text ++ other) := by
  induction text with
  | nil => exact second
  | cons c text ih =>
    refine ⟨?_, ih first.2⟩
    have here := first.1
    rwa [← List.append_assoc] at here

theorem isStill_of_marks {marks rest : Text}
    (outside : ∀ c ∈ marks, isWordChar c = false ∧ c ≠ '@') : IsStill rest marks :=
  (isQuiet_of_marks isWord_of_mem_lineWords outside).isStill

/-- Any name before a spaced colon. -/
theorem isStill_of_word {text : Text} (isWord : IsWord text) (rest : Text) :
    IsStill (' ' :: ':' :: rest) text := by
  obtain ⟨-, inside⟩ := isWord
  induction text with
  | nil => trivial
  | cons c text ih =>
    obtain ⟨first, others⟩ := List.forall_mem_cons.mp inside
    refine ⟨⟨?_, fun word member found read => ?_⟩, ih others⟩
    · rintro ⟨⟩
      exact absurd first (by decide)
    · have wordChars := (isWord_of_mem_lineWords word member).wordChars
      obtain ⟨more, same, d, head, blank⟩ :=
        exists_of_keyword?_append read wordChars (outside_head (by decide) _)
      cases more with
      | nil =>
        have stops : keyword? word (word.toList ++ ' ' :: ':' :: rest) = some (':' :: rest) :=
          keyword?_append (by simp; decide)
        rw [same, List.append_nil, stops] at read
        exact Option.some.inj read ▸ rfl
      | cons e more =>
        have within : isWordChar e = true := inside e (by rw [same]; simp)
        rw [← Option.some.inj head, isBlank_of_isWordChar within] at blank
        cases blank

/-- No name within a bound stands before a blank. -/
theorem IsBound.isQuiet {isList : Bool} {text rest : Text} (isBound : IsBound isList text)
    (ends : ∀ c ∈ rest.head?, isWordChar c = false ∧ isBlank c = false) :
    IsQuiet lineWords rest text := by
  have mark {rest : Text} (marks : Text) (outside : ∀ c ∈ marks, isWordChar c = false ∧ c ≠ '@') :
      IsQuiet lineWords rest marks := isQuiet_of_marks isWord_of_mem_lineWords outside
  have head (mark : Char) (outside : isWordChar mark = false ∧ isBlank mark = false) (rest : Text) :
      ∀ c ∈ (mark :: rest).head?, isWordChar c = false ∧ isBlank c = false := by
    rintro _ ⟨⟩
    exact outside
  induction isBound generalizing rest with
  | word isWord => exact isQuiet_of_name isWord ends
  | @dotted _ _ second _ _ front back =>
    rw [List.append_cons]
    have point : IsQuiet lineWords (second ++ rest) ['.'] := mark ['.'] (by decide)
    exact ((front (head '.' (by decide) _)).append point).append (back ends)
  | @generic _ text arguments _ _ front within =>
    have opened : IsQuiet lineWords ((arguments ++ ['>']) ++ rest) (text ++ ['<']) :=
      (front (head '<' (by decide) _)).append (mark ['<'] (by decide))
    have closed := (within (head '>' (by decide) rest)).append (mark ['>'] (by decide))
    simpa using opened.append closed
  | nullable _ front => exact (front (head '?' (by decide) _)).append (mark ['?'] (by decide))
  | star => exact mark ['*'] (by decide)
  | @projected mode _ isMode _ projection =>
    have isWord := isWord_of_mem_modes mode isMode
    have apart := (by decide : ∀ mode ∈ ["in", "out"],
      ∀ word ∈ lineWords, ¬word.toList <:+ mode.toList) mode isMode
    exact (isQuiet_of_keyword mode isWord_of_mem_lineWords isWord apart).append (projection ends)
  | @listed _ others _ _ front back =>
    have comma : IsQuiet lineWords (others ++ rest) [',', ' '] := mark [',', ' '] (by decide)
    exact ((front (head ',' (by decide) _)).append comma).append (back ends)

theorem TypeEntry.isStill_text (entry : TypeEntry) {rest : Text}
    (ends : ∀ c ∈ rest.head?, isWordChar c = false ∧ isBlank c = false) :
    IsStill rest entry.text := by
  obtain ⟨name, isWord, bound⟩ := entry
  cases bound with
  | none =>
    rw [text, Option.elim_none, List.append_nil]
    exact (isQuiet_of_name isWord ends).isStill
  | some bound =>
    have colon : IsStill (bound.text ++ rest) " : ".toList := isStill_of_marks (by decide)
    exact (isStill_of_word isWord _).append (colon.append (bound.isBound.isQuiet ends).isStill)

namespace TypeClause

variable (clause : TypeClause)

theorem isStill_inner {rest : Text}
    (ends : ∀ c ∈ rest.head?, isWordChar c = false ∧ isBlank c = false) :
    IsStill rest clause.inner := by
  rw [inner]
  induction clause.entries with
  | nil => trivial
  | cons entry entries ih =>
    cases entries with
    | nil => simpa [commaSpaced_singleton] using entry.isStill_text ends
    | cons next more =>
      rw [List.map_cons, List.map_cons, commaSpaced_cons_cons]
      refine IsStill.append ?_ ih
      refine (entry.isStill_text ?_).append (isStill_of_marks (by decide))
      rintro _ ⟨⟩
      decide

/-- Whatever its names are, no header begins in a clause. -/
theorem isStill_text (rest : Text) : IsStill rest clause.text := by
  have opened : IsStill (clause.inner ++ ['>'] ++ rest) ['<'] := isStill_of_marks (by decide)
  refine opened.append ((clause.isStill_inner ?_).append (isStill_of_marks (by decide)))
  rintro _ ⟨⟩
  decide

end TypeClause
end DeclBridge.Kotlin.Syntax
