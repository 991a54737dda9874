import DeclBridge.Kotlin.Scan
import DeclBridge.Proofs.BalancedTexts
import DeclBridge.Proofs.SourceSyntax
import DeclBridge.Proofs.TypeGrammar

/-! How types are spelled, and what reading makes of a spelling. -/

namespace DeclBridge.Text

/-! Single spaces between words -/

inductive IsSpaced : Text → Prop where
  | word {word : Text} (nonempty : word ≠ []) (ink : ∀ c ∈ word, isBlank c = false) : IsSpaced word
  | spaced {word rest : Text} (nonempty : word ≠ []) (ink : ∀ c ∈ word, isBlank c = false)
    (behind : IsSpaced rest) : IsSpaced (word ++ ' ' :: rest)

namespace IsSpaced

variable {text other : Text}

theorem ne_nil (spaced : IsSpaced text) : text ≠ [] := by
  cases spaced with
  | word nonempty _ => exact nonempty
  | spaced _ _ _ => simp

theorem append (first : IsSpaced text) (second : IsSpaced other) : IsSpaced (text ++ other) := by
  induction first with
  | @word front nonempty ink =>
    have joined {back : Text} (inked : ∀ c ∈ back, isBlank c = false) :
        front ++ back ≠ [] ∧ ∀ c ∈ front ++ back, isBlank c = false :=
      ⟨by simp [nonempty], List.forall_mem_append.mpr ⟨ink, inked⟩⟩
    cases second with
    | word _ back => exact .word (joined back).1 (joined back).2
    | spaced _ back behind =>
      rw [← List.append_assoc]
      exact .spaced (joined back).1 (joined back).2 behind
  | spaced nonempty ink _ ih =>
    rw [List.append_assoc, List.cons_append]
    exact .spaced nonempty ink ih

theorem spaced_append (first : IsSpaced text) (second : IsSpaced other) :
    IsSpaced (text ++ ' ' :: other) := by
  induction first with
  | word nonempty ink => exact .spaced nonempty ink second
  | spaced nonempty ink _ ih =>
    rw [List.append_assoc, List.cons_append]
    exact .spaced nonempty ink ih

theorem isTrimmed (spaced : IsSpaced text) : IsTrimmed text := by
  induction spaced with
  | word _ ink => exact isTrimmed_of_ink ink
  | @spaced word rest nonempty ink behind ih =>
    have back : IsTrimmedEnd (word ++ ' ' :: rest) := by
      rw [List.append_cons]
      exact ih.trimmedEnd.append_left behind.ne_nil _
    refine back.isTrimmed fun c head => ?_
    rw [List.head?_append_of_ne_nil _ nonempty] at head
    exact ink c (List.mem_of_head? head)

theorem collapse_eq (spaced : IsSpaced text) : collapse text = text := by
  have single {word : Text} (nonempty : word ≠ []) (ink : ∀ c ∈ word, isBlank c = false) :
      words word = [word] := by
    rw [words, List.splitOnP_eq_singleton fun c inside => by simp [ink c inside]]
    simp [nonempty]
  induction spaced with
  | word nonempty ink => rw [collapse, single nonempty ink, List.intercalate_singleton]
  | @spaced word rest nonempty ink behind ih =>
    have divided : words (word ++ ' ' :: rest) = word :: words rest := by
      have front := single nonempty ink
      rw [words] at front ⊢
      rw [List.splitOnP_append_cons word rest (by decide), List.filter_append, front]
      rfl
    cases more : words rest with
    | nil =>
      rw [collapse, more] at ih
      exact absurd ih.symm behind.ne_nil
    | cons next others =>
      rw [collapse, more] at ih
      rw [collapse, divided, more, List.intercalate_cons_cons, ih]
      simp

end IsSpaced

end DeclBridge.Text

namespace DeclBridge.Kotlin.Syntax

open Text

/-! Spellings -/

/-- The texts of types, and of lists of types. -/
inductive Spelling : (isList : Bool) → Text → Prop where
  | word {isList} (name : Identifier) : Spelling isList name.text
  | dotted {isList first second} (front : Spelling false first) (back : Spelling false second) :
    Spelling isList (first ++ '.' :: second)
  | generic {isList text arguments} (front : Spelling false text)
    (within : Spelling true arguments) : Spelling isList (text ++ '<' :: arguments ++ ['>'])
  | nullary {isList text} (result : Spelling false text) :
    Spelling isList ('(' :: ')' :: " -> ".toList ++ text)
  | function {isList parameters text} (within : Spelling true parameters)
    (result : Spelling false text) :
    Spelling isList ('(' :: parameters ++ ')' :: " -> ".toList ++ text)
  | nullable {isList text} (front : Spelling false text) : Spelling isList (text ++ ['?'])
  | listed {first others} (front : Spelling false first) (back : Spelling true others) :
    Spelling true (first ++ [',', ' '] ++ others)

namespace Spelling

variable {isList : Bool} {text : Text}

theorem weaken (spelling : Spelling false text) : Spelling isList text := by
  cases spelling with
  | word name => exact .word name
  | dotted front back => exact .dotted front back
  | generic front within => exact .generic front within
  | nullary result => exact .nullary result
  | function within result => exact .function within result
  | nullable front => exact .nullable front

theorem balanced (spelling : Spelling isList text) : Balanced isList text := by
  have arrow {isList : Bool} : Balanced isList " -> ".toList := by
    simp only [String.reduceToList]
    exact .cons (by decide) (.arrow (.cons (by decide) .nil))
  induction spelling with
  | word name =>
    refine .of_plain fun c inside => ?_
    have marks : ∀ mark ∈ ',' :: Nesting.marks, isWordChar mark = false := by decide
    constructor
    · intro mark
      exact absurd (name.word.wordChars c inside) (by simp [marks c (List.mem_cons_of_mem _ mark)])
    · rintro rfl
      exact absurd (name.word.wordChars _ inside) (by decide)
  | dotted _ _ front back => exact front.weaken.append (.cons (by decide) back.weaken)
  | generic _ _ front within =>
    rw [List.append_assoc]
    exact front.weaken.append (within.bracketed .angle)
  | nullary _ result => exact .nested .round .nil (arrow.append result.weaken)
  | function _ _ within result => exact (Balanced.nested .round within arrow).append result.weaken
  | nullable _ front => exact front.weaken.append (.cons (by decide) .nil)
  | listed _ _ front back =>
    rw [List.append_assoc]
    exact front.weaken.append (.plain (by decide) (fun _ => rfl) (.cons (by decide) back))

theorem spaced (spelling : Spelling isList text) : IsSpaced text := by
  have mark (c : Char) (ink : isBlank c = false) : IsSpaced [c] :=
    .word (by simp) (by simpa using ink)
  have arrow {text : Text} (result : IsSpaced text) : IsSpaced ('-' :: '>' :: ' ' :: text) :=
    ((mark '-' rfl).append (mark '>' rfl)).spaced_append result
  induction spelling with
  | word name =>
    exact .word name.word.nonempty fun c inside =>
      isBlank_of_isWordChar (name.word.wordChars c inside)
  | dotted _ _ front back =>
    rw [List.append_cons]
    exact (front.append (mark '.' rfl)).append back
  | generic _ _ front within =>
    simpa using ((front.append (mark '<' rfl)).append within).append (mark '>' rfl)
  | nullary _ result => exact ((mark '(' rfl).append (mark ')' rfl)).spaced_append (arrow result)
  | function _ _ within result =>
    have parameters := ((mark '(' rfl).append within).append (mark ')' rfl)
    simpa using parameters.spaced_append (arrow result)
  | nullable _ front => exact front.append (mark '?' rfl)
  | listed _ _ front back =>
    simpa using (front.append (mark ',' rfl)).spaced_append back

/-- The characters of spellings that are not part of names. -/
def marks : List Char :=
  ['.', '<', '>', '(', ')', ',', ' ', '-', '?']

theorem chars (spelling : Spelling isList text) :
    ∀ c ∈ text, isWordChar c = true ∨ c ∈ marks := by
  induction spelling with
  | word name => exact fun c inside => .inl (name.word.wordChars c inside)
  | dotted _ _ front back | generic _ _ front back | function _ _ front back
  | listed _ _ front back => simp_all [marks, or_imp]
  | nullary _ result | nullable _ result => simp_all [marks, or_imp]

/-- No other mark occurs in a spelling. -/
theorem not_mem (spelling : Spelling isList text) {mark : Char}
    (outside : isWordChar mark = false ∧ mark ∉ marks) : mark ∉ text := by
  intro inside
  rcases spelling.chars mark inside with word | member
  · rw [outside.1] at word
    cases word
  · exact outside.2 member

theorem ne_nil (spelling : Spelling isList text) : text ≠ [] :=
  spelling.spaced.ne_nil

/-- No spelling ends in parentheses. -/
theorem getLast?_ne (spelling : Spelling isList text) : text.getLast? ≠ some ')' := by
  have behind {isList front back} (spelling : Spelling isList back)
      (last : back.getLast? ≠ some ')') : (front ++ back).getLast? ≠ some ')' := by
    rwa [List.getLast?_append_of_ne_nil _ spelling.ne_nil]
  induction spelling with
  | word name =>
    intro last
    have letter := name.word.wordChars _ (List.mem_of_getLast? last)
    exact absurd letter (by decide)
  | dotted _ back _ last =>
    rw [List.append_cons]
    exact behind back last
  | nullary result last | function _ result _ last | listed _ result _ last =>
    exact behind result last
  | generic | nullable =>
    rw [List.getLast?_concat]
    decide

end Spelling

theorem spelling_path (path : Path) : Spelling false path.text := by
  obtain ⟨parts, nonempty⟩ := path
  change Spelling false (['.'].intercalate (parts.map Identifier.text))
  induction parts with
  | nil => exact absurd rfl nonempty
  | cons name parts ih =>
    cases parts with
    | nil => simpa using Spelling.word name
    | cons next more =>
      rw [List.map_cons, List.map_cons, List.intercalate_cons_cons, List.append_assoc,
        ← List.map_cons]
      exact .dotted (.word name) (ih (by simp))

theorem isDottedChar_path (path : Path) : ∀ c ∈ path.text, isDottedChar c = true := by
  intro c inside
  rcases mem_intercalate inside with point | ⟨part, member, inside⟩
  · rw [List.mem_singleton.mp point]
    decide
  · obtain ⟨name, -, rfl⟩ := List.mem_map.mp member
    simp [isDottedChar, name.word.wordChars c inside]

theorem spelling_commaSpaced {texts : List Text} (nonempty : texts ≠ [])
    (spellings : ∀ text ∈ texts, Spelling false text) : Spelling true (commaSpaced texts) := by
  induction texts with
  | nil => exact absurd rfl nonempty
  | cons text texts ih =>
    obtain ⟨first, others⟩ := List.forall_mem_cons.mp spellings
    cases texts with
    | nil =>
      rw [commaSpaced_singleton]
      exact first.weaken
    | cons next more =>
      rw [commaSpaced_cons_cons]
      exact .listed first (ih (by simp) others)

namespace TypeRef

theorem isEmpty_textsOf (types : List TypeRef) : (textsOf types).isEmpty = types.isEmpty := by
  cases types <;> rfl

private theorem spelling_nullMark {text : Text} (spelling : Spelling false text)
    (isNullable : Bool) : Spelling false (text ++ nullMark isNullable) := by
  cases isNullable with
  | false => simpa [nullMark] using spelling
  | true => exact .nullable spelling

mutual

theorem spelling : (type : TypeRef) → Spelling false type.text
  | .named path arguments isNullable => by
    refine spelling_nullMark ?_ isNullable
    cases arguments with
    | nil => simpa [argumentClause, textsOf] using spelling_path path
    | cons first others =>
      rw [argumentClause, isEmpty_textsOf, List.isEmpty_cons, if_neg (by simp),
        ← List.append_assoc]
      refine .generic (spelling_path path) (spelling_commaSpaced ?_ ?_)
      · simp [textsOf]
      · exact spelling_of_mem (first :: others)
  | .function parameters result isNullable => by
    refine spelling_nullMark ?_ isNullable
    cases parameters with
    | nil => exact .nullary result.spelling
    | cons first others =>
      have within : Spelling true (commaSpaced (textsOf (first :: others))) :=
        spelling_commaSpaced (by simp [textsOf]) (spelling_of_mem (first :: others))
      simpa using Spelling.function within result.spelling

theorem spelling_of_mem : (types : List TypeRef) → ∀ text ∈ textsOf types, Spelling false text
  | [] => by simp [textsOf]
  | type :: types => by
    rw [textsOf]
    exact List.forall_mem_cons.mpr ⟨type.spelling, spelling_of_mem types⟩

end

theorem spelling_textsOf (first : TypeRef) (others : List TypeRef) :
    Spelling true (commaSpaced (textsOf (first :: others))) :=
  spelling_commaSpaced (by simp [textsOf]) (spelling_of_mem (first :: others))

/-! Reading a spelling -/

private theorem isTypeText_nullMark {text : Text} (type : IsTypeText false text)
    (isNullable : Bool) : IsTypeText isNullable (text ++ nullMark isNullable) := by
  cases isNullable with
  | false => simpa [nullMark] using type
  | true => exact .marked type

def isNullable : TypeRef → Bool
  | named _ _ isNullable => isNullable
  | function _ _ isNullable => isNullable

theorem isTypeText : (type : TypeRef) → IsTypeText type.isNullable type.text
  | .named path arguments isNullable => by
    refine isTypeText_nullMark ?_ isNullable
    have nonempty := (spelling_path path).ne_nil
    cases arguments with
    | nil =>
      simpa [argumentClause, textsOf] using IsTypeText.named nonempty (isDottedChar_path path)
    | cons first others =>
      rw [argumentClause, isEmpty_textsOf, List.isEmpty_cons, if_neg (by simp),
        ← List.append_assoc]
      have within := (spelling_textsOf first others).balanced.isEnclosed
      exact .generic nonempty (isDottedChar_path path) within
  | .function parameters result isNullable => by
    refine isTypeText_nullMark ?_ isNullable
    have blank : ∀ c ∈ [' '], isBlank c = true := by decide
    have within : Balanced true (commaSpaced (textsOf parameters)) :=
      balanced_commaSpaced fun text member => (spelling_of_mem parameters text member).balanced
    simpa using IsTypeText.function within.isEnclosed blank blank result.isTypeText

theorem head_ink (type : TypeRef) (rest : Text) :
    ∀ c ∈ (type.text ++ rest).head?, isBlank c = false := by
  rw [List.head?_append_of_ne_nil _ type.spelling.ne_nil]
  exact fun c head => type.spelling.spaced.isTrimmed.head_ink head

theorem readType?_text (type : TypeRef) {rest : Text} (ends : EndsType rest) :
    readType? (type.text ++ rest) = some (type.text, rest) := by
  have blank : ∀ c ∈ ([] : Text), c = ' ' ∨ c = '\t' := by simp
  exact type.isTypeText.readType?_append blank ends fun last =>
    absurd last type.spelling.getLast?_ne

theorem elementType?_text (type : TypeRef) (rest : Text) :
    Source.elementType? (type.text ++ '>' :: rest) = some type.text := by
  have inked := type.spelling.spaced.isTrimmed.isBlankText_eq_false type.spelling.ne_nil
  have closed := type.spelling.balanced.inside .angle rest
  rw [Source.elementType?]
  simp only [Bracket.closer] at closed
  simp [closed, inked, type.spelling.spaced.collapse_eq]

/-! The null mark at the end -/

private theorem isTrimmedEnd_of_nullMark {text front : Text}
    (spaced : IsSpaced (text ++ nullMark false)) (same : text ++ nullMark true = front ++ ['?']) :
    front ≠ [] ∧ IsTrimmedEnd front := by
  rw [nullMark, if_neg (by simp), List.append_nil] at spaced
  rw [nullMark, if_pos rfl] at same
  rw [← List.append_cancel_right same]
  exact ⟨spaced.ne_nil, spaced.isTrimmed.trimmedEnd⟩

/-- Something stands before a null mark at the end, and directly before it stands no blank. -/
theorem isTrimmedEnd_of_text : (type : TypeRef) → {front : Text} → type.text = front ++ ['?'] →
    front ≠ [] ∧ IsTrimmedEnd front
  | .named path arguments true, front, same => by
    have spaced := (TypeRef.named path arguments false).spelling.spaced
    rw [text] at spaced same
    exact isTrimmedEnd_of_nullMark spaced same
  | .named path arguments false, front, same => by
    rw [text, nullMark, if_neg (by simp), List.append_nil] at same
    cases arguments with
    | nil =>
      rw [textsOf, argumentClause, List.isEmpty_nil, if_pos rfl, List.append_nil] at same
      have dotted := isDottedChar_path path '?' (by simp [same])
      exact absurd dotted (by decide)
    | cons first others =>
      rw [argumentClause, isEmpty_textsOf, List.isEmpty_cons, if_neg (by simp),
        ← List.append_assoc] at same
      have last := List.append_inj_right' same rfl
      simp at last
  | .function parameters result true, front, same => by
    have spaced := (TypeRef.function parameters result false).spelling.spaced
    rw [text] at spaced same
    exact isTrimmedEnd_of_nullMark spaced same
  | .function parameters result false, front, same => by
    rw [text, nullMark, if_neg (by simp), List.append_nil] at same
    -- The mark is that of the result, which may be a function type itself.
    have marked : result.text.getLast? = some '?' := by
      rw [← List.getLast?_append_of_ne_nil _ result.spelling.ne_nil, same, List.getLast?_concat]
    obtain ⟨back, last⟩ := List.getLast?_eq_some_iff.mp marked
    obtain ⟨nonempty, trimmed⟩ := isTrimmedEnd_of_text result last
    rw [last, ← List.append_assoc] at same
    rw [← List.append_cancel_right same]
    exact ⟨by simp, trimmed.append_left nonempty _⟩

theorem splitNullMark_text (type : TypeRef) :
    splitNullMark type.text = (type.unmarked, type.isMarked) := by
  have trimmed := type.spelling.spaced.isTrimmed
  unfold splitNullMark unmarked
  by_cases marked : type.text.getLast? = some '?'
  · obtain ⟨front, same⟩ := List.getLast?_eq_some_iff.mp marked
    obtain ⟨nonempty, back⟩ := type.isTrimmedEnd_of_text same
    have inner : trim front = front := by
      refine back.isTrimmed fun c head => trimmed.head_ink ?_
      rw [same, List.head?_append_of_ne_nil _ nonempty]
      exact head
    simp [isMarked, same, inner]
  · simp [isMarked, marked]

end TypeRef

end DeclBridge.Kotlin.Syntax
