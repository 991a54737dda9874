import DeclBridge.Proofs.QuietTexts

/-! The keywords that headers begin with. Blanks stand behind each of them, so no other keyword
begins before the next one. -/

namespace DeclBridge.Text

/-- The blanks behind a keyword. -/
structure IsGap (blanks : Text) : Prop where
  nonempty : blanks ≠ []
  blank : ∀ c ∈ blanks, isBlank c = true

theorem exists_gap_of_keyword? {word : String} {text rest : Text}
    (read : keyword? word text = some rest) :
    ∃ blanks, IsGap blanks ∧ text = word.toList ++ (blanks ++ rest) := by
  obtain ⟨behind, start, gap⟩ := Option.bind_eq_some_iff.mp read
  obtain ⟨⟨blanks, last⟩, run, same⟩ := Option.map_eq_some_iff.mp gap
  obtain rfl : last = rest := same
  obtain ⟨nonempty, taken, dropped⟩ := run?_eq_some_iff.mp run
  refine ⟨blanks, ⟨nonempty, ?_⟩, ?_⟩
  · intro c inside
    rw [← taken] at inside
    exact List.mem_takeWhile_imp inside
  · rw [← taken, ← dropped, List.takeWhile_append_dropWhile]
    exact behind?_eq_some_iff.mp start

end DeclBridge.Text

namespace DeclBridge.Kotlin

open Text Syntax

section

variable {words : List String} (keywords : ∀ word ∈ words, IsWord word.toList)
include keywords

theorem isQuiet_gap {blanks : Text} (gap : IsGap blanks) (rest : Text) :
    IsQuiet words rest blanks := by
  refine isQuiet_of_marks keywords fun c inside => ⟨?_, ?_⟩
  · exact isWordChar_of_isBlank (gap.blank c inside)
  · rintro rfl
    exact absurd (gap.blank '@' inside) (by decide)

/-- A keyword that is none of the words and the blanks behind it. -/
theorem isQuiet_keyword {word : String} {blanks : Text} (isWord : IsWord word.toList)
    (apart : ∀ other ∈ words, ¬other.toList <:+ word.toList) (gap : IsGap blanks)
    (rest : Text) : IsQuiet words rest (word.toList ++ blanks) := by
  refine IsQuiet.append ?_ (isQuiet_gap keywords gap rest)
  apply isQuiet_of_word keywords isWord apart
  intro c head
  rw [List.head?_append_of_ne_nil _ gap.nonempty] at head
  exact isWordChar_of_isBlank (gap.blank c (List.mem_of_head? head))

end

/-! Modifiers -/

/-- Modifiers with the blanks behind each of them. -/
inductive IsModifiers : Text → Prop where
  | nil : IsModifiers []
  | cons {word blanks rest} (member : word ∈ modifiers) (gap : IsGap blanks)
    (behind : IsModifiers rest) : IsModifiers (word.toList ++ blanks ++ rest)

theorem exists_skipModifiers (text : Text) :
    ∃ front, IsModifiers front ∧ text = front ++ skipModifiers text := by
  unfold skipModifiers
  fun_induction many (oneKeyword? modifiers) text with
  | case1 text refused => exact ⟨[], .nil, rfl⟩
  | case2 text word rest read shorter more last following ih =>
    rw [following] at ih
    obtain ⟨front, modified, same⟩ := ih
    obtain ⟨member, read⟩ := exists_of_oneKeyword? read
    obtain ⟨blanks, gap, rfl⟩ := exists_gap_of_keyword? read
    dsimp only at same ⊢
    refine ⟨word.toList ++ blanks ++ front, .cons member gap modified, ?_⟩
    rw [List.append_assoc, List.append_assoc, ← same]
  | case3 text word rest read longer => exact ⟨[], .nil, rfl⟩

namespace IsModifiers

variable {text other : Text}

theorem append (first : IsModifiers text) (second : IsModifiers other) :
    IsModifiers (text ++ other) := by
  induction first with
  | nil => exact second
  | cons member gap _ ih =>
    rw [List.append_assoc]
    exact .cons member gap ih

theorem isQuiet (modified : IsModifiers text) {words : List String}
    (keywords : ∀ word ∈ words, IsWord word.toList)
    (apart : ∀ modifier ∈ modifiers, ∀ word ∈ words, ¬word.toList <:+ modifier.toList)
    (rest : Text) : IsQuiet words rest text := by
  induction modified with
  | nil => trivial
  | cons member gap _ ih =>
    have isWord := isWord_of_mem_modifiers _ member
    exact (isQuiet_keyword keywords isWord (apart _ member) gap _).append ih

/-- Modifiers and the blanks behind them contain no marks. -/
theorem phrase (modified : IsModifiers text) :
    ∀ c ∈ text, isWordChar c = true ∨ isBlank c = true := by
  induction modified with
  | nil => simp
  | cons member gap _ ih =>
    refine List.forall_mem_append.mpr ⟨List.forall_mem_append.mpr ⟨fun c inside => ?_, ?_⟩, ih⟩
    · exact .inl ((isWord_of_mem_modifiers _ member).wordChars c inside)
    · exact fun c inside => .inr (gap.blank c inside)

end IsModifiers

end DeclBridge.Kotlin
