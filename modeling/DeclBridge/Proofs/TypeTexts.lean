import DeclBridge.Kotlin.TypeText
import DeclBridge.Proofs.Readers

/-! Types are taken over on one line: collapsing leaves a plain text, and a blank one only of a
blank text. What the type reader accepts is never blank. -/

namespace DeclBridge.Text

theorem of_mem_words {text word : Text} (found : word ∈ words text) :
    word ≠ [] ∧ ∀ c ∈ word, isBlank c = false := by
  obtain ⟨part, nonempty⟩ := List.mem_filter.mp found
  exact ⟨by simpa using nonempty, fun c inside => eq_false_of_mem_splitOnP part inside⟩

private theorem isPlain_spaced {parts : List Text}
    (inked : ∀ part ∈ parts, part ≠ [] ∧ ∀ c ∈ part, isBlank c = false) :
    IsPlain ([' '].intercalate parts) ∧ (parts ≠ [] → [' '].intercalate parts ≠ []) := by
  induction parts with
  | nil => exact ⟨isPlain_nil, by simp⟩
  | cons part parts ih =>
    obtain ⟨⟨nonempty, ink⟩, others⟩ := List.forall_mem_cons.mp inked
    have first := isPlain_of_ink ink
    cases parts with
    | nil => simpa using ⟨first, nonempty⟩
    | cons next more =>
      obtain ⟨rest, filled⟩ := ih others
      have spaced : IsTrimmedEnd (part ++ [' '] ++ [' '].intercalate (next :: more)) :=
        rest.trimmed.trimmedEnd.append_left (filled (by simp)) _
      rw [List.intercalate_cons_cons]
      refine ⟨⟨?_, spaced.isTrimmed fun c head => ?_⟩, fun _ => by simp⟩
      · simp only [isSingleLine_append]
        exact ⟨⟨first.singleLine, by decide⟩, rest.singleLine⟩
      · refine ink c (List.mem_of_head? ?_)
        cases part with
        | nil => exact absurd rfl nonempty
        | cons d part => exact head

theorem isPlain_collapse (text : Text) : IsPlain (collapse text) :=
  (isPlain_spaced fun _ => of_mem_words).1

theorem words_ne_nil {text : Text} (inked : isBlankText text = false) : words text ≠ [] := by
  induction text with
  | nil => cases inked
  | cons c text ih =>
    rw [words, List.splitOnP_cons_eq_if_modifyHead]
    split
    · next blank =>
      have rest : isBlankText text = false := by simpa [isBlankText, blank] using inked
      simpa [words] using ih rest
    · cases parts : text.splitOnP isBlank with
      | nil => exact absurd parts (List.splitOnP_ne_nil _ _)
      | cons first others => simp

theorem collapse_ne_nil {text : Text} (inked : isBlankText text = false) : collapse text ≠ [] :=
  (isPlain_spaced fun _ => of_mem_words).2 (words_ne_nil inked)

/-- Collapsing a text drops nothing that can be seen. -/
theorem mem_collapse {text : Text} {c : Char} (ink : isBlank c = false) (inside : c ∈ text) :
    c ∈ collapse text := by
  obtain ⟨part, member, within⟩ := exists_mem_splitOnP ink inside
  have word : part ∈ words text :=
    List.mem_filter.mpr ⟨member, by simpa using List.ne_nil_of_mem within⟩
  exact subset_intercalate word within

end DeclBridge.Text

namespace DeclBridge.Kotlin

open Text

theorem isPlain_splitNullMark {type : Text} (plain : IsPlain type) :
    IsPlain (splitNullMark type).1 := by
  unfold splitNullMark
  split
  · refine ⟨?_, isTrimmed_trim _⟩
    exact (plain.singleLine.of_subset (List.dropLast_subset type)).trim
  · exact plain

theorem splitNullMark_unmarked {type : Text} (single : (splitNullMark type).2 = false) :
    (splitNullMark type).1.getLast? ≠ some '?' := by
  unfold splitNullMark at *
  split at single
  · cases single
  · next unmarked => simp [unmarked]

theorem mem_splitNullMark {type : Text} {c : Char} (ink : isBlank c = false) (differs : c ≠ '?')
    (inside : c ∈ type) : c ∈ (splitNullMark type).1 := by
  unfold splitNullMark
  split
  · next marked =>
    refine mem_trim ink ?_
    obtain ⟨front, rfl⟩ := List.getLast?_eq_some_iff.mp marked
    simpa [differs] using inside
  · exact inside

theorem length_skipNullMark_le (text : Text) : (skipNullMark text).length ≤ text.length := by
  unfold skipNullMark
  split <;> simp

private theorem exists_of_afterNamedType? {text rest : Text}
    (read : afterNamedType? text = some rest) :
    ∃ c more, text = c :: more ∧ isBlank c = false ∧ rest.length ≤ more.length := by
  obtain ⟨⟨name, behind⟩, named, read⟩ := Option.bind_eq_some_iff.mp read
  have bound : rest.length ≤ behind.length := by
    split at read
    · next arguments same =>
      obtain ⟨⟨inner, after⟩, closed, last⟩ := Option.bind_eq_some_iff.mp read
      cases same
      cases last
      have inside := Bracket.length_inside closed
      have skipped := length_skipNullMark_le after
      simp only [List.length_cons]
      omega
    · next same =>
      cases same
      cases read
      exact length_skipNullMark_le _
  obtain ⟨nonempty, front, -⟩ := run?_eq_some_iff.mp named
  obtain ⟨whole, shorter⟩ := length_run? named
  obtain ⟨c, more, rfl⟩ : ∃ c more, text = c :: more := by
    cases text with
    | nil => exact absurd front.symm nonempty
    | cons c more => exact ⟨c, more, rfl⟩
  have first : isDottedChar c = true := by
    by_contra outside
    rw [List.takeWhile_cons_of_neg outside] at front
    exact nonempty front.symm
  rw [List.length_cons] at shorter
  exact ⟨c, more, rfl, isBlank_of_isDottedChar first, by omega⟩

/-- A type starts with a character that is no blank, and goes beyond it. -/
theorem exists_of_afterType? {text rest : Text} (read : afterType? text = some rest) :
    ∃ c more, text = c :: more ∧ isBlank c = false ∧ rest.length ≤ more.length := by
  fun_induction afterType? text generalizing rest with
  | case1 => cases read
  | case2 parameters inner after closed unarrowed =>
    cases read
    have inside := Bracket.length_inside closed
    have skipped := length_skipNullMark_le after
    exact ⟨'(', parameters, rfl, rfl, by omega⟩
  | case3 parameters inner after closed result arrow ih =>
    cases read
    have inside := Bracket.length_inside closed
    have outer := length_afterArrow? arrow
    have skipped := length_skipNullMark_le ((afterType? result).getD result)
    have further : ((afterType? result).getD result).length ≤ result.length := by
      cases found : afterType? result with
      | none => simp
      | some last =>
        obtain ⟨c, more, rfl, -, bound⟩ := ih found
        simp only [Option.getD_some, List.length_cons]
        omega
    exact ⟨'(', parameters, rfl, rfl, by omega⟩
  | case4 text _ => exact exists_of_afterNamedType? read

theorem isBlankText_readType? {text type rest : Text} (read : readType? text = some (type, rest)) :
    isBlankText type = false := by
  obtain ⟨after, found, same⟩ := Option.map_eq_some_iff.mp read
  cases same
  obtain ⟨c, more, whole, ink, bound⟩ := exists_of_afterType? found
  rw [whole, List.length_cons, Nat.succ_sub bound, List.take_succ_cons]
  exact List.all_eq_false.mpr ⟨c, by simp, by simp [ink]⟩

end DeclBridge.Kotlin
