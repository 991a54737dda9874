import DeclBridge.Text.Basic
import Mathlib.Data.List.DropRight

/-! Texts that a format of trimmed lines can hold: on one line and without blanks around them. -/

namespace DeclBridge.Text

-- Looking at the characters of the text only, not at all there are.
instance decidableForallMem (text : Text) (p : Char → Prop) [DecidablePred p] :
    Decidable (∀ c ∈ text, p c) :=
  List.decidableBAll p text

def IsSingleLine (text : Text) : Prop :=
  ∀ c ∈ text, isLineBreak c = false

/-- Trimming leaves the text alone. -/
def IsTrimmed (text : Text) : Prop :=
  trim text = text

/-- Blanks may come first but not last. -/
def IsTrimmedEnd (text : Text) : Prop :=
  trimEnd text = text

structure IsPlain (text : Text) : Prop where
  singleLine : IsSingleLine text
  trimmed : IsTrimmed text

instance (text : Text) : Decidable (IsSingleLine text) :=
  inferInstanceAs (Decidable (∀ c ∈ text, isLineBreak c = false))

instance (text : Text) : Decidable (IsTrimmed text) :=
  inferInstanceAs (Decidable (trim text = text))

instance (text : Text) : Decidable (IsTrimmedEnd text) :=
  inferInstanceAs (Decidable (trimEnd text = text))

instance (text : Text) : Decidable (IsPlain text) :=
  decidable_of_iff (IsSingleLine text ∧ IsTrimmed text)
    ⟨fun ⟨single, trimmed⟩ => ⟨single, trimmed⟩, fun plain => ⟨plain.singleLine, plain.trimmed⟩⟩

/-! Single lines -/

theorem IsSingleLine.of_subset {text whole : Text} (single : IsSingleLine whole)
    (subset : text ⊆ whole) : IsSingleLine text :=
  fun c inside => single c (subset inside)

@[simp]
theorem isSingleLine_nil : IsSingleLine [] := by
  simp [IsSingleLine]

@[simp]
theorem isSingleLine_cons {c : Char} {text : Text} :
    IsSingleLine (c :: text) ↔ isLineBreak c = false ∧ IsSingleLine text := by
  simp [IsSingleLine]

@[simp]
theorem isSingleLine_append {first second : Text} :
    IsSingleLine (first ++ second) ↔ IsSingleLine first ∧ IsSingleLine second := by
  simp [IsSingleLine, or_imp, forall_and]

/-! Blanks at either end -/

theorem trimEnd_eq_rdropWhile (text : Text) : trimEnd text = text.rdropWhile isBlank := rfl

theorem skipBlanks_eq_self_iff {text : Text} :
    skipBlanks text = text ↔ ∀ c ∈ text.head?, isBlank c = false := by
  rw [skipBlanks, List.dropWhile_eq_self_iff]
  cases text <;> simp

theorem isTrimmedEnd_iff {text : Text} :
    IsTrimmedEnd text ↔ ∀ c ∈ text.getLast?, isBlank c = false := by
  rw [IsTrimmedEnd, trimEnd_eq_rdropWhile, List.rdropWhile_eq_self_iff]
  cases text <;> simp [List.getLast?_eq_some_getLast]

theorem isTrimmed_iff {text : Text} :
    IsTrimmed text ↔
      (∀ c ∈ text.head?, isBlank c = false) ∧ ∀ c ∈ text.getLast?, isBlank c = false := by
  rw [← skipBlanks_eq_self_iff, ← isTrimmedEnd_iff]
  constructor
  · intro trimmed
    have front : skipBlanks text = text := by
      have inner := (List.rdropWhile_prefix isBlank (skipBlanks text)).length_le
      have outer := List.dropWhile_sublist isBlank (l := text)
      rw [show (skipBlanks text).rdropWhile isBlank = text from trimmed] at inner
      exact outer.eq_of_length_le inner
    refine ⟨front, ?_⟩
    rwa [IsTrimmed, trim, front] at trimmed
  · rintro ⟨front, back⟩
    rwa [IsTrimmed, trim, front]

theorem IsTrimmed.trimmedEnd {text : Text} (trimmed : IsTrimmed text) : IsTrimmedEnd text :=
  isTrimmedEnd_iff.mpr (isTrimmed_iff.mp trimmed).2

theorem IsTrimmed.head_ink {text : Text} (trimmed : IsTrimmed text) {c : Char}
    (head : text.head? = some c) : isBlank c = false :=
  (isTrimmed_iff.mp trimmed).1 c head

/-- A text whose first character is no blank only needs trimming at its end. -/
theorem IsTrimmedEnd.isTrimmed {text : Text} (back : IsTrimmedEnd text)
    (front : ∀ c ∈ text.head?, isBlank c = false) : IsTrimmed text :=
  isTrimmed_iff.mpr ⟨front, isTrimmedEnd_iff.mp back⟩

theorem IsTrimmedEnd.append_left {text : Text} (back : IsTrimmedEnd text) (nonempty : text ≠ [])
    (front : Text) : IsTrimmedEnd (front ++ text) := by
  rw [isTrimmedEnd_iff] at *
  intro c last
  rw [List.getLast?_append_of_ne_nil _ nonempty] at last
  exact back c last

theorem trimEnd_append_cons {c : Char} (ink : isBlank c = false) (front rest : Text) :
    trimEnd (front ++ c :: rest) = front ++ c :: trimEnd rest := by
  induction rest using List.reverseRecOn with
  | nil =>
    rw [trimEnd_eq_rdropWhile, List.rdropWhile_concat_neg _ _ _ (by simp [ink])]
    rfl
  | append_singleton rest last ih =>
    rw [trimEnd_eq_rdropWhile] at ih ⊢
    rw [trimEnd_eq_rdropWhile, ← List.cons_append, ← List.append_assoc, List.rdropWhile_concat,
      List.rdropWhile_concat, ih]
    split <;> simp [trimEnd_eq_rdropWhile]

theorem trimEnd_append_blanks {text blanks : Text} (trimmed : IsTrimmedEnd text)
    (blank : ∀ c ∈ blanks, isBlank c = true) : trimEnd (text ++ blanks) = text := by
  induction blanks using List.reverseRecOn with
  | nil => rw [List.append_nil, trimmed]
  | append_singleton blanks c ih =>
    obtain ⟨blank, last⟩ := List.forall_mem_append.mp blank
    rw [← List.append_assoc, trimEnd_eq_rdropWhile,
      List.rdropWhile_concat_pos _ _ _ (last c (List.mem_singleton_self c))]
    exact ih blank

/-- Trimming takes away the blanks around a text, and no more. -/
theorem IsTrimmed.trim_padded {before text after : Text} (trimmed : IsTrimmed text)
    (leading : ∀ c ∈ before, isBlank c = true) (trailing : ∀ c ∈ after, isBlank c = true) :
    trim (before ++ text ++ after) = text := by
  have front : skipBlanks (before ++ (text ++ after)) = skipBlanks (text ++ after) :=
    List.dropWhile_append_of_pos leading
  rw [trim, List.append_assoc, front]
  cases text with
  | nil =>
    have empty : skipBlanks after = [] := List.dropWhile_eq_nil_iff.mpr trailing
    rw [List.nil_append, empty]
    rfl
  | cons c text =>
    have ink : ∀ d ∈ (c :: text ++ after).head?, isBlank d = false := (isTrimmed_iff.mp trimmed).1
    rw [skipBlanks_eq_self_iff.mpr ink, trimEnd_append_blanks trimmed.trimmedEnd trailing]

/-- Trimming stops on both sides of what is no blank. -/
theorem trim_append_cons {c : Char} (ink : isBlank c = false) (front rest : Text) :
    trim (front ++ c :: rest) = skipBlanks front ++ c :: trimEnd rest := by
  rw [trim, ← trimEnd_append_cons ink]
  congr 1
  rw [skipBlanks, List.dropWhile_append]
  split
  · next blank =>
    rw [skipBlanks, List.isEmpty_iff.mp blank, List.dropWhile_cons_of_neg (by simp [ink]),
      List.nil_append]
  · rfl

theorem IsTrimmed.append {first second : Text} (front : IsTrimmed first)
    (back : IsTrimmed second) : IsTrimmed (first ++ second) := by
  cases first with
  | nil => exact back
  | cons c rest =>
    have ink : ∀ d ∈ (c :: rest ++ second).head?, isBlank d = false := (isTrimmed_iff.mp front).1
    cases second with
    | nil => rwa [List.append_nil]
    | cons d more => exact (back.trimmedEnd.append_left (by simp) (c :: rest)).isTrimmed ink

theorem isTrimmed_of_ink {text : Text} (ink : ∀ c ∈ text, isBlank c = false) : IsTrimmed text :=
  isTrimmed_iff.mpr ⟨fun c head => ink c (List.mem_of_head? head),
    fun c last => ink c (List.mem_of_getLast? last)⟩

/-- What trimming takes away is blank. -/
theorem exists_trim (text : Text) : ∃ front back, text = front ++ trim text ++ back ∧
    (∀ c ∈ front, isBlank c = true) ∧ ∀ c ∈ back, isBlank c = true := by
  refine ⟨text.takeWhile isBlank, (skipBlanks text).rtakeWhile isBlank, ?_, ?_, ?_⟩
  · rw [trim, trimEnd_eq_rdropWhile, List.append_assoc, List.rdropWhile_append_rtakeWhile,
      skipBlanks, List.takeWhile_append_dropWhile]
  · exact fun c inside => List.mem_takeWhile_imp inside
  · exact fun c inside => List.mem_rtakeWhile_imp inside

theorem trim_subset (text : Text) : trim text ⊆ text := by
  obtain ⟨front, back, whole, -, -⟩ := exists_trim text
  intro c inside
  rw [whole]
  simp [inside]

theorem mem_trimEnd {text : Text} {c : Char} (ink : isBlank c = false) (inside : c ∈ text) :
    c ∈ trimEnd text := by
  obtain ⟨front, behind, rfl⟩ := List.append_of_mem inside
  rw [trimEnd_append_cons ink]
  simp

theorem mem_trim {text : Text} {c : Char} (ink : isBlank c = false) (inside : c ∈ text) :
    c ∈ trim text := by
  obtain ⟨front, back, whole, frontBlank, backBlank⟩ := exists_trim text
  rw [whole, List.mem_append, List.mem_append] at inside
  rcases inside with (front | inside) | back
  · simp [frontBlank c front] at ink
  · exact inside
  · simp [backBlank c back] at ink

/-- Nothing is left to trim in a trimmed text. -/
theorem isTrimmed_trim (text : Text) : IsTrimmed (trim text) := by
  have back : IsTrimmedEnd (trim text) := List.rdropWhile_idempotent isBlank (skipBlanks text)
  apply back.isTrimmed
  intro c head
  have first : c ∈ (skipBlanks text).head? := by
    obtain ⟨tail, whole⟩ := List.rdropWhile_prefix isBlank (skipBlanks text)
    change trim text ++ tail = skipBlanks text at whole
    rw [← whole, List.head?_append, Option.mem_def.mp head]
    rfl
  have front : skipBlanks (skipBlanks text) = skipBlanks text :=
    List.dropWhile_idempotent isBlank text
  exact skipBlanks_eq_self_iff.mp front c first

theorem IsSingleLine.trim {text : Text} (single : IsSingleLine text) : IsSingleLine (trim text) :=
  single.of_subset (trim_subset text)

theorem IsTrimmed.isBlankText_eq_false {text : Text} (trimmed : IsTrimmed text)
    (nonempty : text ≠ []) : isBlankText text = false := by
  obtain ⟨c, rest, rfl⟩ := List.exists_cons_of_ne_nil nonempty
  exact List.all_eq_false.mpr ⟨c, by simp, by simp [trimmed.head_ink rfl]⟩

theorem trim_ne_nil {text : Text} (inked : isBlankText text = false) : trim text ≠ [] := by
  intro empty
  obtain ⟨front, back, whole, frontBlank, backBlank⟩ := exists_trim text
  rw [empty, List.append_nil] at whole
  obtain ⟨c, inside, ink⟩ := List.all_eq_false.mp inked
  rw [whole] at inside
  rcases List.mem_append.mp inside with inside | inside
  · exact ink (frontBlank c inside)
  · exact ink (backBlank c inside)

/-! Plain texts -/

theorem isLineBreak_of_ink {c : Char} (ink : isBlank c = false) : isLineBreak c = false := by
  cases breaks : isLineBreak c with
  | false => rfl
  | true => exact absurd (isBlank_of_isLineBreak breaks) (by simp [ink])

theorem isPlain_of_ink {text : Text} (ink : ∀ c ∈ text, isBlank c = false) : IsPlain text :=
  ⟨fun c inside => isLineBreak_of_ink (ink c inside), isTrimmed_of_ink ink⟩

theorem isPlain_nil : IsPlain [] :=
  isPlain_of_ink (by simp)

theorem isPlain_singleton {c : Char} (ink : isBlank c = false) : IsPlain [c] :=
  isPlain_of_ink (by simpa using ink)

theorem IsPlain.append {first second : Text} (front : IsPlain first) (back : IsPlain second) :
    IsPlain (first ++ second) :=
  ⟨isSingleLine_append.mpr ⟨front.singleLine, back.singleLine⟩, front.trimmed.append back.trimmed⟩

theorem IsPlain.cons {c : Char} {text : Text} (ink : isBlank c = false) (plain : IsPlain text) :
    IsPlain (c :: text) :=
  (isPlain_singleton ink).append plain

/-- Behind a character that is no blank a text may start with blanks. -/
theorem isPlain_cons_of_trimmedEnd {c : Char} {text : Text} (ink : isBlank c = false)
    (single : IsSingleLine text) (back : IsTrimmedEnd text) : IsPlain (c :: text) := by
  refine ⟨isSingleLine_cons.mpr ⟨isLineBreak_of_ink ink, single⟩, ?_⟩
  cases text with
  | nil => exact (isPlain_singleton ink).trimmed
  | cons d more => exact (back.append_left (by simp) [c]).isTrimmed (by simpa using ink)

/-- What holds of two texts one after the other holds of any number with a mark between them. -/
theorem intercalate_induction {motive : Text → Prop} {mark : Text} {parts : List Text}
    (nil : motive [])
    (append : ∀ {first second}, motive first → motive second → motive (first ++ second))
    (between : motive mark) (each : ∀ part ∈ parts, motive part) :
    motive (mark.intercalate parts) := by
  induction parts with
  | nil => exact nil
  | cons part parts ih =>
    obtain ⟨first, others⟩ := List.forall_mem_cons.mp each
    cases parts with
    | nil => simpa using first
    | cons next more =>
      rw [List.intercalate_cons_cons]
      exact append (append first between) (ih others)

theorem isPlain_intercalate {mark : Text} {parts : List Text} (markPlain : IsPlain mark)
    (plain : ∀ part ∈ parts, IsPlain part) : IsPlain (mark.intercalate parts) :=
  intercalate_induction isPlain_nil .append markPlain plain

theorem isTrimmed_intercalate {mark : Text} {parts : List Text} (markTrimmed : IsTrimmed mark)
    (trimmed : ∀ part ∈ parts, IsTrimmed part) : IsTrimmed (mark.intercalate parts) :=
  intercalate_induction isPlain_nil.trimmed .append markTrimmed trimmed

end DeclBridge.Text
