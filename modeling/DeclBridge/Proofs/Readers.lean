import DeclBridge.Proofs.PlainText
import DeclBridge.Text.Digit
import DeclBridge.Text.Reader

/-! What readers find: words, runs of one class, and the two sides of a mark. -/

namespace DeclBridge.Text

/-- A name as word readers find it. -/
structure IsWord (text : Text) : Prop where
  nonempty : text ≠ []
  wordChars : ∀ c ∈ text, isWordChar c = true

instance (text : Text) : Decidable (IsWord text) :=
  decidable_of_iff (text ≠ [] ∧ text.all isWordChar = true)
    ⟨fun ⟨nonempty, inside⟩ => ⟨nonempty, List.all_eq_true.mp inside⟩,
      fun word => ⟨word.nonempty, List.all_eq_true.mpr word.wordChars⟩⟩

private def blankPoints : List Nat :=
  [9, 10, 11, 12, 13, 28, 29, 30, 31, 32, 0x85, 0xa0, 0x1680, 0x2000, 0x2001, 0x2002, 0x2003,
    0x2004, 0x2005, 0x2006, 0x2007, 0x2008, 0x2009, 0x200a, 0x2028, 0x2029, 0x202f, 0x205f, 0x3000]

private theorem mem_blankPoints {c : Char} (blank : isBlank c = true) : c.toNat ∈ blankPoints := by
  simp only [isBlank, Bool.or_eq_true, Bool.and_eq_true, decide_eq_true_eq, beq_iff_eq] at blank
  generalize c.toNat = point at blank ⊢
  have span {start length : Nat} (known : List.range' start length ⊆ blankPoints)
      (low : start ≤ point) (high : point < start + length) : point ∈ blankPoints :=
    known (List.mem_range'_1.mpr ⟨low, high⟩)
  have controls : List.range' 9 5 ⊆ blankPoints := by decide
  have separators : List.range' 28 5 ⊆ blankPoints := by decide
  have spaces : List.range' 0x2000 11 ⊆ blankPoints := by decide
  rcases blank with ((((((((((within | within) | rfl) | rfl) | rfl) | within) | rfl) | rfl) | rfl) |
    rfl) | rfl)
  · exact span controls within.1 (by omega)
  · exact span separators within.1 (by omega)
  · decide
  · decide
  · decide
  · exact span spaces within.1 (by omega)
  all_goals decide

private theorem isBlank_of_apart {member : Char → Bool}
    (apart : ∀ point ∈ blankPoints, member (Char.ofNat point) = false) {c : Char}
    (inside : member c = true) : isBlank c = false := by
  cases blank : isBlank c with
  | false => rfl
  | true =>
    have outside := apart c.toNat (mem_blankPoints blank)
    rw [Char.ofNat_toNat, inside] at outside
    cases outside

/-- No character is blank and part of a word. -/
theorem isBlank_of_isWordChar {c : Char} (inside : isWordChar c = true) : isBlank c = false :=
  isBlank_of_apart (by decide +kernel) inside

theorem isWordChar_of_isBlank {c : Char} (blank : isBlank c = true) : isWordChar c = false := by
  by_contra wordChar
  rw [isBlank_of_isWordChar (eq_true_of_ne_false wordChar)] at blank
  cases blank

theorem isBlank_of_isDigit {c : Char} (inside : isDigit c = true) : isBlank c = false :=
  isBlank_of_apart (by decide +kernel) inside

theorem isBlank_of_isDottedChar {c : Char} (inside : isDottedChar c = true) :
    isBlank c = false := by
  rcases Bool.or_eq_true_iff.mp inside with word | point
  · exact isBlank_of_isWordChar word
  · rw [beq_iff_eq.mp point]
    rfl

theorem IsWord.isPlain {text : Text} (word : IsWord text) : IsPlain text :=
  isPlain_of_ink fun c inside => isBlank_of_isWordChar (word.wordChars c inside)

theorem IsWord.not_mem {text : Text} (word : IsWord text) {c : Char}
    (outside : isWordChar c = false) : c ∉ text := by
  intro inside
  rw [word.wordChars c inside] at outside
  cases outside

/-- A run ends where its class does. -/
theorem run?_append {member : Char → Bool} {found rest : Text} (nonempty : found ≠ [])
    (inside : ∀ c ∈ found, member c = true) (stops : ∀ c ∈ rest.head?, member c = false) :
    run? member (found ++ rest) = some (found, rest) := by
  refine run?_eq_some_iff.mpr ⟨nonempty, ?_, ?_⟩
  · rw [List.takeWhile_append_of_pos inside]
    cases rest with
    | nil => simp
    | cons c rest => simp [stops c rfl]
  · rw [List.dropWhile_append_of_pos inside]
    cases rest with
    | nil => rfl
    | cons c rest => simp [stops c rfl]

theorem literal?_append (expected : String) (rest : Text) :
    literal? expected (expected.toList ++ rest) = some rest :=
  behind?_eq_some_iff.mpr rfl

/-- Cutting at a mark that the first part does not contain. -/
theorem cut_append {mark : Char} {before : Text} (absent : mark ∉ before) (after : Text) :
    cut mark (before ++ mark :: after) = some (before, after) := by
  induction before with
  | nil => simp [cut]
  | cons c before ih =>
    rw [List.mem_cons, not_or] at absent
    simp [cut, Ne.symm absent.1, ih absent.2]

theorem cut_eq_none {mark : Char} {text : Text} (absent : mark ∉ text) : cut mark text = none := by
  induction text with
  | nil => rfl
  | cons c text ih =>
    rw [List.mem_cons, not_or] at absent
    simp [cut, Ne.symm absent.1, ih absent.2]

theorem of_cut_eq_some {mark : Char} {text before after : Text}
    (found : cut mark text = some (before, after)) :
    text = before ++ mark :: after ∧ mark ∉ before := by
  induction text generalizing before with
  | nil => cases found
  | cons c text ih =>
    by_cases same : c = mark
    · simp only [cut, if_pos same, Option.some.injEq, Prod.mk.injEq] at found
      obtain ⟨rfl, rfl⟩ := found
      simp [same]
    · simp only [cut, if_neg same, Option.map_eq_some_iff, Prod.exists, Prod.mk.injEq] at found
      obtain ⟨inner, last, found, rfl, rfl⟩ := found
      obtain ⟨rfl, absent⟩ := ih found
      simp [Ne.symm same, absent]

theorem not_mem_of_cut_eq_none {mark : Char} {text : Text} (found : cut mark text = none) :
    mark ∉ text := by
  intro inside
  obtain ⟨before, after, rfl, absent⟩ := List.eq_append_cons_of_mem inside
  rw [cut_append absent] at found
  cases found

theorem mark?_eq (expected : Char) (text : Text) :
    mark? expected text = behind? [expected] (skipBlanks text) := by
  rw [mark?]
  cases skipBlanks text with
  | nil => rfl
  | cons c rest => simp [behind?, eq_comm]

theorem afterLast_append {mark : Char} {text : Text} (absent : mark ∉ text) (front : Text) :
    afterLast mark (front ++ text) = afterLast mark front ++ text := by
  have others : ∀ c ∈ text.reverse, decide (c ≠ mark) = true := by
    intro c inside
    refine decide_eq_true fun same => absent ?_
    exact same ▸ List.mem_reverse.mp inside
  rw [afterLast, List.reverse_append, List.takeWhile_append_of_pos others, List.reverse_append,
    List.reverse_reverse, afterLast]

theorem afterLast_of_not_mem {mark : Char} {text : Text} (absent : mark ∉ text) :
    afterLast mark text = text :=
  afterLast_append absent []

theorem afterLast_append_cons {mark : Char} {text : Text} (absent : mark ∉ text) (front : Text) :
    afterLast mark (front ++ mark :: text) = text := by
  have behind : afterLast mark (front ++ [mark]) = [] := by simp [afterLast]
  rw [List.append_cons, afterLast_append absent, behind, List.nil_append]

theorem afterLast_subset (mark : Char) (text : Text) : afterLast mark text ⊆ text := by
  intro c inside
  exact List.mem_reverse.mp ((List.takeWhile_prefix _).subset (List.mem_reverse.mp inside))

theorem exists_last_of_mem {mark : Char} {text : Text} (inside : mark ∈ text) :
    ∃ front tail, text = front ++ mark :: tail ∧ mark ∉ tail := by
  obtain ⟨behind, front, backwards, absent⟩ :=
    List.eq_append_cons_of_mem (List.mem_reverse.mpr inside)
  refine ⟨front.reverse, behind.reverse, ?_, mt List.mem_reverse.mp absent⟩
  rw [← List.reverse_reverse text, backwards]
  simp

/-! Keywords -/

theorem exists_of_keyword? {word : String} {text rest : Text}
    (read : keyword? word text = some rest) :
    ∃ behind, text = word.toList ++ behind ∧ ∃ c ∈ behind.head?, isBlank c = true := by
  obtain ⟨behind, start, gap⟩ := Option.bind_eq_some_iff.mp read
  obtain ⟨⟨blanks, last⟩, run, -⟩ := Option.map_eq_some_iff.mp gap
  obtain ⟨nonempty, rfl, -⟩ := run?_eq_some_iff.mp run
  refine ⟨behind, behind?_eq_some_iff.mp start, ?_⟩
  cases behind with
  | nil => exact absurd rfl nonempty
  | cons c behind =>
    refine ⟨c, rfl, ?_⟩
    by_contra ink
    exact nonempty (List.takeWhile_cons_of_neg ink)

/-- A keyword that begins within a text does not reach over a place where words end. -/
theorem exists_of_keyword?_append {word : String} {text rest found : Text}
    (read : keyword? word (text ++ rest) = some found)
    (wordChars : ∀ c ∈ word.toList, isWordChar c = true)
    (ends : ∀ c ∈ rest.head?, isWordChar c = false) :
    ∃ more, text = word.toList ++ more ∧ ∃ c ∈ (more ++ rest).head?, isBlank c = true := by
  obtain ⟨behind, same, blank⟩ := exists_of_keyword? read
  rcases List.append_eq_append_iff.mp same with ⟨more, front, back⟩ | ⟨more, front, rfl⟩
  · cases more with
    | nil => exact ⟨[], by simpa using front.symm, by simpa [back] using blank⟩
    | cons c more =>
      have inside := wordChars c (by simp [front])
      rw [ends c (by simp [back])] at inside
      cases inside
  · exact ⟨more, front, blank⟩

theorem keyword?_append {word : String} {text : Text} (ink : ∀ c ∈ text.head?, isBlank c = false) :
    keyword? word (word.toList ++ ' ' :: text) = some text := by
  have stops : run? isBlank ([' '] ++ text) = some ([' '], text) :=
    run?_append (by simp) (by decide) ink
  rw [List.singleton_append] at stops
  simp [keyword?, literal?_append, gap?, stops]

theorem oneKeyword?_eq_none {words : List String} {text : Text}
    (refused : ∀ word ∈ words, keyword? word text = none) : oneKeyword? words text = none := by
  refine List.findSome?_eq_none_iff.mpr fun word member => ?_
  rw [refused word member, Option.map_none]

/-- A name does not go on over a mark. -/
theorem outside_head {mark : Char} (outside : isWordChar mark = false) (rest : Text) :
    ∀ c ∈ (mark :: rest).head?, isWordChar c = false := by
  rintro _ ⟨⟩
  exact outside

theorem many_of_refused {read : Text → Option (α × Text)} {text : Text}
    (refused : read text = none) : many read text = ([], text) := by
  rw [many, refused]

/-! Parts between marks -/

theorem commaSpaced_singleton (part : Text) : commaSpaced [part] = part :=
  List.intercalate_singleton

theorem commaSpaced_cons_cons (first next : Text) (others : List Text) :
    commaSpaced (first :: next :: others) = first ++ [',', ' '] ++ commaSpaced (next :: others) :=
  List.intercalate_cons_cons

theorem mem_intercalate {mark : Text} {parts : List Text} {c : Char}
    (inside : c ∈ mark.intercalate parts) : c ∈ mark ∨ ∃ part ∈ parts, c ∈ part := by
  induction parts with
  | nil => cases inside
  | cons part parts ih =>
    cases parts with
    | nil => exact .inr ⟨part, by simp, by simpa using inside⟩
    | cons next more =>
      rw [List.intercalate_cons_cons, List.mem_append, List.mem_append] at inside
      rcases inside with (inside | inside) | inside
      · exact .inr ⟨part, by simp, inside⟩
      · exact .inl inside
      · rcases ih inside with inside | ⟨other, member, inside⟩
        · exact .inl inside
        · exact .inr ⟨other, List.mem_cons_of_mem _ member, inside⟩

theorem subset_intercalate {mark : Text} {parts : List Text} {part : Text} (member : part ∈ parts) :
    part ⊆ mark.intercalate parts := by
  induction parts with
  | nil => cases member
  | cons first parts ih =>
    intro c inside
    cases parts with
    | nil => simpa [List.mem_singleton.mp member] using inside
    | cons next more =>
      rw [List.intercalate_cons_cons, List.mem_append, List.mem_append]
      rcases List.mem_cons.mp member with rfl | member
      · exact .inl (.inl inside)
      · exact .inr (ih member inside)

/-- What stands between marks is free of them. -/
theorem eq_false_of_mem_splitOnP {mark : Char → Bool} {text part : Text}
    (found : part ∈ text.splitOnP mark) {c : Char} (inside : c ∈ part) : mark c = false := by
  induction text generalizing part with
  | nil => simp_all [List.splitOnP_nil]
  | cons d text ih =>
    rw [List.splitOnP_cons_eq_if_modifyHead] at found
    split at found
    · rcases List.mem_cons.mp found with rfl | found
      · cases inside
      · exact ih found inside
    · next differs =>
      cases parts : text.splitOnP mark with
      | nil => simp [parts] at found
      | cons first others =>
        rw [parts] at found ih
        rcases List.mem_cons.mp found with rfl | found
        · rcases List.mem_cons.mp inside with rfl | inside
          · simpa using differs
          · exact ih List.mem_cons_self inside
        · exact ih (List.mem_cons_of_mem _ found) inside

theorem exists_mem_splitOnP {mark : Char → Bool} {text : Text} {c : Char}
    (apart : mark c = false) (inside : c ∈ text) : ∃ part ∈ text.splitOnP mark, c ∈ part := by
  induction text with
  | nil => cases inside
  | cons d text ih =>
    rw [List.splitOnP_cons_eq_if_modifyHead]
    split
    · next separates =>
      rcases List.mem_cons.mp inside with rfl | inside
      · simp [apart] at separates
      · obtain ⟨part, member, within⟩ := ih inside
        exact ⟨part, List.mem_cons_of_mem _ member, within⟩
    · cases parts : text.splitOnP mark with
      | nil => exact absurd parts (List.splitOnP_ne_nil _ _)
      | cons first others =>
        rcases List.mem_cons.mp inside with rfl | inside
        · exact ⟨c :: first, by simp, by simp⟩
        · obtain ⟨part, member, within⟩ := ih inside
          rw [parts] at member
          rcases List.mem_cons.mp member with rfl | member
          · exact ⟨d :: part, by simp, List.mem_cons_of_mem d within⟩
          · exact ⟨part, by simp [member], within⟩

theorem not_mem_of_mem_splitOn {mark : Char} {text part : Text} (found : part ∈ text.splitOn mark) :
    mark ∉ part := by
  intro inside
  rw [List.splitOn_eq_splitOnP] at found
  have outside := eq_false_of_mem_splitOnP found inside
  simp at outside

/-! What searching answers with -/

theorem isWord_of_word? {text found rest : Text} (read : word? text = some (found, rest)) :
    IsWord found := by
  obtain ⟨nonempty, rfl, -⟩ := run?_eq_some_iff.mp read
  exact ⟨nonempty, fun c inside => List.mem_takeWhile_imp inside⟩

theorem isDottedChar_of_dotted? {text found rest : Text}
    (read : dotted? text = some (found, rest)) :
    found ≠ [] ∧ ∀ c ∈ found, isDottedChar c = true := by
  obtain ⟨nonempty, rfl, -⟩ := run?_eq_some_iff.mp read
  exact ⟨nonempty, fun c inside => List.mem_takeWhile_imp inside⟩

theorem exists_of_oneKeyword? {words : List String} {text rest : Text} {word : String}
    (read : oneKeyword? words text = some (word, rest)) :
    word ∈ words ∧ keyword? word text = some rest := by
  obtain ⟨other, member, read⟩ := List.exists_of_findSome?_eq_some read
  obtain ⟨_, found, same⟩ := Option.map_eq_some_iff.mp read
  cases same
  exact ⟨member, found⟩

theorem exists_of_mem_many {read : Text → Option (α × Text)} {text : Text} {item : α}
    (found : item ∈ (many read text).1) : ∃ place rest, read place = some (item, rest) := by
  fun_induction many read text with
  | case1 text none => cases found
  | case2 text first rest read shorter more last following ih =>
    rw [following] at ih
    rcases List.mem_cons.mp found with rfl | found
    · exact ⟨text, rest, read⟩
    · exact ih found
  | case3 text first rest some longer => cases found

theorem exists_of_firstMatch? {read : Text → Option (α × Text)} {text : Text} {item : α}
    (found : firstMatch? read text = some item) : ∃ place rest, read place = some (item, rest) := by
  fun_induction firstMatch? read text with
  | case1 => cases found
  | case2 c text first rest read => exact ⟨c :: text, rest, by simp_all⟩
  | case3 c text none ih => exact ih found

theorem exists_of_mem_occurrencesFrom {read : Lookbehind α} {offset : Nat} {before : Option Char}
    {text : Text} {place : Occurrence α}
    (found : place ∈ occurrencesFrom read offset before text) :
    ∃ before text, read before text = some (place.found, place.rest) := by
  fun_induction occurrencesFrom read offset before text with
  | case1 => cases found
  | case2 offset before c text none ih => exact ih found
  | case3 offset before c text first rest read bound used ih =>
    rcases List.mem_cons.mp found with rfl | found
    · exact ⟨before, c :: text, read⟩
    · exact ih found
  | case4 offset before c text first rest read longer ih => exact ih found

theorem exists_of_mem_occurrences {read : Lookbehind α} {text : Text} {place : Occurrence α}
    (found : place ∈ occurrences read text) :
    ∃ before text, read before text = some (place.found, place.rest) :=
  exists_of_mem_occurrencesFrom found

end DeclBridge.Text
