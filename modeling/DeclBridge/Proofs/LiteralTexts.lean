import DeclBridge.Kotlin.Comment
import DeclBridge.Proofs.Readers

/-! Literals as they stand in a text: quoted on one line, or bare, which is without blanks, quotes
and brackets. Readers that replace parts of a text find the quoted ones and nothing else. -/

namespace DeclBridge.Kotlin

open Text

/-! Quoted literals -/

/-- What can stand between two quotes on one line. -/
inductive IsQuoted : Text → Prop where
  | nil : IsQuoted []
  | escaped {c : Char} {rest : Text} (single : c ≠ '\n') (behind : IsQuoted rest) :
    IsQuoted ('\\' :: c :: rest)
  | plain {c : Char} {rest : Text} (unquoted : c ≠ '"') (unescaping : c ≠ '\\') (single : c ≠ '\n')
    (behind : IsQuoted rest) : IsQuoted (c :: rest)

theorem exists_of_isStringBody {text : Text} (single : '\n' ∉ text)
    (body : isStringBody text = true) : ∃ inner, text = inner ++ ['"'] ∧ IsQuoted inner := by
  fun_induction isStringBody text with
  | case1 => cases body
  | case2 => exact ⟨[], rfl, .nil⟩
  | case3 => cases body
  | case4 c rest ih =>
    rw [List.mem_cons, List.mem_cons, not_or, not_or] at single
    rw [Bool.and_eq_true] at body
    obtain ⟨inner, rfl, quoted⟩ := ih single.2.2 body.2
    exact ⟨'\\' :: c :: inner, rfl, .escaped (Ne.symm single.2.1) quoted⟩
  | case5 c rest unclosed lone unescaping ih =>
    rw [List.mem_cons, not_or] at single
    rw [Bool.and_eq_true, decide_eq_true_eq] at body
    obtain ⟨inner, rfl, quoted⟩ := ih single.2 body.2
    refine ⟨c :: inner, rfl, .plain body.1 ?_ (Ne.symm single.1) quoted⟩
    rintro rfl
    cases inner with
    | nil => exact unescaping '"' [] rfl rfl
    | cons d inner => exact unescaping d (inner ++ ['"']) rfl rfl

theorem afterQuoted?_append {inner : Text} (quoted : IsQuoted inner) (rest : Text) :
    afterQuoted? '"' (inner ++ '"' :: rest) = some rest := by
  induction quoted with
  | nil => simp [afterQuoted?]
  | escaped single _ ih => simp [afterQuoted?, single, ih]
  | @plain c more unquoted unescaping single _ ih =>
    rw [List.cons_append, afterQuoted?]
    · simp [unquoted, single, ih]
    · simp [unescaping]
    · simp [unescaping]

theorem length_afterQuoted? {quote : Char} {text rest : Text}
    (found : afterQuoted? quote text = some rest) : rest.length < text.length := by
  fun_induction afterQuoted? quote text with
  | case1 | case2 => cases found
  | case3 => cases found
  | case4 c more single ih =>
    have := ih found
    simp only [List.length_cons]
    omega
  | case5 => simp_all
  | case6 => cases found
  | case7 c more _ _ _ _ ih =>
    have := ih found
    simp only [List.length_cons]
    omega

theorem length_afterRaw? {text rest : Text} (found : afterRaw? text = some rest) :
    rest.length + 3 ≤ text.length := by
  fun_induction afterRaw? text with
  | case1 => cases found
  | case2 => simp_all
  | case3 c more _ ih =>
    have := ih found
    simp only [List.length_cons]
    omega

/-! Bare literals -/

/-- The characters of numbers, words and names of entries, but for the sign. -/
def isBareChar (c : Char) : Bool :=
  isDottedChar c || isDigit c

theorem isBareChar_of_isWordChar {c : Char} (word : isWordChar c = true) : isBareChar c = true := by
  simp [isBareChar, isDottedChar, word]

/-- A literal without quotes, possibly with a sign. -/
inductive IsBare : Text → Prop where
  | unsigned {text : Text} (nonempty : text ≠ []) (bare : ∀ c ∈ text, isBareChar c = true) :
    IsBare text
  | signed {text : Text} (nonempty : text ≠ []) (bare : ∀ c ∈ text, isBareChar c = true) :
    IsBare ('-' :: text)

namespace IsBare

variable {text : Text}

theorem ne_nil (bare : IsBare text) : text ≠ [] := by
  cases bare with
  | unsigned nonempty _ => exact nonempty
  | signed _ _ => simp

theorem not_mem (bare : IsBare text) {mark : Char} (outside : isBareChar mark = false)
    (unsigned : mark ≠ '-') : mark ∉ text := by
  have apart {text : Text} (bare : ∀ c ∈ text, isBareChar c = true) : mark ∉ text := by
    intro inside
    rw [bare mark inside] at outside
    cases outside
  cases bare with
  | unsigned _ bare => exact apart bare
  | signed _ bare =>
    rw [List.mem_cons, not_or]
    exact ⟨unsigned, apart bare⟩

theorem ink (bare : IsBare text) : ∀ c ∈ text, isBlank c = false := by
  have single {c : Char} (bare : isBareChar c = true) : isBlank c = false := by
    rcases Bool.or_eq_true_iff.mp bare with dotted | digit
    · exact isBlank_of_isDottedChar dotted
    · exact isBlank_of_isDigit digit
  cases bare with
  | unsigned _ bare => exact fun c inside => single (bare c inside)
  | signed _ bare => exact List.forall_mem_cons.mpr ⟨rfl, fun c inside => single (bare c inside)⟩

theorem append {mark : Text} (bare : IsBare text) (marks : ∀ c ∈ mark, isBareChar c = true) :
    IsBare (text ++ mark) := by
  cases bare with
  | unsigned nonempty bare =>
    exact .unsigned (by simp [nonempty]) (List.forall_mem_append.mpr ⟨bare, marks⟩)
  | signed nonempty bare =>
    exact .signed (by simp [nonempty]) (List.forall_mem_append.mpr ⟨bare, marks⟩)

end IsBare

private theorem bare_of_decimal? {text found rest : Text}
    (read : decimal? text = some (found, rest)) :
    text = found ++ rest ∧ found ≠ [] ∧ ∀ c ∈ found, isBareChar c = true := by
  have digits {text found rest : Text} (read : run? isDigit text = some (found, rest)) :
      text = found ++ rest ∧ found ≠ [] ∧ ∀ c ∈ found, isBareChar c = true := by
    obtain ⟨nonempty, rfl, rfl⟩ := run?_eq_some_iff.mp read
    refine ⟨List.takeWhile_append_dropWhile.symm, nonempty, fun c inside => ?_⟩
    simp [isBareChar, List.mem_takeWhile_imp inside]
  obtain ⟨⟨whole, behind⟩, first, following⟩ := Option.bind_eq_some_iff.mp read
  obtain ⟨rfl, nonempty, bare⟩ := digits first
  dsimp only at following
  split at following
  · next fraction =>
    split at following
    · next more last second =>
      cases following
      obtain ⟨rfl, -, others⟩ := digits second
      refine ⟨by simp, by simp [nonempty], ?_⟩
      rw [List.forall_mem_append, List.forall_mem_cons]
      exact ⟨bare, by decide, others⟩
    · cases following
      exact ⟨rfl, nonempty, bare⟩
  · cases following
    exact ⟨rfl, nonempty, bare⟩

private theorem isBare_of_isNumber {text : Text} (number : isNumber text = true) : IsBare text := by
  have signed {found rest : Text} (read : signedDecimal? text = some (found, rest)) :
      text = found ++ rest ∧ IsBare found := by
    unfold signedDecimal? at read
    split at read
    · obtain ⟨⟨digits, last⟩, unsigned, same⟩ := Option.map_eq_some_iff.mp read
      cases same
      obtain ⟨rfl, nonempty, bare⟩ := bare_of_decimal? unsigned
      exact ⟨rfl, .signed nonempty bare⟩
    · obtain ⟨whole, nonempty, bare⟩ := bare_of_decimal? read
      exact ⟨whole, .unsigned nonempty bare⟩
  unfold isNumber at number
  split at number
  · next read =>
    obtain ⟨same, bare⟩ := signed read
    rwa [same, List.append_nil]
  · next c read =>
    obtain ⟨same, bare⟩ := signed read
    have mark : isBareChar c = true := by
      simp only [isNumberSuffix, Bool.or_eq_true, decide_eq_true_eq] at number
      rcases number with (rfl | rfl) | rfl <;> decide
    rw [same]
    exact bare.append (by simpa using mark)
  · cases number

private theorem isBare_of_isEntryName {text : Text} (entry : isEntryName text = true) :
    IsBare text := by
  unfold isEntryName at entry
  split at entry
  · next owner name divided =>
    simp only [Bool.and_eq_true, List.all_eq_true] at entry
    obtain ⟨⟨⟨-, owners⟩, -⟩, names⟩ := entry
    rw [(of_cut_eq_some divided).1]
    refine .unsigned (by simp) ?_
    rw [List.forall_mem_append, List.forall_mem_cons]
    exact ⟨fun c inside => isBareChar_of_isWordChar (owners c inside), by decide,
      fun c inside => isBareChar_of_isWordChar (names c inside)⟩
  · cases entry

/-- A literal on one line is quoted or bare. -/
theorem quoted_or_bare {text : Text} (literal : isLiteralDefault text = true)
    (single : '\n' ∉ text) :
    (∃ inner, text = '"' :: inner ++ ['"'] ∧ IsQuoted inner) ∨ IsBare text := by
  simp only [isLiteralDefault, Bool.or_eq_true] at literal
  rcases literal with ((word | number) | string) | entry
  · have words : ∀ word ∈ literalWords, word ≠ [] ∧ ∀ c ∈ word, isBareChar c = true := by decide
    obtain ⟨nonempty, bare⟩ := words text (by simpa using word)
    exact .inr (.unsigned nonempty bare)
  · exact .inr (isBare_of_isNumber number)
  · refine .inl ?_
    unfold isString at string
    split at string
    · next rest =>
      rw [List.mem_cons, not_or] at single
      obtain ⟨inner, rfl, quoted⟩ := exists_of_isStringBody single.2 string
      exact ⟨inner, rfl, quoted⟩
    · cases string
  · exact .inr (isBare_of_isEntryName entry)

/-! Replacing -/

theorem replaceAll_cons {read : Text → Option (Text × Text)} {c : Char} {rest : Text}
    (refused : read (c :: rest) = none) :
    replaceAll read (c :: rest) = c :: replaceAll read rest := by
  rw [replaceAll, refused]

theorem replaceAll_append {read : Text → Option (Text × Text)} {text replacement rest : Text}
    (nonempty : text ≠ []) (found : read (text ++ rest) = some (replacement, rest)) :
    replaceAll read (text ++ rest) = replacement ++ replaceAll read rest := by
  obtain ⟨c, more, rfl⟩ := List.exists_cons_of_ne_nil nonempty
  rw [List.cons_append] at found ⊢
  rw [replaceAll, found]
  exact if_pos (by simp)

/-- What takes up the room of the text it replaces keeps the length of the whole. -/
theorem length_replaceAll {read : Text → Option (Text × Text)}
    (same : ∀ {text replacement rest}, read text = some (replacement, rest) →
      replacement.length + rest.length = text.length) (text : Text) :
    (replaceAll read text).length = text.length := by
  fun_induction replaceAll read text with
  | case1 => rfl
  | case2 c rest refused ih => rw [List.length_cons, ih, List.length_cons]
  | case3 c rest replacement behind found shorter ih =>
    rw [List.length_append, ih, same found]
  | case4 c rest replacement behind found longer ih => rw [List.length_cons, ih, List.length_cons]

/-- The characters at which something can be replaced. -/
def replaceMarks : List Char :=
  ['"', '\'', '/']

theorem string?_append {inner : Text} (quoted : IsQuoted inner) (rest : Text) :
    string? ('"' :: inner ++ '"' :: rest) = some ('"' :: inner ++ ['"'], rest) := by
  have literal : (inner ++ '"' :: rest).take ((inner ++ '"' :: rest).length - rest.length) =
      inner ++ ['"'] := by
    rw [List.append_cons, List.length_append, Nat.add_sub_cancel, List.take_left]
  rw [List.cons_append, string?, afterQuoted?_append quoted, Option.map_some, literal]
  rfl

theorem string?_eq_none {c : Char} (unquoted : c ≠ '"') (rest : Text) :
    string? (c :: rest) = none := by
  unfold string?
  split
  · simp_all
  · rfl

theorem blankLiteral_enclosed (quotes inner rest : Text) :
    blankLiteral quotes.length (quotes ++ inner ++ quotes ++ rest) rest =
      quotes ++ blankOut inner ++ quotes := by
  have whole : (quotes ++ inner ++ quotes ++ rest).take
      ((quotes ++ inner ++ quotes ++ rest).length - rest.length) = quotes ++ inner ++ quotes := by
    rw [List.length_append, Nat.add_sub_cancel, List.take_left]
  have first : (quotes ++ inner ++ quotes).take quotes.length = quotes := by
    rw [List.append_assoc, List.take_left]
  have last : (quotes ++ inner ++ quotes).drop
      ((quotes ++ inner ++ quotes).length - quotes.length) = quotes := by
    rw [List.length_append, Nat.add_sub_cancel, List.drop_left]
  have length : (quotes ++ inner ++ quotes).length - 2 * quotes.length = inner.length := by
    simp only [List.length_append]
    omega
  have middle : ((quotes ++ inner ++ quotes).drop quotes.length).take inner.length = inner := by
    rw [List.append_assoc, List.drop_left, List.take_left]
  rw [blankLiteral, whole, first, last, length, middle]

/-- Quotes stay and blanks come between them. -/
theorem maskedLiteral?_append {inner : Text} (quoted : IsQuoted inner) {rest : Text}
    (unquoted : rest.head? ≠ some '"') :
    maskedLiteral? ('"' :: inner ++ '"' :: rest) =
      some ('"' :: blankOut inner ++ ['"'], rest) := by
  have plain := afterQuoted?_append quoted rest
  have raw : ∀ more, '"' :: inner ++ '"' :: rest ≠ '"' :: '"' :: '"' :: more := by
    intro more same
    cases quoted with
    | nil => simp_all
    | escaped => simp at same
    | plain inside => simp [inside] at same
  unfold maskedLiteral?
  split
  · next more same => exact absurd same (raw more)
  · have masked : blankLiteral 1 ('"' :: (inner ++ '"' :: rest)) rest =
        '"' :: blankOut inner ++ ['"'] := by
      simpa using blankLiteral_enclosed ['"'] inner rest
    rw [List.cons_append]
    simp [plain, masked]

theorem length_blankLiteral {quotes : Nat} {text rest : Text}
    (bound : rest.length + 2 * quotes ≤ text.length) :
    (blankLiteral quotes text rest).length + rest.length = text.length := by
  simp only [blankLiteral, blankOut, List.length_append, List.length_map, List.length_take,
    List.length_drop]
  omega

theorem length_maskedLiteral? {text replacement rest : Text}
    (found : maskedLiteral? text = some (replacement, rest)) :
    replacement.length + rest.length = text.length := by
  have blank {quotes : Nat} {read : Option Text}
      (taken : read.map (fun after => (blankLiteral quotes text after, after)) =
        some (replacement, rest))
      (bound : read = some rest → rest.length + 2 * quotes ≤ text.length) :
      replacement.length + rest.length = text.length := by
    obtain ⟨after, reached, same⟩ := Option.map_eq_some_iff.mp taken
    cases same
    exact length_blankLiteral (bound reached)
  have plain {quote c : Char} {more : Text} (whole : text = c :: more)
      (taken : (if c = quote then
        (afterQuoted? quote more).map fun after => (blankLiteral 1 text after, after)
      else none) = some (replacement, rest)) :
      replacement.length + rest.length = text.length := by
    split at taken
    · refine blank taken fun found => ?_
      have shorter := length_afterQuoted? found
      simp only [whole, List.length_cons]
      omega
    · cases taken
  simp only [maskedLiteral?, Option.orElse_eq_orElse, Option.orElse_eq_or,
    Option.or_eq_some_iff] at found
  rcases found with raw | ⟨-, double | ⟨-, single⟩⟩
  · split at raw
    · next more =>
      refine blank raw fun found => ?_
      have shorter := length_afterRaw? found
      simp only [List.length_cons]
      omega
    · cases raw
  · split at double
    · exact plain rfl double
    · cases double
  · split at single
    · exact plain rfl single
    · cases single

/-- Every offset stays valid. -/
theorem length_maskLiterals (text : Text) : (maskLiterals text).length = text.length :=
  length_replaceAll length_maskedLiteral? text

theorem maskedLiteral?_eq_none {c : Char} (unquoted : c ∉ ['"', '\'']) (rest : Text) :
    maskedLiteral? (c :: rest) = none := by
  simp only [List.mem_cons, List.not_mem_nil, or_false, not_or] at unquoted
  unfold maskedLiteral?
  split
  · simp_all
  · simp [unquoted]

end DeclBridge.Kotlin
