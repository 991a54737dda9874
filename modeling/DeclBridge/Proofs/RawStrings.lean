import DeclBridge.Kotlin.Scan
import DeclBridge.Proofs.MaskedSources

/-! Raw strings under the removal of comments and the blanking of literals. Comments are removed
first, by readers that only know strings of one line. A raw string of one line is passed over as
three of them. In any other, comments are removed from its contents, and one on its last line takes
the closing quotes with it. -/

namespace DeclBridge.Kotlin

open Text Syntax

def rawString (content : Text) : Text :=
  '"' :: '"' :: '"' :: content ++ ['"', '"', '"']

theorem length_rawString (content : Text) : (rawString content).length = content.length + 6 := by
  simp [rawString]

theorem mem_rawString {content : Text} {c : Char} :
    c ∈ rawString content ↔ c = '"' ∨ c ∈ content := by
  simp [rawString, or_comm]

theorem getLast?_rawString (front content back : Text) :
    (front ++ (rawString content ++ back)).getLast? = ('"' :: back).getLast? := by
  have whole : front ++ (rawString content ++ back) =
      front ++ ('"' :: '"' :: '"' :: content ++ ['"', '"']) ++ '"' :: back := by
    simp [rawString]
  rw [whole, List.getLast?_append, List.getLast?_cons, Option.some_or]

/-- The contents of a raw string when block comments are gone. -/
def withoutBlockComments (content : Text) : Text :=
  if '\n' ∈ content then stripBlockComments content else content

/-- The contents of a raw string when all comments are gone. -/
def withoutComments (content : Text) : Text :=
  let rest := withoutBlockComments content
  if '\n' ∈ rest then stripLineComments rest else rest

/-- There is no comment that goes on behind the contents. -/
def IsClosedContent (content : Text) : Prop :=
  let rest := withoutBlockComments content
  '\n' ∈ rest → ¬['/', '/'] <:+: afterLast '\n' rest

instance (content : Text) : Decidable (IsClosedContent content) :=
  inferInstanceAs (Decidable (_ → _))

/-! Strings on one line -/

theorem suffix_of_afterQuoted? {quote : Char} {text rest : Text}
    (found : afterQuoted? quote text = some rest) : rest <:+ text := by
  fun_induction afterQuoted? quote text with
  | case1 | case2 | case3 => cases found
  | case4 c more single ih =>
    exact (ih found).trans ((List.suffix_cons c more).trans (List.suffix_cons '\\' (c :: more)))
  | case5 => simp_all
  | case6 => cases found
  | case7 c more _ _ _ _ ih => exact (ih found).trans (List.suffix_cons c more)

/-- A string is answered with as it stands. -/
theorem eq_append_of_string? {text found rest : Text} (read : string? text = some (found, rest)) :
    text = found ++ rest := by
  unfold string? at read
  split at read
  · next more =>
    obtain ⟨after, closed, same⟩ := Option.map_eq_some_iff.mp read
    cases same
    obtain ⟨front, rfl⟩ := suffix_of_afterQuoted? closed
    simp
  · cases read

/-- On one line the first or the second of the closing quotes ends a string, according to whether
the contents end in a backslash that escapes the first. -/
theorem afterQuoted?_single {content : Text} (single : '\n' ∉ content) (unquoted : '"' ∉ content)
    (rest : Text) :
    ∃ after, afterQuoted? '"' (content ++ '"' :: '"' :: rest) = some after ∧
      after <:+ '"' :: rest := by
  fun_induction afterQuoted? '"' content with
  | case1 => exact ⟨'"' :: rest, by simp [afterQuoted?], List.suffix_refl _⟩
  | case2 => exact ⟨rest, by simp [afterQuoted?], List.suffix_cons _ _⟩
  | case3 => simp at single
  | case4 c more _ ih =>
    simp only [List.mem_cons, not_or] at single unquoted
    obtain ⟨after, found, suffix⟩ := ih single.2.2 unquoted.2.2
    exact ⟨after, by simpa [afterQuoted?, Ne.symm single.2.1] using found, suffix⟩
  | case5 => simp at unquoted
  | case6 => simp at single
  | case7 c more lone _ different broken ih =>
    simp only [List.mem_cons, not_or] at single unquoted
    obtain ⟨after, found, suffix⟩ := ih single.2 unquoted.2
    refine ⟨after, ?_, suffix⟩
    rw [List.cons_append, afterQuoted?]
    · simpa [different, broken] using found
    · simp
    · rintro d others rfl
      cases more <;> simp_all

/-- A string that begins at a quote does not go on over a line break. -/
theorem afterQuoted?_broken {content : Text} (broken : '\n' ∈ content) (unquoted : '"' ∉ content)
    (rest : Text) : afterQuoted? '"' (content ++ rest) = none := by
  fun_induction afterQuoted? '"' content with
  | case1 | case2 => simp at broken
  | case3 => simp [afterQuoted?]
  | case4 c more single ih =>
    simp only [List.mem_cons, not_or] at broken unquoted
    have inside : '\n' ∈ more := by simpa [Ne.symm single] using broken
    simpa [afterQuoted?, single] using ih inside unquoted.2.2
  | case5 => simp at unquoted
  | case6 more => simp [afterQuoted?]
  | case7 c more lone _ different single ih =>
    rw [List.mem_cons, not_or] at unquoted
    have inside : '\n' ∈ more := by simpa [Ne.symm single] using broken
    rw [List.cons_append, afterQuoted?]
    · simpa [different, single] using ih inside unquoted.2
    · rintro rfl
      cases more <;> simp_all
    · rintro d others rfl
      cases more <;> simp_all

/-! Removing comments -/

/-- What both readers of comments have in common. -/
structure SkipsStrings (read : Text → Option (Text × Text)) : Prop where
  quoted : ∀ rest, read ('"' :: rest) = string? ('"' :: rest)
  other : ∀ c rest, c ≠ '"' → c ≠ '/' → read (c :: rest) = none
  suffix : ∀ text found rest, read text = some (found, rest) → rest <:+ text

namespace SkipsStrings

variable {read : Text → Option (Text × Text)} (skips : SkipsStrings read)
include skips

/-- Without slashes there are no comments. -/
theorem replaceAll_slashless {text : Text} (slashless : '/' ∉ text) :
    replaceAll read text = text := by
  fun_induction replaceAll read text with
  | case1 => rfl
  | case2 c text refused ih =>
    rw [ih (List.not_mem_of_not_mem_cons slashless)]
  | case3 c text found rest answer shorter ih =>
    by_cases quote : c = '"'
    · subst quote
      rw [skips.quoted] at answer
      have whole := eq_append_of_string? answer
      have behind : '/' ∉ rest := fun inside => slashless (by simp [whole, inside])
      rw [ih behind, whole]
    · have other : c ≠ '/' := fun same => slashless (by simp [same])
      rw [skips.other c text quote other] at answer
      cases answer
  | case4 c text found rest answer longer ih => rw [ih (List.not_mem_of_not_mem_cons slashless)]

/-- When nothing that is read in a text goes on behind it, what stands behind does not matter. -/
theorem replaceAll_append_of_local {text tail : Text}
    (within : ∀ rest, rest <:+ text → rest ≠ [] →
      read (rest ++ tail) = (read rest).map fun (found, rest) => (found, rest ++ tail)) :
    replaceAll read (text ++ tail) = replaceAll read text ++ replaceAll read tail := by
  fun_induction replaceAll read text with
  | case1 => rfl
  | case2 c text refused ih =>
    have here := within (c :: text) List.suffix_rfl (by simp)
    rw [refused, List.cons_append] at here
    rw [List.cons_append, replaceAll_cons here, List.cons_append, ih]
    exact fun rest suffix => within rest (suffix.trans (List.suffix_cons c text))
  | case3 c text found rest answer shorter ih =>
    have here := within (c :: text) List.suffix_rfl (by simp)
    have suffix := skips.suffix _ _ _ answer
    rw [answer] at here
    rw [List.cons_append] at here ⊢
    rw [replaceAll, here]
    simp only [Option.map_some]
    rw [if_pos (by simp; omega), List.append_assoc, ih]
    exact fun other inner => within other (inner.trans suffix)
  | case4 c text found rest answer longer ih =>
    have here := within (c :: text) List.suffix_rfl (by simp)
    rw [answer] at here
    rw [List.cons_append] at here ⊢
    rw [replaceAll, here]
    simp only [Option.map_some]
    rw [if_neg (by simp at longer ⊢; omega), List.cons_append, ih]
    exact fun other inner => within other (inner.trans (List.suffix_cons c text))

/-- Comments are removed from the contents of a raw string unless it is on one line. -/
theorem replaceAll_rawString {content back : Text} (unquoted : '"' ∉ content)
    (slashless : '/' ∉ back)
    (within : '\n' ∈ content → ∀ rest, rest <:+ content → rest ≠ [] →
      read (rest ++ ('"' :: '"' :: '"' :: back)) =
        (read rest).map fun (found, rest) => (found, rest ++ ('"' :: '"' :: '"' :: back))) :
    replaceAll read (rawString content ++ back) =
      rawString (if '\n' ∈ content then replaceAll read content else content) ++ back := by
  have tail : replaceAll read ('"' :: '"' :: '"' :: back) = '"' :: '"' :: '"' :: back :=
    skips.replaceAll_slashless (by simp [slashless])
  have opening : read (['"', '"'] ++ ('"' :: (content ++ ('"' :: '"' :: '"' :: back)))) =
      some (['"', '"'], '"' :: (content ++ ('"' :: '"' :: '"' :: back))) := by
    have empty := string?_append .nil ('"' :: (content ++ ('"' :: '"' :: '"' :: back)))
    have quoted := skips.quoted ('"' :: '"' :: (content ++ ('"' :: '"' :: '"' :: back)))
    exact quoted.trans empty
  have whole : rawString content ++ back =
      ['"', '"'] ++ ('"' :: (content ++ ('"' :: '"' :: '"' :: back))) := by simp [rawString]
  rw [whole, replaceAll_append (by simp) opening]
  by_cases broken : '\n' ∈ content
  · have refused : read ('"' :: (content ++ ('"' :: '"' :: '"' :: back))) = none := by
      rw [skips.quoted, string?, afterQuoted?_broken broken unquoted, Option.map_none]
    rw [replaceAll_cons refused, skips.replaceAll_append_of_local (within broken), tail,
      if_pos broken]
    simp [rawString]
  · obtain ⟨after, closed, suffix⟩ := afterQuoted?_single broken unquoted ('"' :: back)
    obtain ⟨found, answer⟩ : ∃ found,
        read ('"' :: (content ++ ('"' :: '"' :: '"' :: back))) = some (found, after) := by
      rw [skips.quoted, string?, closed]
      exact ⟨_, rfl⟩
    have same := eq_append_of_string? ((skips.quoted _).symm.trans answer)
    have behind : '/' ∉ after := fun inside => by simpa [slashless] using suffix.subset inside
    have nonempty : found ≠ [] := by
      rintro rfl
      have shorter := suffix.length_le
      have length := congrArg List.length same
      simp at shorter length
      omega
    rw [same] at answer ⊢
    rw [replaceAll_append nonempty answer, skips.replaceAll_slashless behind, if_neg broken, ← same]
    simp [rawString]

end SkipsStrings

theorem suffix_of_afterBlockComment? {text rest : Text}
    (read : afterBlockComment? text = some rest) : rest <:+ text := by
  fun_induction afterBlockComment? text with
  | case1 => cases read
  | case2 more =>
    cases read
    exact ⟨['*', '/'], rfl⟩
  | case3 c more _ ih => exact (ih read).trans (List.suffix_cons c more)

theorem skipsStrings_blockComments : SkipsStrings stringOrBlockComment? where
  quoted _ := rfl
  other c rest unquoted uncommented := by
    unfold stringOrBlockComment?
    split
    · next same => exact absurd (List.cons.inj same).1 uncommented
    · exact string?_eq_none unquoted rest
  suffix text found rest read := by
    unfold stringOrBlockComment? at read
    split at read
    · next more =>
      obtain ⟨_, closed, same⟩ := Option.map_eq_some_iff.mp read
      cases same
      exact (suffix_of_afterBlockComment? closed).trans ⟨['/', '*'], rfl⟩
    · exact ⟨found, (eq_append_of_string? read).symm⟩

theorem skipsStrings_lineComments : SkipsStrings stringOrLineComment? where
  quoted _ := rfl
  other c rest unquoted uncommented := by
    unfold stringOrLineComment?
    split
    · next same => exact absurd (List.cons.inj same).1 uncommented
    · exact string?_eq_none unquoted rest
  suffix text found rest read := by
    unfold stringOrLineComment? at read
    split at read
    · next more =>
      cases read
      exact (List.dropWhile_suffix _).trans ⟨['/', '/'], rfl⟩
    · exact ⟨found, (eq_append_of_string? read).symm⟩

/-- A block comment does not end behind the last slash. -/
theorem afterBlockComment?_append {tail : Text} (slashless : '/' ∉ tail) (text : Text) :
    afterBlockComment? (text ++ tail) = (afterBlockComment? text).map (· ++ tail) := by
  have behind {tail : Text} (slashless : '/' ∉ tail) : afterBlockComment? tail = none := by
    fun_induction afterBlockComment? tail with
    | case1 => rfl
    | case2 => simp at slashless
    | case3 c more _ ih => exact ih (List.not_mem_of_not_mem_cons slashless)
  fun_induction afterBlockComment? text with
  | case1 => exact behind slashless
  | case2 more => rfl
  | case3 c more unended ih =>
    rw [List.cons_append, afterBlockComment?]
    · exact ih
    · rintro rest rfl same
      cases more with
      | nil => exact slashless (by simp [show tail = '/' :: rest from same])
      | cons d others => exact unended others rfl (by rw [(List.cons.inj same).1])

/-- A block comment that begins within the contents of a raw string ends there or not at all. -/
theorem blockComment_within {content back : Text} (unquoted : '"' ∉ content)
    (slashless : '/' ∉ back) {rest : Text} (suffix : rest <:+ content) (nonempty : rest ≠ []) :
    stringOrBlockComment? (rest ++ '"' :: back) =
      (stringOrBlockComment? rest).map fun (found, rest) => (found, rest ++ '"' :: back) := by
  obtain ⟨c, more, rfl⟩ := List.exists_cons_of_ne_nil nonempty
  have other : c ≠ '"' := fun same => unquoted (suffix.subset (by simp [same]))
  have plain {text : Text} (starless : ∀ more, text ≠ '*' :: more) :
      stringOrBlockComment? ('/' :: text) = none := by
    unfold stringOrBlockComment?
    split
    · next rest same => exact absurd (List.cons.inj same).2 (starless rest)
    · exact string?_eq_none (by decide) text
  by_cases slash : c = '/'
  · subst slash
    cases more with
    | nil => rw [List.cons_append, plain (by simp), plain (by simp), Option.map_none]
    | cons d more =>
      by_cases star : d = '*'
      · subst star
        have tail : '/' ∉ '"' :: back := by simp [slashless]
        have after := afterBlockComment?_append tail more
        simp only [List.cons_append, stringOrBlockComment?, after, Option.map_map]
        rfl
      · rw [List.cons_append, List.cons_append, plain (by simp [star]), plain (by simp [star]),
          Option.map_none]
  · rw [List.cons_append, skipsStrings_blockComments.other c _ other slash,
      skipsStrings_blockComments.other c _ other slash, Option.map_none]

theorem suffix_afterLast {mark : Char} {text rest : Text} (suffix : rest <:+ text)
    (absent : mark ∉ rest) : rest <:+ afterLast mark text := by
  obtain ⟨front, rfl⟩ := suffix
  rw [afterLast_append absent]
  exact List.suffix_append _ rest

/-- A line comment that begins within the contents of a raw string ends there, unless it begins on
the last line. -/
theorem lineComment_within {content back : Text} (unquoted : '"' ∉ content)
    (closed : ¬['/', '/'] <:+: afterLast '\n' content)
    {rest : Text} (suffix : rest <:+ content) (nonempty : rest ≠ []) :
    stringOrLineComment? (rest ++ '"' :: back) =
      (stringOrLineComment? rest).map fun (found, rest) => (found, rest ++ '"' :: back) := by
  obtain ⟨c, more, rfl⟩ := List.exists_cons_of_ne_nil nonempty
  have other : c ≠ '"' := fun same => unquoted (suffix.subset (by simp [same]))
  have plain {text : Text} (single : ∀ more, text ≠ '/' :: more) :
      stringOrLineComment? ('/' :: text) = none := by
    unfold stringOrLineComment?
    split
    · next rest same => exact absurd (List.cons.inj same).2 (single rest)
    · exact string?_eq_none (by decide) text
  by_cases slash : c = '/'
  · subst slash
    cases more with
    | nil => rw [List.cons_append, plain (by simp), plain (by simp), Option.map_none]
    | cons d more =>
      by_cases again : d = '/'
      · subst again
        have broken : '\n' ∈ more := by
          by_contra single
          have last := suffix_afterLast suffix (by simp [single] : '\n' ∉ '/' :: '/' :: more)
          exact closed ((List.prefix_append ['/', '/'] more).isInfix.trans last.isInfix)
        obtain ⟨line, others, rfl, before⟩ := List.eq_append_cons_of_mem broken
        have all : ∀ c ∈ line, decide (c ≠ '\n') = true :=
          fun c inside => decide_eq_true fun same => before (same ▸ inside)
        simp only [List.cons_append, List.append_assoc, stringOrLineComment?, Option.map_some,
          List.dropWhile_append_of_pos all]
        simp
      · rw [List.cons_append, List.cons_append, plain (by simp [again]), plain (by simp [again]),
          Option.map_none]
  · rw [List.cons_append, skipsStrings_lineComments.other c _ other slash,
      skipsStrings_lineComments.other c _ other slash, Option.map_none]

/-- No quotes come in place of comments. -/
theorem unquoted_replaceAll {read : Text → Option (Text × Text)} (skips : SkipsStrings read)
    (comments : ∀ rest found after, read ('/' :: rest) = some (found, after) → '"' ∉ found)
    {text : Text} (unquoted : '"' ∉ text) : '"' ∉ replaceAll read text := by
  fun_induction replaceAll read text with
  | case1 => simp
  | case2 c text refused ih | case4 c text found rest answer longer ih =>
    rw [List.mem_cons, not_or] at unquoted ⊢
    exact ⟨unquoted.1, ih unquoted.2⟩
  | case3 c text found rest answer shorter ih =>
    have behind : '"' ∉ rest := fun inside => unquoted ((skips.suffix _ _ _ answer).subset inside)
    have replaced : '"' ∉ found := by
      rw [List.mem_cons, not_or] at unquoted
      by_cases slash : c = '/'
      · exact comments text found rest (slash ▸ answer)
      · rw [skips.other c text (Ne.symm unquoted.1) slash] at answer
        cases answer
    rw [List.mem_append, not_or]
    exact ⟨replaced, ih behind⟩

theorem unquoted_withoutBlockComments {content : Text} (unquoted : '"' ∉ content) :
    '"' ∉ withoutBlockComments content := by
  rw [withoutBlockComments]
  split
  · refine unquoted_replaceAll skipsStrings_blockComments (fun rest found after read => ?_) unquoted
    unfold stringOrBlockComment? at read
    split at read
    · obtain ⟨_, -, same⟩ := Option.map_eq_some_iff.mp read
      cases same
      decide
    · rw [string?_eq_none (by decide)] at read
      cases read
  · exact unquoted

theorem unquoted_withoutComments {content : Text} (unquoted : '"' ∉ content) :
    '"' ∉ withoutComments content := by
  have rest := unquoted_withoutBlockComments unquoted
  rw [withoutComments]
  split
  · refine unquoted_replaceAll skipsStrings_lineComments (fun rest found after read => ?_) rest
    unfold stringOrLineComment? at read
    split at read
    · cases read
      decide
    · rw [string?_eq_none (by decide)] at read
      cases read
  · exact rest

section

variable {front content back : Text} (frontFree : IsFree replaceMarks front)
  (backFree : IsFree replaceMarks back) (unquoted : '"' ∉ content)
include frontFree backFree unquoted

/-- Unless a comment takes the closing quotes, comments go from within the contents and nothing else
changes. -/
theorem stripComments_rawString (closed : IsClosedContent content) :
    stripComments (front ++ rawString content ++ back) =
      front ++ rawString (withoutComments content) ++ back := by
  have slashless : '/' ∉ back := fun inside => backFree '/' inside (by decide)
  have tail : '/' ∉ '"' :: '"' :: back := by simp [slashless]
  have rest := unquoted_withoutBlockComments unquoted
  have blocks := skipsStrings_blockComments.replaceAll_rawString unquoted slashless
    fun _ _ suffix nonempty => blockComment_within unquoted tail suffix nonempty
  have lines := skipsStrings_lineComments.replaceAll_rawString rest slashless
    fun broken _ suffix nonempty => lineComment_within rest (closed broken) suffix nonempty
  rw [stripComments, stripBlockComments, stripLineComments, List.append_assoc,
    replaces_blockComments.replaceAll_free frontFree, blocks,
    replaces_lineComments.replaceAll_free frontFree]
  have whole : rawString (if '\n' ∈ content then replaceAll stringOrBlockComment? content
      else content) = rawString (withoutBlockComments content) := rfl
  rw [whole, lines, List.append_assoc]
  rfl

end

/-! Blanking literals -/

theorem afterRaw?_append {content : Text} (unquoted : '"' ∉ content) (rest : Text) :
    afterRaw? (content ++ '"' :: '"' :: '"' :: rest) = some rest := by
  induction content with
  | nil => rfl
  | cons c content ih =>
    rw [List.mem_cons, not_or] at unquoted
    rw [List.cons_append, afterRaw?]
    · exact ih unquoted.2
    · rintro more rfl
      exact absurd rfl unquoted.1

theorem maskedLiteral?_rawString {content : Text} (unquoted : '"' ∉ content) (rest : Text) :
    maskedLiteral? (rawString content ++ rest) = some (rawString (blankOut content), rest) := by
  have after : afterRaw? (content ++ ['"', '"', '"'] ++ rest) = some rest := by
    simpa using afterRaw?_append unquoted rest
  have masked : blankLiteral 3 (rawString content ++ rest) rest = rawString (blankOut content) :=
    blankLiteral_enclosed ['"', '"', '"'] content rest
  have start : rawString content ++ rest =
      '"' :: '"' :: '"' :: (content ++ ['"', '"', '"'] ++ rest) := rfl
  rw [start] at masked ⊢
  simp only [maskedLiteral?, after, Option.map_some, masked]
  rfl

/-- What the scanner works on when only a raw string is to be blanked. -/
def literalSource (front back content : Text) : Source :=
  let masked := front ++ (rawString (blankOut content) ++ back)
  ⟨front ++ (rawString content ++ back), masked, packageName true masked,
    scopesFrom (typeHeaders masked) 0 [] masked⟩

section

variable {front content back : Text} (frontFree : IsFree replaceMarks front)
  (backFree : IsFree replaceMarks back) (unquoted : '"' ∉ content)
include frontFree backFree unquoted

theorem maskLiterals_rawString :
    maskLiterals (front ++ rawString content ++ back) =
      front ++ rawString (blankOut content) ++ back := by
  have tail : replaceAll maskedLiteral? back = back := by
    have whole := replaces_literals.replaceAll_free backFree []
    rwa [replaceAll, List.append_nil] at whole
  rw [maskLiterals, List.append_assoc, replaces_literals.replaceAll_free frontFree,
    replaceAll_append (by simp [rawString]) (maskedLiteral?_rawString unquoted back), tail,
    List.append_assoc]

theorem ofText_rawString (closed : IsClosedContent content) :
    Source.ofText (front ++ rawString content ++ back) =
      literalSource front back (withoutComments content) := by
  have stripped := stripComments_rawString frontFree backFree unquoted closed
  have masked := maskLiterals_rawString frontFree backFree (unquoted_withoutComments unquoted)
  rw [Source.ofText, stripped, masked, ScopeIndex.ofText, masked, literalSource,
    List.append_assoc, List.append_assoc]

end

end DeclBridge.Kotlin
