import DeclBridge.Proofs.RawStrings

/-! Line comments under the removal of comments. Block comments go first, by a reader that does not
know line comments. What a line comment holds is therefore read as if it were code: a block comment
can begin in it, or at the second of its slashes, and take what stands behind the line with it. In
all other cases exactly the line comment goes. -/

namespace DeclBridge.Kotlin

open Text

/-- A block comment begins in a text, outside of strings, and is open at the end. -/
def leavesOpen : Text → Bool
  | [] => false
  | c :: cs =>
    match stringOrBlockComment? (c :: cs) with
    | none => ['/', '*'].isPrefixOf (c :: cs) || leavesOpen cs
    | some (_, rest) => if rest.length ≤ cs.length then leavesOpen rest else leavesOpen cs
termination_by text => text.length
decreasing_by all_goals simp; try omega

/-- The text behind a block comment that begins within a line and ends behind it. -/
def blockAcross? (line back : Text) : Option Text :=
  if leavesOpen line then afterBlockComment? back else none

/-- The text behind a block comment that begins with the second slash of a line comment. -/
def blockAtSlashes? (comment back : Text) : Option Text :=
  match comment with
  | '*' :: rest => afterBlockComment? (rest ++ '\n' :: back)
  | _ => none

/-! The end of a line -/

section

variable {line : Text} (single : '\n' ∉ line) (back : Text)
include single

theorem afterQuoted?_line :
    afterQuoted? '"' (line ++ '\n' :: back) =
      (afterQuoted? '"' line).map (· ++ '\n' :: back) := by
  fun_induction afterQuoted? '"' line with
  | case1 => simp [afterQuoted?]
  | case2 => simp [afterQuoted?]
  | case3 => simp at single
  | case4 c more _ ih =>
    simp only [List.mem_cons, not_or] at single
    simpa [afterQuoted?, Ne.symm single.2.1] using ih single.2.2
  | case5 more =>
    rw [List.cons_append, afterQuoted?]
    · simp
    · simp
    · simp
  | case6 => simp at single
  | case7 c more lone paired different broken ih =>
    simp only [List.mem_cons, not_or] at single
    rw [List.cons_append, afterQuoted?, if_neg different, if_neg broken]
    · exact ih single.2
    · simp
    · rintro d others rfl
      cases more <;> simp_all

/-- A string does not go on over the end of a line. -/
theorem string?_line :
    string? (line ++ '\n' :: back) =
      (string? line).map fun (found, rest) => (found, rest ++ '\n' :: back) := by
  cases line with
  | nil => rfl
  | cons c more =>
    by_cases quote : c = '"'
    · subst quote
      have closed := afterQuoted?_line (List.not_mem_of_not_mem_cons single) back
      rw [List.cons_append, string?, closed, string?, Option.map_map, Option.map_map]
      refine Option.map_congr fun rest found => ?_
      have shorter := length_afterQuoted? found
      have size : (more ++ '\n' :: back).length - (rest ++ '\n' :: back).length =
          more.length - rest.length := by
        rw [List.length_append, List.length_append, Nat.add_sub_add_right]
      rw [Function.comp_apply, size, List.take_append_of_le_length (Nat.sub_le _ _)]
      rfl
    · rw [List.cons_append, string?_eq_none quote, string?_eq_none quote, Option.map_none]

end

/-- A comment that is not closed in a line is closed behind it. -/
theorem afterBlockComment?_line (line back : Text) :
    afterBlockComment? (line ++ '\n' :: back) =
      ((afterBlockComment? line).map (· ++ '\n' :: back)).or (afterBlockComment? back) := by
  fun_induction afterBlockComment? line with
  | case1 => rfl
  | case2 more => rfl
  | case3 c more unended ih =>
    rw [List.cons_append, afterBlockComment?]
    · exact ih
    · rintro rest rfl same
      cases more with
      | nil => cases same
      | cons d others => exact unended others rfl (by rw [(List.cons.inj same).1])

theorem stringOrBlockComment?_line {line : Text} (single : '\n' ∉ line) (back : Text) :
    stringOrBlockComment? (line ++ '\n' :: back) =
      ((stringOrBlockComment? line).map fun (found, rest) => (found, rest ++ '\n' :: back)).or
        (if ['/', '*'].isPrefixOf line then (afterBlockComment? back).map ([' '], ·)
          else none) := by
  by_cases begins : ['/', '*'].isPrefixOf line
  · obtain ⟨more, rfl⟩ := List.isPrefixOf_iff_prefix.mp begins
    have closed := afterBlockComment?_line more back
    simp only [List.cons_append, List.nil_append, stringOrBlockComment?, closed]
    cases afterBlockComment? more <;> rfl
  · have plain (text : Text) (begins : ¬['/', '*'].isPrefixOf text) :
        stringOrBlockComment? text = string? text := by
      unfold stringOrBlockComment?
      split
      · exact absurd rfl begins
      · rfl
    have whole : ¬['/', '*'].isPrefixOf (line ++ '\n' :: back) := by
      rcases line with - | ⟨c, - | ⟨d, more⟩⟩
      · simp
      · simp
      · simpa using begins
    rw [plain _ whole, plain _ begins, string?_line single, if_neg begins, Option.or_none]

theorem single_of_stringOrBlockComment? {line found rest : Text} (single : '\n' ∉ line)
    (read : stringOrBlockComment? line = some (found, rest)) : '\n' ∉ found := by
  unfold stringOrBlockComment? at read
  split at read
  · obtain ⟨_, -, same⟩ := Option.map_eq_some_iff.mp read
    cases same
    decide
  · have whole := eq_append_of_string? read
    intro inside
    exact single (by simp [whole, inside])

theorem length_stringOrBlockComment? {text found rest : Text}
    (read : stringOrBlockComment? text = some (found, rest)) : rest.length < text.length := by
  unfold stringOrBlockComment? at read
  split at read
  · next more =>
    obtain ⟨_, closed, same⟩ := Option.map_eq_some_iff.mp read
    cases same
    have shorter := (suffix_of_afterBlockComment? closed).length_le
    simp only [List.length_cons]
    omega
  · unfold string? at read
    split at read
    · next more =>
      obtain ⟨_, closed, same⟩ := Option.map_eq_some_iff.mp read
      cases same
      have shorter := (suffix_of_afterQuoted? closed).length_le
      simp only [List.length_cons]
      omega
    · cases read

theorem stripBlockComments_of_read {text found rest : Text}
    (read : stringOrBlockComment? text = some (found, rest)) :
    stripBlockComments text = found ++ stripBlockComments rest := by
  obtain ⟨front, same⟩ := skipsStrings_blockComments.suffix _ _ _ read
  have shorter := length_stringOrBlockComment? read
  have nonempty : front ≠ [] := by
    rintro rfl
    rw [← same, List.nil_append] at shorter
    exact Nat.lt_irrefl _ shorter
  rw [← same] at read ⊢
  exact replaceAll_append nonempty read

/-- Up to the end of a line, block comments are removed as from the line alone. What comes next
depends on whether one of them goes on behind it. -/
theorem exists_stripBlockComments_line {line : Text} (single : '\n' ∉ line) (back : Text) :
    ∃ lead : Text, '\n' ∉ lead ∧ stripBlockComments (line ++ '\n' :: back) = lead ++
      (blockAcross? line back).elim ('\n' :: stripBlockComments back)
        (' ' :: stripBlockComments ·) := by
  rw [stripBlockComments, blockAcross?]
  fun_induction leavesOpen line with
  | case1 =>
    refine ⟨[], by simp, ?_⟩
    exact replaceAll_cons (skipsStrings_blockComments.other '\n' back (by decide) (by decide))
  | case2 c line refused ih =>
    have here := stringOrBlockComment?_line single back
    rw [refused, Option.map_none, Option.none_or, List.cons_append] at here
    obtain ⟨lead, within, same⟩ := ih (List.not_mem_of_not_mem_cons single)
    have started : '\n' ∉ c :: lead := by
      simp only [List.mem_cons, not_or] at single ⊢
      exact ⟨single.1, within⟩
    have unread (idle : stringOrBlockComment? (c :: (line ++ '\n' :: back)) = none) :
        replaceAll stringOrBlockComment? (c :: line ++ '\n' :: back) = c :: lead ++
          (if leavesOpen line then afterBlockComment? back else none).elim
            ('\n' :: replaceAll stringOrBlockComment? back)
            (' ' :: replaceAll stringOrBlockComment? ·) := by
      rw [List.cons_append, replaceAll_cons idle, same, List.cons_append]
    by_cases begins : ['/', '*'].isPrefixOf (c :: line)
    · rw [if_pos begins] at here
      cases closed : afterBlockComment? back with
      | none =>
        rw [closed, Option.map_none] at here
        refine ⟨c :: lead, started, ?_⟩
        rw [unread here, closed, ite_self, ite_self]
      | some rest =>
        rw [closed, Option.map_some] at here
        refine ⟨[], by simp, ?_⟩
        rw [begins, Bool.true_or, if_pos rfl]
        exact stripBlockComments_of_read here
    · rw [if_neg begins] at here
      refine ⟨c :: lead, started, ?_⟩
      rw [unread here, Bool.eq_false_iff.mpr begins, Bool.false_or]
  | case3 c line found rest read shorter ih =>
    have suffix := skipsStrings_blockComments.suffix _ _ _ read
    have here := stringOrBlockComment?_line single back
    rw [read, Option.map_some, Option.some_or] at here
    obtain ⟨lead, within, same⟩ := ih fun inside => single (suffix.subset inside)
    refine ⟨found ++ lead, ?_, ?_⟩
    · rw [List.mem_append, not_or]
      exact ⟨single_of_stringOrBlockComment? single read, within⟩
    · have behind := stripBlockComments_of_read here
      rw [stripBlockComments] at behind
      rw [behind, same, List.append_assoc]
  | case4 c line found rest read longer ih =>
    have shorter := length_stringOrBlockComment? read
    exact absurd (Nat.le_of_lt_succ shorter) longer

/-- Without a beginning of a block comment none is open at the end. -/
theorem leavesOpen_eq_false {line : Text} (unopened : ¬['/', '*'] <:+: line) :
    leavesOpen line = false := by
  fun_induction leavesOpen line with
  | case1 => rfl
  | case2 c line refused ih =>
    have here : ¬['/', '*'].isPrefixOf (c :: line) := fun begins =>
      unopened (List.isPrefixOf_iff_prefix.mp begins).isInfix
    have later : ¬['/', '*'] <:+: line := fun inside =>
      unopened (inside.trans (List.suffix_cons c line).isInfix)
    rw [Bool.eq_false_iff.mpr here, ih later, Bool.or_false]
  | case3 c line found rest read shorter ih =>
    have suffix := skipsStrings_blockComments.suffix _ _ _ read
    exact ih fun inside => unopened (inside.trans suffix.isInfix)
  | case4 c line found rest read longer ih =>
    exact ih fun inside => unopened (inside.trans (List.suffix_cons c line).isInfix)

/-! A line comment in a text -/

theorem SkipsStrings.replaceAll_plain {read : Text → Option (Text × Text)}
    (skips : SkipsStrings read) {front : Text} (unquoted : '"' ∉ front) (slashless : '/' ∉ front)
    (rest : Text) : replaceAll read (front ++ rest) = front ++ replaceAll read rest := by
  induction front with
  | nil => rfl
  | cons c front ih =>
    rw [List.mem_cons, not_or] at unquoted slashless
    have refused := skips.other c (front ++ rest) (Ne.symm unquoted.1) (Ne.symm slashless.1)
    rw [List.cons_append, replaceAll_cons refused, ih unquoted.2 slashless.2, List.cons_append]

/-- A slash that no star follows begins no block comment. -/
theorem stringOrBlockComment?_slash {text : Text} (starless : text.head? ≠ some '*') :
    stringOrBlockComment? ('/' :: text) = none := by
  unfold stringOrBlockComment?
  split
  · next rest same =>
    rw [(List.cons.inj same).2, List.head?_cons] at starless
    exact absurd rfl starless
  · exact string?_eq_none (by decide) text

theorem stripBlockComments_slash {text : Text} (starless : text.head? ≠ some '*') :
    stripBlockComments ('/' :: text) = '/' :: stripBlockComments text :=
  replaceAll_cons (stringOrBlockComment?_slash starless)

theorem stringOrLineComment?_slash {text : Text} (single : text.head? ≠ some '/') :
    stringOrLineComment? ('/' :: text) = none := by
  unfold stringOrLineComment?
  split
  · next rest same =>
    rw [(List.cons.inj same).2, List.head?_cons] at single
    exact absurd rfl single
  · exact string?_eq_none (by decide) text

theorem stripLineComments_lineComment (text : Text) :
    stripLineComments ('/' :: '/' :: text) = stripLineComments (text.dropWhile (· ≠ '\n')) := by
  have shorter := (List.dropWhile_sublist (fun c => decide (c ≠ '\n')) (l := text)).length_le
  rw [stripLineComments, replaceAll]
  simp only [stringOrLineComment?]
  exact if_pos (Nat.le_succ_of_le shorter)

theorem dropWhile_append_of_single {lead : Text} (single : '\n' ∉ lead) (rest : Text) :
    (lead ++ rest).dropWhile (· ≠ '\n') = rest.dropWhile (· ≠ '\n') := by
  refine List.dropWhile_append_of_pos fun c inside => decide_eq_true ?_
  rintro rfl
  exact single inside

section

variable {front comment : Text} (unquoted : '"' ∉ front) (slashless : '/' ∉ front)
include unquoted slashless

/-- The block comment that begins with the second slash takes all up to its end, and the first
slash is left. -/
theorem stripComments_blockAtSlashes {back rest : Text}
    (taken : blockAtSlashes? comment back = some rest) :
    stripComments (front ++ '/' :: '/' :: comment ++ '\n' :: back) =
      front ++ '/' :: ' ' :: stripComments rest := by
  obtain ⟨more, rfl, closed⟩ : ∃ more, comment = '*' :: more ∧
      afterBlockComment? (more ++ '\n' :: back) = some rest := by
    unfold blockAtSlashes? at taken
    split at taken
    · exact ⟨_, rfl, taken⟩
    · cases taken
  have read : stringOrBlockComment? ('/' :: '*' :: (more ++ '\n' :: back)) =
      some ([' '], rest) := by
    rw [stringOrBlockComment?, closed, Option.map_some]
  have blocks : stripBlockComments (front ++ '/' :: '/' :: '*' :: more ++ '\n' :: back) =
      front ++ '/' :: ' ' :: stripBlockComments rest := by
    rw [List.append_assoc, stripBlockComments,
      skipsStrings_blockComments.replaceAll_plain unquoted slashless]
    refine congrArg (front ++ ·) ((stripBlockComments_slash (by simp)).trans ?_)
    exact congrArg ('/' :: ·) (stripBlockComments_of_read read)
  have blank : stripLineComments (' ' :: stripBlockComments rest) = ' ' :: stripComments rest :=
    replaceAll_cons (skipsStrings_lineComments.other ' ' _ (by decide) (by decide))
  rw [stripComments, blocks, stripLineComments,
    skipsStrings_lineComments.replaceAll_plain unquoted slashless]
  refine congrArg (front ++ ·) ((replaceAll_cons (stringOrLineComment?_slash (by simp))).trans ?_)
  exact congrArg ('/' :: ·) blank

/-- Without such a block comment the line comment is still there, with what became of its text, when
line comments are removed. -/
theorem exists_stripComments_lineComment (single : '\n' ∉ comment) {back : Text}
    (untaken : blockAtSlashes? comment back = none) :
    ∃ lead : Text, '\n' ∉ lead ∧
      stripComments (front ++ '/' :: '/' :: comment ++ '\n' :: back) = front ++
        stripLineComments ((lead ++ (blockAcross? comment back).elim
          ('\n' :: stripBlockComments back)
          (' ' :: stripBlockComments ·)).dropWhile (· ≠ '\n')) := by
  obtain ⟨lead, within, same⟩ := exists_stripBlockComments_line single back
  refine ⟨lead, within, ?_⟩
  have second : stripBlockComments ('/' :: (comment ++ '\n' :: back)) =
      '/' :: stripBlockComments (comment ++ '\n' :: back) := by
    by_cases star : comment.head? = some '*'
    · obtain ⟨more, rfl⟩ := List.head?_eq_some_iff.mp star
      have refused : stringOrBlockComment? ('/' :: '*' :: (more ++ '\n' :: back)) = none := by
        rw [stringOrBlockComment?, Option.map_eq_none_iff]
        exact untaken
      exact replaceAll_cons refused
    · refine stripBlockComments_slash ?_
      cases comment with
      | nil => simp
      | cons c more => exact star
  have blocks : stripBlockComments (front ++ '/' :: '/' :: comment ++ '\n' :: back) =
      front ++ '/' :: '/' :: stripBlockComments (comment ++ '\n' :: back) := by
    rw [List.append_assoc, stripBlockComments,
      skipsStrings_blockComments.replaceAll_plain unquoted slashless]
    refine congrArg (front ++ ·) ((stripBlockComments_slash (by simp)).trans ?_)
    exact congrArg ('/' :: ·) second
  rw [stripComments, blocks, stripLineComments,
    skipsStrings_lineComments.replaceAll_plain unquoted slashless, ← same]
  exact congrArg (front ++ ·) (stripLineComments_lineComment _)

/-- When no block comment goes on behind its line, exactly the line comment is removed. -/
theorem stripComments_lineComment_closed (single : '\n' ∉ comment) {back : Text}
    (untaken : blockAtSlashes? comment back = none) (uncrossed : blockAcross? comment back = none) :
    stripComments (front ++ '/' :: '/' :: comment ++ '\n' :: back) =
      front ++ '\n' :: stripComments back := by
  obtain ⟨lead, within, same⟩ := exists_stripComments_lineComment unquoted slashless single untaken
  have newline : stripLineComments ('\n' :: stripBlockComments back) = '\n' :: stripComments back :=
    replaceAll_cons (skipsStrings_lineComments.other '\n' _ (by decide) (by decide))
  rw [same, dropWhile_append_of_single within, uncrossed, Option.elim_none, ← newline]
  rfl

/-- A block comment that goes on behind the line takes the rest of its last line with it. -/
theorem stripComments_blockAcross (single : '\n' ∉ comment) {back rest : Text}
    (untaken : blockAtSlashes? comment back = none)
    (crossed : blockAcross? comment back = some rest) :
    stripComments (front ++ '/' :: '/' :: comment ++ '\n' :: back) =
      front ++ stripLineComments ((stripBlockComments rest).dropWhile (· ≠ '\n')) := by
  obtain ⟨lead, within, same⟩ := exists_stripComments_lineComment unquoted slashless single untaken
  rw [same, dropWhile_append_of_single within, crossed, Option.elim_some]
  rfl

/-- A line comment in which no block comment begins, its own slashes included, is removed as it
stands, whatever else it holds. -/
theorem stripComments_lineComment_unopened (single : '\n' ∉ comment)
    (unopened : ¬['/', '*'] <:+: '/' :: comment) (back : Text) :
    stripComments (front ++ '/' :: '/' :: comment ++ '\n' :: back) =
      front ++ '\n' :: stripComments back := by
  have inner : ¬['/', '*'] <:+: comment := fun inside =>
    unopened (inside.trans (List.suffix_cons '/' comment).isInfix)
  refine stripComments_lineComment_closed unquoted slashless single ?_ ?_
  · unfold blockAtSlashes?
    split
    · next rest => exact absurd (List.prefix_append ['/', '*'] rest).isInfix unopened
    · rfl
  · rw [blockAcross?, leavesOpen_eq_false inner, if_neg (by decide)]

/-- What becomes of a line comment: it goes alone unless a block comment begins at its second slash
or within its line and ends behind it. Those take code with them. -/
theorem stripComments_lineComment (single : '\n' ∉ comment) (back : Text) :
    (blockAtSlashes? comment back = none → blockAcross? comment back = none →
      stripComments (front ++ '/' :: '/' :: comment ++ '\n' :: back) =
        front ++ '\n' :: stripComments back) ∧
    (∀ rest, blockAtSlashes? comment back = some rest →
      stripComments (front ++ '/' :: '/' :: comment ++ '\n' :: back) =
        front ++ '/' :: ' ' :: stripComments rest) ∧
    (∀ rest, blockAtSlashes? comment back = none → blockAcross? comment back = some rest →
      stripComments (front ++ '/' :: '/' :: comment ++ '\n' :: back) =
        front ++ stripLineComments ((stripBlockComments rest).dropWhile (· ≠ '\n'))) := by
  refine ⟨?_, ?_, ?_⟩
  · intro untaken uncrossed
    exact stripComments_lineComment_closed unquoted slashless single untaken uncrossed
  · intro rest taken
    exact stripComments_blockAtSlashes unquoted slashless taken
  · intro rest untaken crossed
    exact stripComments_blockAcross unquoted slashless single untaken crossed

end

/-- A path with a wildcard opens a block comment, and code behind the line goes with it. -/
theorem stripComments_wildcard :
    let front := "val x = 1 ".toList
    let comment := " see a/*.kt".toList
    let back := "val y = 2\n/* b */ val z = 3\n".toList
    let rest := " val z = 3\n".toList
    '"' ∉ front ∧ '/' ∉ front ∧ '\n' ∉ comment ∧ blockAtSlashes? comment back = none ∧
      blockAcross? comment back = some rest ∧
      stripComments (front ++ '/' :: '/' :: comment ++ '\n' :: back) =
        front ++ stripLineComments ((stripBlockComments rest).dropWhile (· ≠ '\n')) := by
  intro front comment back rest
  have unquoted : '"' ∉ front := by decide
  have slashless : '/' ∉ front := by decide
  have single : '\n' ∉ comment := by decide
  have untaken : blockAtSlashes? comment back = none := by decide
  have crossed : blockAcross? comment back = some rest := by decide +kernel
  obtain ⟨-, -, across⟩ := stripComments_lineComment unquoted slashless single back
  exact ⟨unquoted, slashless, single, untaken, crossed, across rest untaken crossed⟩

/-- A line of stars is a block comment from its second slash on. -/
theorem stripComments_banner :
    let banner := "//*****".toList
    let back := "val x = 1 /* a */\n".toList
    stripComments (banner ++ '\n' :: back) ≠ '\n' :: stripComments back := by
  decide +kernel

end DeclBridge.Kotlin
