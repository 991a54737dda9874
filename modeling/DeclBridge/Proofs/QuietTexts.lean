import DeclBridge.Proofs.TypeSpellings

/-! Texts in which no header begins. What comes behind a text is always given along with it, since a
keyword counts only together with the blank that follows it. -/

namespace DeclBridge.Kotlin.Syntax

open Text

/-! Quiet places -/

/-- Neither an adoption marker nor one of the words begins here. -/
structure IsQuietAt (words : List String) (text : Text) : Prop where
  unmarked : text.head? ≠ some '@'
  wordless : ∀ word ∈ words, keyword? word text = none

/-- All places of a text are quiet when it stands before `rest`. -/
def IsQuiet (words : List String) (rest : Text) : Text → Prop
  | [] => True
  | c :: text => IsQuietAt words (c :: text ++ rest) ∧ IsQuiet words rest text

instance (words : List String) (text : Text) : Decidable (IsQuietAt words text) :=
  decidable_of_iff (text.head? ≠ some '@' ∧ ∀ word ∈ words, keyword? word text = none)
    ⟨fun ⟨unmarked, wordless⟩ => ⟨unmarked, wordless⟩,
      fun quiet => ⟨quiet.unmarked, quiet.wordless⟩⟩

instance decidableIsQuiet (words : List String) (rest : Text) :
    (text : Text) → Decidable (IsQuiet words rest text)
  | [] => .isTrue trivial
  | c :: text =>
    have := decidableIsQuiet words rest text
    inferInstanceAs (Decidable (IsQuietAt words (c :: text ++ rest) ∧ IsQuiet words rest text))

namespace IsQuiet

variable {words : List String} {text other rest : Text}

theorem head (quiet : IsQuiet words rest text) (nonempty : text ≠ []) :
    IsQuietAt words (text ++ rest) := by
  obtain ⟨c, more, rfl⟩ := List.exists_cons_of_ne_nil nonempty
  exact quiet.1

theorem append (first : IsQuiet words (other ++ rest) text) (second : IsQuiet words rest other) :
    IsQuiet words rest (text ++ other) := by
  induction text with
  | nil => exact second
  | cons c text ih =>
    refine ⟨?_, ih first.2⟩
    have here := first.1
    rwa [← List.append_assoc] at here

theorem of_append (quiet : IsQuiet words rest (text ++ other)) : IsQuiet words rest other := by
  induction text with
  | nil => exact quiet
  | cons c text ih => exact ih quiet.2

theorem mono {fewer : List String} (quiet : IsQuiet words rest text) (fewerWords : fewer ⊆ words) :
    IsQuiet fewer rest text := by
  induction text with
  | nil => trivial
  | cons c text ih =>
    exact ⟨⟨quiet.1.unmarked, fun word member => quiet.1.wordless word (fewerWords member)⟩,
      ih quiet.2⟩

end IsQuiet

section

variable {words : List String} {text rest : Text}

/-- A word stands before a blank at no place of the text. -/
private theorem isQuietAt_of_apart (keywords : ∀ word ∈ words, IsWord word.toList)
    (nonempty : text ≠ []) (unmarked : '@' ∉ text) (ends : ∀ c ∈ rest.head?, isWordChar c = false)
    (apart : ∀ word ∈ words, ∀ more, text = word.toList ++ more →
      ∀ c ∈ (more ++ rest).head?, isBlank c = false) : IsQuietAt words (text ++ rest) := by
  constructor
  · rw [List.head?_append_of_ne_nil _ nonempty]
    exact fun head => unmarked (List.mem_of_head? head)
  · intro word member
    by_contra read
    obtain ⟨found, read⟩ := Option.ne_none_iff_exists'.mp read
    obtain ⟨more, same, c, head, blank⟩ :=
      exists_of_keyword?_append read (keywords word member).wordChars ends
    rw [apart word member more same c head] at blank
    cases blank

theorem isQuiet_of_marks (keywords : ∀ word ∈ words, IsWord word.toList)
    (marks : ∀ c ∈ text, isWordChar c = false ∧ c ≠ '@') : IsQuiet words rest text := by
  induction text with
  | nil => trivial
  | cons c text ih =>
    obtain ⟨⟨outside, unmarked⟩, others⟩ := List.forall_mem_cons.mp marks
    refine ⟨⟨by simpa using unmarked, fun word member => ?_⟩, ih others⟩
    by_contra read
    obtain ⟨found, read⟩ := Option.ne_none_iff_exists'.mp read
    obtain ⟨behind, same, -⟩ := exists_of_keyword? read
    have isWord := keywords word member
    obtain ⟨d, more, whole⟩ := List.exists_cons_of_ne_nil isWord.nonempty
    rw [whole] at same
    have inside := isWord.wordChars d (by simp [whole])
    rw [← (List.cons.inj same).1, outside] at inside
    cases inside

/-- A name is quiet unless one of the words is the end of it. -/
theorem isQuiet_of_word (keywords : ∀ word ∈ words, IsWord word.toList) (isWord : IsWord text)
    (apart : ∀ word ∈ words, ¬word.toList <:+ text)
    (ends : ∀ c ∈ rest.head?, isWordChar c = false) : IsQuiet words rest text := by
  obtain ⟨-, inside⟩ := isWord
  induction text with
  | nil => trivial
  | cons c text ih =>
    refine ⟨?_, ih (fun word member suffix => ?_) (List.forall_mem_cons.mp inside).2⟩
    · refine isQuietAt_of_apart keywords (by simp) ?_ ends fun word member more same d head => ?_
      · exact fun marked => absurd (inside '@' marked) (by decide)
      · cases more with
        | nil => exact absurd (by simp [same]) (apart word member)
        | cons e more =>
          rw [← Option.some.inj head]
          exact isBlank_of_isWordChar (inside e (by simp [same]))
    · exact apart word member (suffix.trans (List.suffix_cons c text))

/-- So is a text without blanks that no blank follows. -/
theorem isQuiet_of_ink (keywords : ∀ word ∈ words, IsWord word.toList)
    (ink : ∀ c ∈ text, isBlank c = false) (unmarked : '@' ∉ text)
    (ends : ∀ c ∈ rest.head?, isWordChar c = false ∧ isBlank c = false) :
    IsQuiet words rest text := by
  induction text with
  | nil => trivial
  | cons c text ih =>
    refine ⟨?_, ih (List.forall_mem_cons.mp ink).2 (List.not_mem_of_not_mem_cons unmarked)⟩
    refine isQuietAt_of_apart keywords (by simp) unmarked (fun d head => (ends d head).1) ?_
    intro word member more same d head
    cases more with
    | nil => exact (ends d head).2
    | cons e more =>
      rw [← Option.some.inj head]
      exact ink e (by simp [same])

theorem isWord_of_mem_modifiers : ∀ word ∈ modifiers, IsWord word.toList := by
  decide

theorem isWord_of_mem_headerWords : ∀ word ∈ headerWords, IsWord word.toList :=
  List.forall_mem_append.mpr ⟨isWord_of_mem_modifiers, by decide⟩

theorem isQuiet_marks (marks : Text) {rest : Text}
    (outside : ∀ c ∈ marks, isWordChar c = false ∧ c ≠ '@') : IsQuiet headerWords rest marks :=
  isQuiet_of_marks isWord_of_mem_headerWords outside

/-- A spelling is as quiet as its names. Behind each of them there is a mark or the end. -/
private theorem isQuiet_of_names {ends : Char → Prop}
    (keywords : ∀ word ∈ words, IsWord word.toList)
    (names : ∀ (name : Identifier) (rest : Text), (∀ c ∈ rest.head?, ends c) →
      IsQuiet words rest name.text)
    (marks : ∀ mark ∈ ['.', '<', '>', ')', '?', ','], ends mark) {isList : Bool}
    (spelling : Spelling isList text) (ended : ∀ c ∈ rest.head?, ends c) :
    IsQuiet words rest text := by
  have quiet {rest : Text} (marks : Text) (outside : ∀ c ∈ marks, isWordChar c = false ∧ c ≠ '@') :
      IsQuiet words rest marks := isQuiet_of_marks keywords outside
  have head (mark : Char) (member : mark ∈ ['.', '<', '>', ')', '?', ',']) (rest : Text) :
      ∀ c ∈ (mark :: rest).head?, ends c := by
    rintro _ ⟨⟩
    exact marks mark member
  induction spelling generalizing rest with
  | word name => exact names name rest ended
  | @dotted _ _ second _ _ front back =>
    rw [List.append_cons]
    have point : IsQuiet words (second ++ rest) ['.'] := quiet ['.'] (by decide)
    exact ((front (head '.' (by simp) _)).append point).append (back ended)
  | @generic _ text arguments _ _ front within =>
    have opened : IsQuiet words ((arguments ++ ['>']) ++ rest) (text ++ ['<']) :=
      (front (head '<' (by simp) _)).append (quiet ['<'] (by decide))
    have closed := (within (head '>' (by simp) rest)).append (quiet ['>'] (by decide))
    simpa using opened.append closed
  | nullary _ result =>
    have front := (quiet "() -> ".toList (by decide)).append (result ended)
    simpa using front
  | @function _ parameters text _ _ within result =>
    have arrow := (quiet ") -> ".toList (by decide)).append (result ended)
    have opened := (quiet ['('] (by decide)).append ((within (head ')' (by simp) _)).append arrow)
    simpa using opened
  | nullable _ front => exact (front (head '?' (by simp) _)).append (quiet ['?'] (by decide))
  | @listed _ others _ _ front back =>
    have comma : IsQuiet words (others ++ rest) [',', ' '] := quiet [',', ' '] (by decide)
    exact ((front (head ',' (by simp) _)).append comma).append (back ended)

theorem isQuiet_of_spelling {isList : Bool} (spelling : Spelling isList text)
    (ends : ∀ c ∈ rest.head?, isWordChar c = false) : IsQuiet headerWords rest text := by
  refine isQuiet_of_names isWord_of_mem_headerWords (fun name rest ends => ?_) ?_ spelling ends
  · exact isQuiet_of_word isWord_of_mem_headerWords name.word name.apart ends
  · decide

/-- No name in a spelling stands before a blank. Unless the spelling does, it does not matter how
its names end. -/
theorem isQuiet_of_spelling_ink {isList : Bool} (spelling : Spelling isList text)
    (keywords : ∀ word ∈ words, IsWord word.toList)
    (ends : ∀ c ∈ rest.head?, isWordChar c = false ∧ isBlank c = false) :
    IsQuiet words rest text := by
  refine isQuiet_of_names keywords (fun name rest ends => ?_) ?_ spelling ends
  · have ink : ∀ c ∈ name.text, isBlank c = false :=
      fun c inside => isBlank_of_isWordChar (name.word.wordChars c inside)
    exact isQuiet_of_ink keywords ink (name.word.not_mem (by decide)) ends
  · decide

end

/-! Header readers -/

theorem literal?_eq_none {text : Text} (unmarked : text.head? ≠ some '@') :
    literal? "@" text = none := by
  cases text with
  | nil => rfl
  | cons c text =>
    have differs : '@' ≠ c := by
      rintro rfl
      exact unmarked rfl
    simp [literal?, behind?, differs]

theorem marked?_of_unmarked {names : List String} {header? : Text → Option (α × Text)} {text : Text}
    (unmarked : text.head? ≠ some '@') :
    marked? names header? text = (header? text).map fun (header, rest) => (⟨0, header⟩, rest) := by
  have absent := literal?_eq_none unmarked
  have nameless : names.findSome? (fun _ => (none : Option Text)) = none :=
    List.findSome?_eq_none_iff.mpr fun _ _ => rfl
  have refused : afterMarker? names text = none := by
    simp [afterMarker?, absent, nameless]
  simp [marked?, refused]

/-- Answers at no quiet place. -/
def Refuses (words : List String) (read : Lookbehind α) : Prop :=
  ∀ before text, IsQuietAt words text → read before text = none

namespace IsQuietAt

variable {words : List String} {text : Text}

theorem oneKeyword?_eq_none (quiet : IsQuietAt words text) {some : List String}
    (member : some ⊆ words) : oneKeyword? some text = none :=
  Text.oneKeyword?_eq_none fun word inside => quiet.wordless word (member inside)

theorem skipModifiers_eq (quiet : IsQuietAt words text) (member : modifiers ⊆ words) :
    skipModifiers text = text := by
  rw [skipModifiers, many_of_refused (quiet.oneKeyword?_eq_none member)]

end IsQuietAt

private theorem refuses_marked {words names : List String} {header? : Text → Option (α × Text)}
    (refused : ∀ text, IsQuietAt words text → header? text = none) :
    Refuses words fun _ => marked? names header? := by
  intro before text quiet
  dsimp only
  rw [marked?_of_unmarked quiet.unmarked, refused text quiet, Option.map_none]

theorem refuses_sealed (names : List String) :
    Refuses (modifiers ++ ["sealed"]) fun _ => marked? names sealedHeader? := by
  refine refuses_marked fun text quiet => ?_
  have absent : keyword? "sealed" text = none := quiet.wordless "sealed" (by simp)
  simp [sealedHeader?, quiet.skipModifiers_eq (by simp), absent]

theorem refuses_suspend (names : List String) :
    Refuses (modifiers ++ ["suspend"]) fun _ => marked? names suspendHeader? := by
  refine refuses_marked fun text quiet => ?_
  have absent : keyword? "suspend" text = none := quiet.wordless "suspend" (by simp)
  simp [suspendHeader?, quiet.skipModifiers_eq (by simp), absent]

theorem refuses_anyFunction (names : List String) :
    Refuses (modifiers ++ ["suspend", "fun"]) fun _ => marked? names anyFunctionHeader? := by
  refine refuses_marked fun text quiet => ?_
  have suspends : keyword? "suspend" text = none := quiet.wordless "suspend" (by simp)
  have absent : keyword? "fun" text = none := quiet.wordless "fun" (by simp)
  have whole : skipModifiers text = text := quiet.skipModifiers_eq (by simp)
  simp [anyFunctionHeader?, functionHeader?, whole, suspends, absent]

theorem refuses_flowProperty (names : List String) :
    Refuses (modifiers ++ ["val", "var"]) fun _ => marked? names flowPropertyHeader? := by
  refine refuses_marked fun text quiet => ?_
  have absent : oneKeyword? ["val", "var"] text = none := quiet.oneKeyword?_eq_none (by simp)
  simp [flowPropertyHeader?, quiet.skipModifiers_eq (by simp), absent]

theorem refuses_type : Refuses ["class", "interface", "object"] typeHeader? := by
  intro before text quiet
  have absent : oneKeyword? ["class", "interface", "object"] text = none :=
    quiet.oneKeyword?_eq_none (by simp)
  simp [typeHeader?, absent]

/-! What stands at the start of a function and of a class -/

theorem keyword?_eq_none {word other : String} (isWord : IsWord word.toList)
    (isOther : IsWord other.toList) (apart : ¬other.toList <:+ word.toList) (rest : Text) :
    keyword? other (word.toList ++ ' ' :: rest) = none := by
  have quiet : IsQuiet [other] (' ' :: rest) word.toList :=
    isQuiet_of_word (by simpa using isOther) isWord (by simpa using apart)
      (outside_head (by decide) rest)
  exact (quiet.head isWord.nonempty).wordless other (by simp)

/-- A word that is no modifier stays in place. -/
theorem skipModifiers_keyword {word : String} (isWord : IsWord word.toList)
    (apart : ∀ modifier ∈ modifiers, ¬modifier.toList <:+ word.toList) (rest : Text) :
    skipModifiers (word.toList ++ ' ' :: rest) = word.toList ++ ' ' :: rest := by
  have refused : oneKeyword? modifiers (word.toList ++ ' ' :: rest) = none :=
    oneKeyword?_eq_none fun modifier member =>
      keyword?_eq_none isWord (isWord_of_mem_modifiers modifier member) (apart modifier member) rest
  rw [skipModifiers, many_of_refused refused]

/-- A word of a list is found when none of the others is the end of it. -/
theorem oneKeyword?_keyword {words : List String} {word : String} {rest : Text}
    (member : word ∈ words) (keywords : ∀ word ∈ words, IsWord word.toList)
    (apart : ∀ other ∈ words, other ≠ word → ¬other.toList <:+ word.toList)
    (ink : ∀ c ∈ rest.head?, isBlank c = false) :
    oneKeyword? words (word.toList ++ ' ' :: rest) = some (word, rest) := by
  have isWord := keywords word member
  have found : keyword? word (word.toList ++ ' ' :: rest) = some rest := keyword?_append ink
  induction words with
  | nil => cases member
  | cons other words ih =>
    rw [oneKeyword?, List.findSome?_cons]
    by_cases same : other = word
    · rw [same, found]
      rfl
    · have absent : keyword? other (word.toList ++ ' ' :: rest) = none :=
        keyword?_eq_none isWord (keywords other (by simp)) (apart other (by simp) same) rest
      rw [absent]
      exact ih (List.mem_of_ne_of_mem (Ne.symm same) member)
        (fun word member => keywords word (List.mem_cons_of_mem _ member))
        (fun word member => apart word (List.mem_cons_of_mem _ member))

namespace Identifier

variable (name : Identifier) (rest : Text)

theorem head_ink : ∀ c ∈ (name.text ++ rest).head?, isBlank c = false := by
  rw [List.head?_append_of_ne_nil _ name.word.nonempty]
  exact fun c head => isBlank_of_isWordChar (name.word.wordChars c (List.mem_of_head? head))

theorem word?_text {mark : Char} (outside : isWordChar mark = false) :
    word? (name.text ++ mark :: rest) = some (name.text, mark :: rest) :=
  run?_append name.word.nonempty name.word.wordChars (outside_head outside rest)

end Identifier

theorem functionHeader?_lead (name : Identifier) (rest : Text) :
    functionHeader? ("fun ".toList ++ (name.text ++ '(' :: rest)) =
      some (⟨[], name.text⟩, rest) := by
  have keyword : keyword? "fun" ("fun ".toList ++ (name.text ++ '(' :: rest)) =
      some (name.text ++ '(' :: rest) := keyword?_append (name.head_ink _)
  have generic : simpleClause? (name.text ++ '(' :: rest) = none := by
    obtain ⟨c, more, same⟩ := List.exists_cons_of_ne_nil name.word.nonempty
    have differs : '<' ≠ c := by
      rintro rfl
      exact absurd (name.word.wordChars '<' (by simp [same])) (by decide)
    simp [simpleClause?, literal?, behind?, same, differs]
  have mark : mark? '(' ('(' :: rest) = some rest := by
    simp [mark?, skipBlanks, show isBlank '(' = false from rfl]
  have read : word? (name.text ++ '(' :: rest) = some (name.text, '(' :: rest) :=
    name.word?_text rest (by decide)
  simp [-String.reduceToList, functionHeader?, keyword, generic, read, mark]

/-! Functions without modifiers begin with a keyword. -/

section

variable (names : List String) (rest : Text)

private theorem skipModifiers_fun :
    skipModifiers ("fun ".toList ++ rest) = "fun ".toList ++ rest :=
  skipModifiers_keyword (show IsWord "fun".toList by decide) (by decide) rest

private theorem skipModifiers_suspend :
    skipModifiers ("suspend ".toList ++ rest) = "suspend ".toList ++ rest :=
  skipModifiers_keyword (show IsWord "suspend".toList by decide) (by decide) rest

private theorem keyword?_suspend :
    keyword? "suspend" ("suspend ".toList ++ ("fun ".toList ++ rest)) =
      some ("fun ".toList ++ rest) :=
  keyword?_append (by simp; decide)

theorem marked?_suspend :
    marked? names suspendHeader? ("suspend ".toList ++ ("fun ".toList ++ rest)) =
      (functionHeader? ("fun ".toList ++ rest)).map fun (header, rest) => (⟨0, header⟩, rest) := by
  rw [marked?_of_unmarked (by simp), suspendHeader?, skipModifiers_suspend, keyword?_suspend]
  simp only [Option.bind_eq_bind, Option.bind_some, skipModifiers_fun]

theorem marked?_anyFunction_suspend :
    marked? names anyFunctionHeader? ("suspend ".toList ++ ("fun ".toList ++ rest)) =
      (functionHeader? ("fun ".toList ++ rest)).map fun (header, rest) =>
        (⟨0, true, header⟩, rest) := by
  rw [marked?_of_unmarked (by simp), anyFunctionHeader?, skipModifiers_suspend, keyword?_suspend]
  simp only [Option.bind_eq_bind, skipModifiers_fun]
  cases functionHeader? ("fun ".toList ++ rest) <;> rfl

theorem marked?_anyFunction :
    marked? names anyFunctionHeader? ("fun ".toList ++ rest) =
      (functionHeader? ("fun ".toList ++ rest)).map fun (header, rest) =>
        (⟨0, false, header⟩, rest) := by
  have plain : keyword? "suspend" ("fun ".toList ++ rest) = none :=
    keyword?_eq_none (show IsWord "fun".toList by decide) (by decide) (by decide) rest
  rw [marked?_of_unmarked (by simp), anyFunctionHeader?, skipModifiers_fun, plain]
  simp only [Option.bind_eq_bind, skipModifiers_fun]
  cases functionHeader? ("fun ".toList ++ rest) <;> rfl

end

section

variable (names : List String) (name : Identifier) (rest : Text)

private theorem suspendFun_append (rest : Text) :
    "suspend fun ".toList ++ rest = "suspend ".toList ++ ("fun ".toList ++ rest) :=
  rfl

theorem suspendHeader?_lead :
    marked? names suspendHeader? ("suspend fun ".toList ++ (name.text ++ '(' :: rest)) =
      some (⟨0, ⟨[], name.text⟩⟩, rest) := by
  rw [suspendFun_append, marked?_suspend, functionHeader?_lead, Option.map_some]

theorem anyFunctionHeader?_suspend :
    marked? names anyFunctionHeader? ("suspend fun ".toList ++ (name.text ++ '(' :: rest)) =
      some (⟨0, true, ⟨[], name.text⟩⟩, rest) := by
  rw [suspendFun_append, marked?_anyFunction_suspend, functionHeader?_lead, Option.map_some]

theorem anyFunctionHeader?_fun :
    marked? names anyFunctionHeader? ("fun ".toList ++ (name.text ++ '(' :: rest)) =
      some (⟨0, false, ⟨[], name.text⟩⟩, rest) := by
  rw [marked?_anyFunction, functionHeader?_lead, Option.map_some]

theorem typeHeader?_lead {before : Option Char} (boundary : atBoundary before = true) :
    typeHeader? before ("class ".toList ++ (name.text ++ ' ' :: rest)) =
      some (name.text, ' ' :: rest) := by
  have keyword : keyword? "class" ("class".toList ++ ' ' :: (name.text ++ ' ' :: rest)) =
      some (name.text ++ ' ' :: rest) := keyword?_append (name.head_ink _)
  have read : oneKeyword? ["class", "interface", "object"]
      ("class ".toList ++ (name.text ++ ' ' :: rest)) =
      some ("class", name.text ++ ' ' :: rest) := by
    rw [oneKeyword?, List.findSome?_cons,
      show "class ".toList ++ (name.text ++ ' ' :: rest) =
        "class".toList ++ ' ' :: (name.text ++ ' ' :: rest) from rfl, keyword]
    rfl
  rw [typeHeader?, if_pos boundary, read]
  exact name.word?_text rest (by decide)

end

/-! Searching -/

theorem occurrencesFrom_quiet {words : List String} {read : Lookbehind α}
    (refuses : Refuses words read) {text rest : Text} (quiet : IsQuiet words rest text)
    (offset : Nat) (before : Option Char) :
    occurrencesFrom read offset before (text ++ rest) =
      occurrencesFrom read (offset + text.length) (lastFrom before text) rest := by
  induction text generalizing offset before with
  | nil => rfl
  | cons c text ih =>
    have refused : read before (c :: (text ++ rest)) = none := refuses before _ quiet.1
    rw [List.cons_append, occurrencesFrom, refused, lastFrom, List.length_cons,
      Nat.add_comm text.length 1, ← Nat.add_assoc]
    exact ih quiet.2 (offset + 1) (some c)

theorem occurrencesFrom_found {read : Lookbehind α} {before : Option Char} {lead rest : Text}
    {item : α} (nonempty : lead ≠ []) (found : read before (lead ++ rest) = some (item, rest))
    (offset : Nat) :
    occurrencesFrom read offset before (lead ++ rest) =
      ⟨offset, offset + lead.length, item, rest⟩ ::
        occurrencesFrom read (offset + lead.length) lead.getLast? rest := by
  obtain ⟨c, more, rfl⟩ := List.exists_cons_of_ne_nil nonempty
  have used : (c :: (more ++ rest)).take ((more ++ rest).length + 1 - rest.length) = c :: more := by
    rw [List.length_append, ← List.cons_append, Nat.add_right_comm, Nat.add_sub_cancel]
    exact List.take_left' rfl
  rw [List.cons_append] at found ⊢
  rw [occurrencesFrom, found]
  simp only
  rw [if_pos (by simp), used]

/-- A reader that does not look back can start anywhere. -/
theorem occurrencesFrom_before (read : Text → Option (α × Text)) (offset : Nat)
    (before other : Option Char) (text : Text) :
    occurrencesFrom (fun _ => read) offset before text =
      occurrencesFrom (fun _ => read) offset other text := by
  cases text with
  | nil => rw [occurrencesFrom, occurrencesFrom]
  | cons c text => rw [occurrencesFrom, occurrencesFrom]

end DeclBridge.Kotlin.Syntax
