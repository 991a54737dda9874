import DeclBridge.Proofs.EnclosedScopes

/-! Class references. The keyword at the end of `Foo::class` begins a type header like any other,
and the header goes on over the line break: the first word of the next line is taken for the name
of a type. That changes nothing as long as no body follows that word. When it is itself a type
keyword, its own header is lost, so no body may follow the next word either. -/

namespace DeclBridge.Kotlin

open Text Syntax

def typeKeywords : List Text :=
  ["class".toList, "interface".toList, "object".toList]

/-- The texts behind the words that a type keyword in front of a text may name a type after. These
are the first word and, as long as they are type keywords themselves, the words behind it. -/
def leadingNames (text : Text) : List Text :=
  match _first : word? (skipBlanks text) with
  | none => []
  | some (word, rest) => rest :: if word ∈ typeKeywords then leadingNames rest else []
termination_by text.length
decreasing_by
  have shorter := (length_run? _first).2
  have skipped := length_skipBlanks_le text
  omega

/-- No type that is named after one of the first words of a text has a body. -/
def LeadsNoBody (masked : Text) : Prop :=
  ∀ rest ∈ leadingNames masked, bodyOffset masked (masked.length - rest.length) = none

instance (masked : Text) : Decidable (LeadsNoBody masked) :=
  inferInstanceAs (Decidable (∀ rest ∈ leadingNames masked, _))

/-! Words -/

section

variable {text word rest : Text} (read : word? text = some (word, rest))
include read

theorem outside_of_word? : ∀ c ∈ rest.head?, isWordChar c = false := by
  obtain ⟨-, -, rfl⟩ := run?_eq_some_iff.mp read
  intro c head
  have ends := List.head?_dropWhile_not isWordChar text
  rw [head] at ends
  simpa using ends

theorem keyword?_of_word? (keyword : String) (isWord : IsWord keyword.toList) :
    keyword? keyword text = if word = keyword.toList then gap? rest else none := by
  have whole := append_of_word? read
  split
  · next same =>
    rw [← whole, same, keyword?, literal?_append]
    rfl
  · next differs =>
    by_contra found
    obtain ⟨last, found⟩ := Option.ne_none_iff_exists'.mp found
    obtain ⟨behind, same, d, head, blank⟩ := exists_of_keyword? found
    have ends : ∀ c ∈ behind.head?, isWordChar c = false := by
      intro c inside
      obtain rfl : d = c := Option.some.inj (head.symm.trans inside)
      exact isWordChar_of_isBlank blank
    have other : word? (keyword.toList ++ behind) = some (keyword.toList, behind) :=
      run?_append isWord.nonempty isWord.wordChars ends
    rw [← same, read] at other
    exact differs (Prod.mk.inj (Option.some.inj other)).1

/-- Without a gap behind a word no other word follows it. -/
theorem bind_gap?_word? : (gap? rest).bind word? = word? (skipBlanks rest) := by
  have ends := outside_of_word? read
  cases rest with
  | nil => rfl
  | cons c more =>
    cases blank : isBlank c with
    | true => simp [gap?, run?, blank, skipBlanks]
    | false =>
      have outside : isWordChar c = false := ends c rfl
      simp [gap?, run?, blank, skipBlanks, word?, outside]

/-- A header whose keyword is the first word of a text names a type after the next word. -/
theorem typeHeader?_of_word? {before : Option Char} (boundary : atBoundary before = true) :
    typeHeader? before text =
      if word ∈ typeKeywords then word? (skipBlanks rest) else none := by
  have first := keyword?_of_word? read "class" (by decide)
  have second := keyword?_of_word? read "interface" (by decide)
  have third := keyword?_of_word? read "object" (by decide)
  rw [typeHeader?, if_pos boundary, ← bind_gap?_word? read, oneKeyword?]
  simp only [List.findSome?_cons, List.findSome?_nil, first, second, third, typeKeywords,
    List.mem_cons, List.not_mem_nil, or_false]
  by_cases isClass : word = "class".toList
  · subst isClass
    cases gap? rest <;> rfl
  by_cases isInterface : word = "interface".toList
  · subst isInterface
    cases gap? rest <;> rfl
  by_cases isObject : word = "object".toList
  · subst isObject
    cases gap? rest <;> rfl
  · rw [if_neg isClass, if_neg isInterface, if_neg isObject]
    simp only [isClass, isInterface, isObject, or_self, if_false]
    rfl

end

/-! Searching for type headers -/

/-- No type header begins within a name or at a mark. -/
theorem occurrencesFrom_word {before : Option Char} {word rest : Text} (isWord : IsWord word)
    (refused : typeHeader? before (word ++ rest) = none) (offset : Nat) :
    occurrencesFrom typeHeader? offset before (word ++ rest) =
      occurrencesFrom typeHeader? (offset + word.length) word.getLast? rest := by
  have within (last : Char) (letter : isWordChar last = true) {more : Text}
      (letters : ∀ c ∈ more, isWordChar c = true) (offset : Nat) :
      occurrencesFrom typeHeader? offset (some last) (more ++ rest) =
        occurrencesFrom typeHeader? (offset + more.length) (last :: more).getLast? rest := by
    induction more generalizing last offset with
    | nil => rfl
    | cons c more ih =>
      obtain ⟨here, later⟩ := List.forall_mem_cons.mp letters
      have refused : typeHeader? (some last) (c :: (more ++ rest)) = none := by
        simp [typeHeader?, atBoundary, letter]
      rw [List.cons_append, occurrencesFrom_refused refused, ih c here later, List.length_cons,
        List.getLast?_cons_cons, Nat.add_assoc, Nat.add_comm 1]
  obtain ⟨c, more, rfl⟩ := List.exists_cons_of_ne_nil isWord.nonempty
  obtain ⟨here, later⟩ := List.forall_mem_cons.mp isWord.wordChars
  rw [List.cons_append] at refused
  rw [List.cons_append, occurrencesFrom_refused refused, within c here later, List.length_cons,
    Nat.add_assoc, Nat.add_comm 1]

theorem lastFrom_of_ne_nil {text : Text} (nonempty : text ≠ []) (before : Option Char) :
    lastFrom before text = text.getLast? := by
  obtain ⟨c, more, rfl⟩ := List.exists_cons_of_ne_nil nonempty
  exact lastFrom_getLast? [c] more

/-- The first word of a text does not go on a name in front of it. -/
def Begins (before : Option Char) (text : Text) : Prop :=
  atBoundary before = true ∨ ∀ c ∈ text.head?, isWordChar c = false

/-- Blanks in front of a word are passed over. -/
theorem exists_occurrencesFrom_skipBlanks {before : Option Char} {text : Text}
    (begins : Begins before text) {word rest : Text}
    (read : word? (skipBlanks text) = some (word, rest)) (offset : Nat) :
    ∃ last, atBoundary last = true ∧ occurrencesFrom typeHeader? offset before text =
      occurrencesFrom typeHeader? (offset + (text.length - (skipBlanks text).length)) last
        (skipBlanks text) := by
  obtain ⟨blanks, whole, blank⟩ : ∃ blanks : Text, blanks ++ skipBlanks text = text ∧
      ∀ c ∈ blanks, isBlank c = true :=
    ⟨text.takeWhile isBlank, List.takeWhile_append_dropWhile, fun _ => List.mem_takeWhile_imp⟩
  have quiet : IsQuiet ["class", "interface", "object"] (skipBlanks text) blanks := by
    refine isQuiet_of_marks (by decide) fun c inside => ⟨isWordChar_of_isBlank (blank c inside), ?_⟩
    rintro rfl
    exact absurd (blank _ inside) (by decide)
  have passed := occurrencesFrom_quiet refuses_type quiet offset before
  have length : text.length - (skipBlanks text).length = blanks.length := by
    have sum := congrArg List.length whole
    rw [List.length_append] at sum
    omega
  rw [whole] at passed
  refine ⟨lastFrom before blanks, ?_, by rw [passed, length]⟩
  cases blanks with
  | nil =>
    rcases begins with boundary | outside
    · exact boundary
    · have isWord := isWord_of_word? read
      obtain ⟨c, more, same⟩ := List.exists_cons_of_ne_nil isWord.nonempty
      have letter := isWord.wordChars c (by simp [same])
      have head : text.head? = some c := by
        rw [← whole, ← append_of_word? read, same]
        rfl
      rw [outside c head] at letter
      cases letter
  | cons c more =>
    rw [lastFrom_of_ne_nil (by simp), List.getLast?_eq_some_getLast (by simp)]
    have last := isWordChar_of_isBlank (blank _ (List.getLast_mem (by simp)))
    simp [atBoundary, last]

/-- The types with a body that are found in the last part of a text. -/
def typesFrom (masked : Text) (before : Option Char) (text : Text) : List TypeHeader :=
  (occurrencesFrom typeHeader? (masked.length - text.length) before text).filterMap
    (typeHeaderAt masked)

section

variable {masked text word rest : Text} {before : Option Char}
  (part : text.length ≤ masked.length) (begins : Begins before text)
  (read : word? (skipBlanks text) = some (word, rest))
include part begins read

/-- A word that begins no header is passed over. -/
theorem typesFrom_of_refused
    (refused : (if word ∈ typeKeywords then word? (skipBlanks rest) else none) = none) :
    typesFrom masked before text = typesFrom masked word.getLast? rest := by
  obtain ⟨last, boundary, skipped⟩ :=
    exists_occurrencesFrom_skipBlanks begins read (masked.length - text.length)
  have whole := append_of_word? read
  have length := congrArg List.length whole
  rw [← typeHeader?_of_word? read boundary, ← whole] at refused
  have passed := occurrencesFrom_word (isWord_of_word? read) refused
    (masked.length - text.length + (text.length - (skipBlanks text).length))
  have shorter := length_skipBlanks_le text
  have offset : masked.length - text.length + (text.length - (skipBlanks text).length) +
      word.length = masked.length - rest.length := by
    rw [List.length_append] at length
    omega
  rw [whole, offset] at passed
  rw [typesFrom, skipped, passed]
  rfl

/-- A header is found at its keyword, and the search goes on behind the name. -/
theorem exists_typesFrom_of_found {name behind : Text}
    (found : (if word ∈ typeKeywords then word? (skipBlanks rest) else none) =
      some (name, behind)) :
    ∃ start < masked.length - rest.length, typesFrom masked before text =
      (typeHeaderAt masked ⟨start, masked.length - behind.length, name, behind⟩).toList ++
        typesFrom masked name.getLast? behind := by
  obtain ⟨last, boundary, skipped⟩ :=
    exists_occurrencesFrom_skipBlanks begins read (masked.length - text.length)
  have whole := append_of_word? read
  have next : word? (skipBlanks rest) = some (name, behind) := by
    split at found
    · exact found
    · cases found
  rw [← typeHeader?_of_word? read boundary] at found
  obtain ⟨gap, same⟩ : ∃ gap : Text, gap ++ (name ++ behind) = rest := by
    rw [append_of_word? next]
    exact ⟨rest.takeWhile isBlank, List.takeWhile_append_dropWhile⟩
  have lead : skipBlanks text = word ++ gap ++ name ++ behind := by simp [← whole, ← same]
  have nonempty : name ≠ [] := (isWord_of_word? next).nonempty
  have shorter := length_skipBlanks_le text
  have length := congrArg List.length lead
  have size := congrArg List.length whole
  have positive := List.length_pos_iff.mpr (isWord_of_word? read).nonempty
  simp only [List.length_append] at length size
  refine ⟨masked.length - text.length + (text.length - (skipBlanks text).length), by omega, ?_⟩
  rw [lead] at found
  have stop : masked.length - text.length + (text.length - (skipBlanks text).length) +
      (word ++ gap ++ name).length = masked.length - behind.length := by
    simp only [List.length_append]
    omega
  have last : (word ++ gap ++ name).getLast? = name.getLast? := by
    rw [List.getLast?_append, List.getLast?_eq_some_getLast nonempty, Option.some_or]
  have here := occurrencesFrom_found (by simp [nonempty]) found
    (masked.length - text.length + (text.length - (skipBlanks text).length))
  rw [stop, last, ← lead] at here
  rw [typesFrom, skipped, here, List.filterMap_cons]
  cases typeHeaderAt masked ⟨_, masked.length - behind.length, name, behind⟩ <;> rfl

end

/-- What stands behind the first words of a text is shorter. -/
theorem length_of_word?_skipBlanks {text word rest : Text}
    (read : word? (skipBlanks text) = some (word, rest)) : rest.length < text.length := by
  have shorter := (length_run? read).2
  have skipped := length_skipBlanks_le text
  omega

theorem leadingNames_eq {text : Text} : leadingNames text =
    (word? (skipBlanks text)).elim [] fun found =>
      found.2 :: if found.1 ∈ typeKeywords then leadingNames found.2 else [] := by
  rw [leadingNames]
  split
  · next refused => rw [refused]; rfl
  · next word rest read => rw [read]; rfl

theorem typesFrom_start {masked text : Text} {before : Option Char} {header : TypeHeader}
    (member : header ∈ typesFrom masked before text) :
    masked.length - text.length ≤ header.start := by
  obtain ⟨place, found, same⟩ := List.mem_filterMap.mp member
  obtain ⟨body, -, rfl⟩ := Option.map_eq_some_iff.mp same
  exact le_start_of_mem_occurrencesFrom found

theorem typeHeaderAt_eq_none_iff {masked : Text} {place : Occurrence Text} :
    typeHeaderAt masked place = none ↔ bodyOffset masked place.stop = none :=
  Option.map_eq_none_iff

/-- The first word of a text can be left out exactly when none of the words that may follow it in
the role of a name has a body. -/
theorem typesFrom_eq_iff {masked text word rest : Text} {before : Option Char}
    (part : text.length ≤ masked.length) (begins : Begins before text)
    (read : word? (skipBlanks text) = some (word, rest)) :
    typesFrom masked before text = typesFrom masked word.getLast? rest ↔
      ∀ behind ∈ if word ∈ typeKeywords then leadingNames rest else [],
        bodyOffset masked (masked.length - behind.length) = none := by
  induction length : text.length using Nat.strongRecOn generalizing text word rest before with
  | _ _ ih =>
    have shorter := length_of_word?_skipBlanks read
    cases found : (if word ∈ typeKeywords then word? (skipBlanks rest) else none) with
    | none =>
      have none : (if word ∈ typeKeywords then leadingNames rest else []) = [] := by
        split
        · next keyword =>
          rw [if_pos keyword] at found
          rw [leadingNames_eq, found]
          rfl
        · rfl
      rw [none, typesFrom_of_refused part begins read found]
      simp
    | some answer =>
      obtain ⟨name, behind⟩ := answer
      obtain ⟨start, early, same⟩ := exists_typesFrom_of_found part begins read found
      obtain ⟨keyword, next⟩ : word ∈ typeKeywords ∧
          word? (skipBlanks rest) = some (name, behind) := by
        split at found
        · next keyword => exact ⟨keyword, found⟩
        · cases found
      have later : Begins word.getLast? rest := .inr (outside_of_word? read)
      have others := ih rest.length (by omega) (by omega) later next rfl
      rw [if_pos keyword, leadingNames_eq, next, Option.elim_some, List.forall_mem_cons, ← others,
        same]
      cases here : typeHeaderAt masked ⟨start, masked.length - behind.length, name, behind⟩ with
      | none =>
        have bodiless := typeHeaderAt_eq_none_iff.mp here
        dsimp only at bodiless
        simp only [Option.toList_none, List.nil_append, bodiless, true_and]
        exact eq_comm
      | some header =>
        -- no type that is found behind the first word starts at it
        have earlier : header.start = start := by
          obtain ⟨body, -, rfl⟩ := Option.map_eq_some_iff.mp here
          rfl
        constructor
        · intro both
          have member : header ∈ typesFrom masked word.getLast? rest := by simp [← both]
          have bound := typesFrom_start member
          omega
        · rintro ⟨bodiless, -⟩
          rw [typeHeaderAt_eq_none_iff.mpr bodiless] at here
          cases here

theorem exists_of_mem_leadingNames {text behind : Text} (member : behind ∈ leadingNames text) :
    ∃ word, IsWord word ∧ word ++ behind <:+ text := by
  fun_induction leadingNames text with
  | case1 => cases member
  | case2 text word rest read ih =>
    have whole : word ++ rest <:+ text := by
      rw [append_of_word? read]
      exact List.dropWhile_suffix isBlank
    rcases List.mem_cons.mp member with rfl | member
    · exact ⟨word, isWord_of_word? read, whole⟩
    · split at member
      · next keyword =>
        obtain ⟨name, isWord, inside⟩ := ih member
        exact ⟨name, isWord, inside.trans ((List.suffix_append word rest).trans whole)⟩
      · cases member

/-! A line that ends in a class reference -/

def referenceLine : Text :=
  "val k = Foo::class\n".toList

/-- Before another line the class reference is the beginning of a type header. -/
theorem typeHeaders_eq_typesFrom (masked : Text) :
    typeHeaders (referenceLine ++ masked) =
      typesFrom (referenceLine ++ masked) (some ':') ("class\n".toList ++ masked) := by
  have quiet : IsQuiet ["class", "interface", "object"] ("class\n".toList ++ masked)
      ("val k = Foo:".toList ++ [':']) :=
    isQuiet_concat (by decide) (by decide) (by decide) (by decide) (by decide) _
  have passed := occurrencesFrom_quiet refuses_type quiet 0 none
  have offset : (referenceLine ++ masked).length - ("class\n".toList ++ masked).length = 13 := by
    rw [List.length_append, List.length_append, Nat.add_sub_add_right]
    rfl
  rw [typesFrom, offset]
  exact congrArg (List.filterMap (typeHeaderAt (referenceLine ++ masked))) passed

/-- The types of the lines behind a class reference. -/
theorem typesFrom_newline (masked : Text) :
    typesFrom (referenceLine ++ masked) "class".toList.getLast? ('\n' :: masked) =
      (typeHeaders masked).map (·.place (· + referenceLine.length)) := by
  have moved := @filterMap_typeHeaderAt_enclose referenceLine [] isOuterTail_nil List.not_mem_nil
    masked masked 0 none List.suffix_rfl (Nat.zero_add _)
  have refused : typeHeader? (some 's') ('\n' :: masked) = none := rfl
  have offset : (referenceLine ++ masked).length - ('\n' :: masked).length = 18 := by
    have length : referenceLine.length = 19 := rfl
    rw [List.length_append, List.length_cons, length]
    omega
  have same : typeHeader? (some '\n') = typeHeader? none := rfl
  have passed : occurrencesFrom typeHeader? 18 (some 's') ('\n' :: masked) =
      occurrencesFrom typeHeader? 19 none masked :=
    (occurrencesFrom_refused refused 18).trans (occurrencesFrom_congr same 19 masked)
  rw [List.append_nil, Nat.zero_add] at moved
  rw [typesFrom, offset]
  exact (congrArg (List.filterMap _) passed).trans moved

theorem typeHeaders_referenceLine (masked : Text) :
    typeHeaders (referenceLine ++ masked) =
        (typeHeaders masked).map (·.place (· + referenceLine.length)) ↔ LeadsNoBody masked := by
  have part : ("class\n".toList ++ masked).length ≤ (referenceLine ++ masked).length := by
    rw [List.length_append, List.length_append]
    exact Nat.add_le_add_right (by decide) _
  have read : word? (skipBlanks ("class\n".toList ++ masked)) =
      some ("class".toList, '\n' :: masked) := rfl
  have names : leadingNames ('\n' :: masked) = leadingNames masked := by
    rw [leadingNames_eq, leadingNames_eq]
    rfl
  have whole := typesFrom_eq_iff part (.inl rfl : Begins (some ':') _) read
  rw [typesFrom_newline, ← typeHeaders_eq_typesFrom, if_pos (by decide), names] at whole
  rw [whole, LeadsNoBody]
  refine forall₂_congr fun behind member => ?_
  obtain ⟨word, isWord, inside⟩ := exists_of_mem_leadingNames member
  have shorter := inside.length_le
  rw [List.length_append] at shorter
  have named : IsNamedPlace masked ⟨0, masked.length - behind.length, word, behind⟩ :=
    ⟨isWord, inside, by dsimp only; omega⟩
  have moved := @bodyOffset_enclose referenceLine [] isOuterTail_nil List.not_mem_nil _ _ named
  have offset : (referenceLine ++ masked).length - behind.length =
      masked.length - behind.length + referenceLine.length := by
    rw [List.length_append]
    omega
  rw [List.append_nil] at moved
  rw [offset, moved, Option.map_eq_none_iff]


/-! Nothing is declared on the line -/

theorem isQuiet_reference {words : List String} (keywords : ∀ word ∈ words, IsWord word.toList)
    (apart : ∀ word ∈ words, ¬word.toList <:+ "class".toList) {front : Text}
    (quiet : IsQuiet words [] front) (rest : Text) :
    IsQuiet words rest (front ++ [':'] ++ ("class".toList ++ ['\n'])) := by
  have mark : ':' ≠ '@' := by decide
  refine (isQuiet_concat keywords quiet rfl rfl mark _).append ?_
  refine (isQuiet_of_word keywords (by decide) apart ?_).append ?_
  · intro c head
    obtain rfl : '\n' = c := Option.some.inj head
    rfl
  · exact isQuiet_of_marks keywords (by decide)

theorem silent_properties : IsSilent referenceLine
    (fun _ => marked? ["SwiftFlow"] flowPropertyHeader?) Bracket.angle.inside := by
  intro text
  have equals : IsOuter '=' := ⟨rfl, rfl, by decide⟩
  have header : flowPropertyHeader? (referenceLine ++ text) = none := by
    have keeps := KeepsTail.of_stopsAt_mark equals.stopsAt_flowPropertyHeader?
      (" Foo::class\n".toList ++ text) "val k ".toList
    have closed : flowPropertyHeader? "val k ".toList = none := by decide +kernel
    rwa [closed] at keeps
  have head : (referenceLine ++ text).head? = some 'v' := rfl
  have unmarked : (referenceLine ++ text).head? ≠ some '@' := by
    rw [head]
    decide
  have refused : marked? ["SwiftFlow"] flowPropertyHeader? (referenceLine ++ text) = none := by
    rw [marked?_of_unmarked unmarked, header, Option.map_none]
  have quiet : IsQuiet (modifiers ++ ["val", "var"]) text
      ("al k = Foo:".toList ++ [':'] ++ ("class".toList ++ ['\n'])) :=
    isQuiet_reference (by decide) (by decide) (by decide) text
  have passed := occurrencesFrom_quiet (refuses_flowProperty ["SwiftFlow"]) quiet 1 (some 'v')
  have behind := occurrencesFrom_before (marked? ["SwiftFlow"] flowPropertyHeader?)
    referenceLine.length (some '\n') none text
  exact congrArg (List.filterMap _)
    (((occurrencesFrom_refused refused 0).trans passed).trans behind)

theorem searchesAll_referenceLine : SearchesAll referenceLine [] := by
  have known : ∀ word ∈ modifiers ++ ["sealed", "data", "object", "suspend", "fun"],
      IsWord word.toList ∧ ¬word.toList <:+ "class".toList := by decide
  have front : IsQuiet (modifiers ++ ["sealed", "data", "object", "suspend", "fun"]) []
      "val k = Foo:".toList := by decide
  have quiet {words : List String}
      (fewer : words ⊆ modifiers ++ ["sealed", "data", "object", "suspend", "fun"]) (text : Text) :
      IsQuiet words text referenceLine :=
    isQuiet_reference (fun word member => (known word (fewer member)).1)
      (fun word member => (known word (fewer member)).2) (front.mono fewer) text
  exact searchesAll_of_silent isOuterTail_nil
    (isSilent_of_quiet (refuses_sealed _) (quiet (by simp)) rfl _)
    (isSilent_of_quiet refuses_data (quiet (by simp)) rfl _)
    (isSilent_of_quiet refuses_object (quiet (by simp)) rfl _)
    (isSilent_of_quiet (refuses_suspend _) (quiet (by simp)) rfl _)
    (isSilent_of_quiet (refuses_anyFunction _) (quiet (by simp)) rfl _)
    silent_properties

/-! The source behind the line -/

theorem isFree_referenceLine : IsFree replaceMarks referenceLine := by
  decide

theorem stripComments_referenceLine (source : Text) :
    stripComments (referenceLine ++ source) = referenceLine ++ stripComments source := by
  rw [stripComments, stripComments, stripBlockComments,
    replaces_blockComments.replaceAll_free isFree_referenceLine]
  exact replaces_lineComments.replaceAll_free isFree_referenceLine _

theorem maskLiterals_referenceLine (text : Text) :
    maskLiterals (referenceLine ++ text) = referenceLine ++ maskLiterals text :=
  replaces_literals.replaceAll_free isFree_referenceLine text

theorem scopes_referenceLine {text : Text} (bodiless : LeadsNoBody (maskLiterals text)) :
    ScopeIndex.ofText (referenceLine ++ text) =
      (ScopeIndex.ofText text).place (· + referenceLine.length) := by
  have headers := (typeHeaders_referenceLine (maskLiterals text)).mpr bodiless
  have free : ∀ c ∈ referenceLine, c ≠ '{' ∧ c ≠ '}' := by decide
  rw [ScopeIndex.ofText, ScopeIndex.ofText, maskLiterals_referenceLine, headers,
    scopesFrom_free free]
  exact scopesFrom_move (typeHeaders (maskLiterals text)) referenceLine.length 0 [] _

theorem encloses_referenceLine {source : Text}
    (bodiless : LeadsNoBody (maskLiterals (stripComments source))) :
    Encloses referenceLine [] (Source.ofText (referenceLine ++ source)) (Source.ofText source) := by
  have mono := strictMono_add referenceLine.length
  have scopes : (Source.ofText (referenceLine ++ source)).scopes =
      (Source.ofText source).scopes.place (· + referenceLine.length) := by
    rw [Source.ofText, stripComments_referenceLine]
    exact scopes_referenceLine bodiless
  constructor
  · rw [List.append_nil, Source.ofText, stripComments_referenceLine]
    exact List.drop_left
  · rw [List.append_nil, Source.ofText, stripComments_referenceLine]
    exact maskLiterals_referenceLine _
  · exact (length_maskLiterals _).symm
  · rw [Source.ofText, stripComments_referenceLine]
    dsimp only
    rw [maskLiterals_referenceLine]
    have single : '\n' ∉ "val k = Foo::class".toList := by decide
    exact packageName_line rfl (by decide) single _
  · intro offset _
    rw [scopes, containingType_place mono]
  · intro offset
    rw [scopes, isUnterminated_place mono]
  · intro nameStart
    rw [scopes, isUnterminatedHeader_place mono]

/-- A class reference at the end of a line moves the types of the lines behind it, and nothing else,
exactly when no body follows one of the words that it gives a type the name of. It changes no
declaration then. -/
theorem scan_classReference (source : Text) :
    (typeHeaders (maskLiterals (stripComments (referenceLine ++ source))) =
        (typeHeaders (maskLiterals (stripComments source))).map
          (·.place (· + referenceLine.length)) ↔
      LeadsNoBody (maskLiterals (stripComments source))) ∧
    (LeadsNoBody (maskLiterals (stripComments source)) →
      scan (referenceLine ++ source) = scan source) := by
  constructor
  · rw [stripComments_referenceLine, maskLiterals_referenceLine]
    exact typeHeaders_referenceLine _
  · intro bodiless
    exact (encloses_referenceLine bodiless).declarations_eq searchesAll_referenceLine

/-- The body of a type behind a statement stays with it. -/
theorem scan_classReference_statement :
    LeadsNoBody (maskLiterals
      (stripComments "val x = 1\nclass A \x7b\n suspend fun m()\n\x7d".toList)) ∧
    scan (referenceLine ++ "val x = 1\nclass A \x7b\n suspend fun m()\n\x7d".toList) =
      scan "val x = 1\nclass A \x7b\n suspend fun m()\n\x7d".toList := by
  have bodiless : LeadsNoBody
      (maskLiterals (stripComments "val x = 1\nclass A \x7b\n suspend fun m()\n\x7d".toList)) := by
    decide +kernel
  exact ⟨bodiless, (scan_classReference _).2 bodiless⟩

/-- Right behind a class reference a class loses its body to a type named by its own keyword. -/
theorem scan_classReference_ne :
    (scan (referenceLine ++ "class A \x7b\n suspend fun m()\n\x7d".toList)).map (·.owner?) =
      [some "class".toList] ∧
    (scan "class A \x7b\n suspend fun m()\n\x7d".toList).map (·.owner?) = [some "A".toList] ∧
    scan (referenceLine ++ "class A \x7b\n suspend fun m()\n\x7d".toList) ≠
      scan "class A \x7b\n suspend fun m()\n\x7d".toList := by
  have behind : (scan (referenceLine ++ "class A \x7b\n suspend fun m()\n\x7d".toList)).map
      (·.owner?) = [some "class".toList] := by decide +kernel
  have alone : (scan "class A \x7b\n suspend fun m()\n\x7d".toList).map (·.owner?) =
      [some "A".toList] := by decide +kernel
  refine ⟨behind, alone, fun same => ?_⟩
  rw [same, alone] at behind
  exact absurd behind (by decide)

end DeclBridge.Kotlin
