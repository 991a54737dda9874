import DeclBridge.Proofs.HierarchyScan
import DeclBridge.Proofs.TypeClauses

/-! Searching texts with a clause of type parameters. A header is read on behind its clause when no
bound has generic arguments, and otherwise not at all: the readers of headers take the first bracket
that closes for the end of the clause. Nothing is found inside a clause. -/

namespace DeclBridge.Kotlin.Syntax

open Text

/-! Readers at still places -/

theorem word?_colon {text : Text} (colon : text.head? = some ':') : word? text = none := by
  obtain ⟨more, rfl⟩ := List.head?_eq_some_iff.mp colon
  rfl

theorem simpleClause?_eq_none {c : Char} (differs : c ≠ '<') (rest : Text) :
    simpleClause? (c :: rest) = none := by
  simp [simpleClause?, literal?, behind?, Ne.symm differs]

theorem isQuietAt_colon {text : Text} (colon : text.head? = some ':') :
    IsQuietAt lineWords text := by
  obtain ⟨more, rfl⟩ := List.head?_eq_some_iff.mp colon
  have quiet : IsQuiet lineWords more [':'] :=
    isQuiet_of_marks isWord_of_mem_lineWords (by decide)
  exact quiet.1

private theorem modifiers_subset : modifiers ⊆ lineWords := by
  simp [lineWords, headerWords]

namespace IsStillAt

variable {text rest : Text} (still : IsStillAt text)
include still

/-- What follows a keyword at a still place is no keyword. -/
theorem isQuietAt_of_keyword? {word : String} (member : word ∈ lineWords)
    (read : keyword? word text = some rest) : IsQuietAt lineWords rest :=
  isQuietAt_colon (still.stops word member rest read)

theorem oneKeyword?_colon {words : List String} (known : words ⊆ lineWords) {word : String}
    (read : oneKeyword? words text = some (word, rest)) : rest.head? = some ':' := by
  obtain ⟨other, inside, read⟩ := List.exists_of_findSome?_eq_some read
  obtain ⟨found, read, same⟩ := Option.map_eq_some_iff.mp read
  cases same
  exact still.stops _ (known inside) _ read

theorem skipModifiers : IsStillAt (Kotlin.skipModifiers text) := by
  rw [Kotlin.skipModifiers, many]
  cases read : oneKeyword? modifiers text with
  | none => exact still
  | some found =>
    have quiet := isQuietAt_colon (still.oneKeyword?_colon modifiers_subset read)
    dsimp only
    split
    · rw [many_of_refused (quiet.oneKeyword?_eq_none modifiers_subset)]
      exact quiet.isStillAt
    · exact still

theorem functionHeader?_eq_none : functionHeader? text = none := by
  rw [functionHeader?]
  cases read : keyword? "fun" text with
  | none => rfl
  | some rest =>
    have colon := still.stops "fun" (by decide) rest read
    have nameless := word?_colon colon
    obtain ⟨more, rfl⟩ := List.head?_eq_some_iff.mp colon
    simp [simpleClause?_eq_none, nameless]

theorem suspendHeader?_eq_none : suspendHeader? text = none := by
  rw [suspendHeader?]
  cases read : keyword? "suspend" (Kotlin.skipModifiers text) with
  | none => rfl
  | some rest =>
    have quiet := still.skipModifiers.isQuietAt_of_keyword? (by decide) read
    exact quiet.isStillAt.skipModifiers.functionHeader?_eq_none

theorem anyFunctionHeader?_eq_none : anyFunctionHeader? text = none := by
  rw [anyFunctionHeader?]
  cases read : keyword? "suspend" (Kotlin.skipModifiers text) with
  | none => simp [still.skipModifiers.skipModifiers.functionHeader?_eq_none]
  | some rest =>
    have quiet := still.skipModifiers.isQuietAt_of_keyword? (by decide) read
    simp [quiet.isStillAt.skipModifiers.functionHeader?_eq_none]

theorem sealedHeader?_eq_none : sealedHeader? text = none := by
  rw [sealedHeader?]
  cases read : keyword? "sealed" (Kotlin.skipModifiers text) with
  | none => rfl
  | some rest =>
    have quiet := still.skipModifiers.isQuietAt_of_keyword? (by decide) read
    have other : oneKeyword? ["class", "interface"] rest = none :=
      quiet.oneKeyword?_eq_none (by decide)
    simp [other]

theorem flowPropertyHeader?_eq_none : flowPropertyHeader? text = none := by
  rw [flowPropertyHeader?]
  cases read : oneKeyword? ["val", "var"] (Kotlin.skipModifiers text) with
  | none => rfl
  | some found =>
    simp [word?_colon (still.skipModifiers.oneKeyword?_colon (by decide) read)]

theorem dataCaseHeader?_eq_none (before : Option Char) : dataCaseHeader? before text = none := by
  rw [dataCaseHeader?]
  split
  · cases read : keyword? "data" text with
    | none => rfl
    | some rest =>
      have quiet := still.isQuietAt_of_keyword? (by decide) read
      have other : keyword? "class" rest = none := quiet.wordless "class" (by decide)
      simp [other]
  · rfl

theorem objectHeader?_eq_none (before : Option Char) : objectHeader? before text = none := by
  have behind : IsStillAt ((keyword? "data" text).getD text) := by
    cases read : keyword? "data" text with
    | none => exact still
    | some rest => exact (still.isQuietAt_of_keyword? (by decide) read).isStillAt
  rw [objectHeader?]
  split
  · dsimp only
    cases read : keyword? "object" ((keyword? "data" text).getD text) with
    | none => rfl
    | some rest => simp [word?_colon (behind.stops "object" (by decide) rest read)]
  · rfl

end IsStillAt

/-! Searching -/

/-- The reader answers at no place of a text that stands before `rest`. -/
def Skips (read : Lookbehind α) (rest : Text) : Text → Prop
  | [] => True
  | c :: text => (∀ before, read before (c :: text ++ rest) = none) ∧ Skips read rest text

section

variable {read : Lookbehind α} {text other rest : Text}

theorem Skips.append (first : Skips read (other ++ rest) text) (second : Skips read rest other) :
    Skips read rest (text ++ other) := by
  induction text with
  | nil => exact second
  | cons c text ih =>
    refine ⟨?_, ih first.2⟩
    have here := first.1
    rwa [← List.append_assoc] at here

theorem IsQuiet.skips {words : List String} (quiet : IsQuiet words rest text)
    (refuses : Refuses words read) : Skips read rest text := by
  induction text with
  | nil => trivial
  | cons c text ih => exact ⟨fun before => refuses before _ quiet.1, ih quiet.2⟩

theorem IsStill.skips (still : IsStill rest text)
    (refuses : ∀ before text, IsStillAt text → read before text = none) : Skips read rest text := by
  induction text with
  | nil => trivial
  | cons c text ih => exact ⟨fun before => refuses before _ still.1, ih still.2⟩

theorem occurrencesFrom_skips (skips : Skips read [] text) (offset : Nat) (before : Option Char) :
    occurrencesFrom read offset before text = [] := by
  induction text generalizing offset before with
  | nil => rw [occurrencesFrom]
  | cons c text ih =>
    have here := skips.1 before
    rw [List.append_nil] at here
    rw [occurrencesFrom, here]
    exact ih skips.2 _ _

end

/-- A word and the mark behind it, where no search for certain words finds anything. -/
structure IsQuietPart (words : List String) (part : String × Char) : Prop where
  isWord : IsWord part.1.toList
  outside : isWordChar part.2 = false
  unmarked : part.2 ≠ '@'
  apart : ∀ word ∈ words, ¬word.toList <:+ part.1.toList

instance (words : List String) (part : String × Char) : Decidable (IsQuietPart words part) :=
  decidable_of_iff (IsWord part.1.toList ∧ isWordChar part.2 = false ∧ part.2 ≠ '@' ∧
      ∀ word ∈ words, ¬word.toList <:+ part.1.toList)
    ⟨fun ⟨isWord, outside, unmarked, apart⟩ => ⟨isWord, outside, unmarked, apart⟩,
      fun part => ⟨part.isWord, part.outside, part.unmarked, part.apart⟩⟩

/-- Words, each with the mark behind it. -/
def phraseText (phrase : List (String × Char)) : Text :=
  phrase.flatMap fun part => part.1.toList ++ [part.2]

theorem isQuiet_phraseText {words : List String} {rest : Text} (known : words ⊆ lineWords)
    (phrase : List (String × Char)) (quiet : ∀ part ∈ phrase, IsQuietPart words part) :
    IsQuiet words rest (phraseText phrase) := by
  have keywords : ∀ word ∈ words, IsWord word.toList :=
    fun word member => isWord_of_mem_lineWords word (known member)
  induction phrase with
  | nil => trivial
  | cons part phrase ih =>
    obtain ⟨first, others⟩ := List.forall_mem_cons.mp quiet
    rw [phraseText, List.flatMap_cons]
    refine IsQuiet.append (IsQuiet.append ?_ ?_) (ih others)
    · exact isQuiet_of_word keywords first.isWord first.apart (outside_head first.outside _)
    · exact isQuiet_of_marks keywords (by simp [first.outside, first.unmarked])

/-! Headers with a clause -/

private theorem head_ink {name : Text} (isWord : IsWord name) (rest : Text) :
    ∀ c ∈ (name ++ rest).head?, isBlank c = false := by
  rw [List.head?_append_of_ne_nil _ isWord.nonempty]
  exact fun c head => isBlank_of_isWordChar (isWord.wordChars c (List.mem_of_head? head))

namespace TypeClause

variable (clause : TypeClause)

/-- What is read behind the clause, if it is read at all. -/
def read? (found : α) : Option α :=
  if clause.isNested then none else some found

theorem map_read? (f : α → β) (found : α) :
    (clause.read? found).map f = clause.read? (f found) := by
  rw [read?, read?]
  split <;> rfl

theorem filterMap_read? {f : α → Option β} {found : α} {result : β}
    (read : f found = some result) :
    (clause.read? found).toList.filterMap f = (clause.read? result).toList := by
  rw [read?, read?]
  split
  · rfl
  · simp [read]

theorem filterMap_read?_eq_nil {f : α → Option β} {found : α} (unread : f found = none) :
    (clause.read? found).toList.filterMap f = [] := by
  rw [read?]
  split
  · rfl
  · simp [unread]

theorem functionHeader?_clause {name : Text} (isWord : IsWord name) (rest : Text) :
    functionHeader? ("fun ".toList ++ (clause.text ++ ' ' :: (name ++ '(' :: rest))) =
      clause.read? (⟨clause.text, name⟩, rest) := by
  have keyword : keyword? "fun" ("fun ".toList ++ (clause.text ++ ' ' :: (name ++ '(' :: rest))) =
      some (clause.text ++ ' ' :: (name ++ '(' :: rest)) := by
    refine keyword?_append ?_
    rintro _ ⟨⟩
    decide
  rw [functionHeader?, keyword, read?]
  simp only [Option.bind_eq_bind, Option.bind_some]
  cases nested : clause.isNested with
  | true =>
    obtain ⟨found, after, read, c, head, mark⟩ :=
      clause.simpleClause?_nested nested (' ' :: (name ++ '(' :: rest))
    obtain ⟨more, rfl⟩ := List.head?_eq_some_iff.mp head
    obtain ⟨outside, ink⟩ := (by decide : ∀ c ∈ closingMarks,
      isWordChar c = false ∧ isBlank c = false) c mark
    simp [read, skipBlanks, word?, run?, ink, outside]
  | false =>
    have kept : skipBlanks (name ++ '(' :: rest) = name ++ '(' :: rest :=
      skipBlanks_eq_self_iff.mpr (head_ink isWord _)
    have gap : skipBlanks (' ' :: (name ++ '(' :: rest)) = name ++ '(' :: rest := kept
    have word : word? (name ++ '(' :: rest) = some (name, '(' :: rest) :=
      run?_append isWord.nonempty isWord.wordChars (outside_head (by decide) rest)
    have mark : mark? '(' ('(' :: rest) = some rest := by
      simp [mark?, skipBlanks, show isBlank '(' = false from rfl]
    rw [clause.simpleClause?_flat nested]
    simp only [gap, word, mark, Option.bind_some]
    rfl

theorem dataCaseHeader?_clause {before : Option Char} (boundary : atBoundary before = true)
    {name : Text} (isWord : IsWord name) (rest : Text) :
    dataCaseHeader? before ("data class ".toList ++ (name ++ (clause.text ++ '(' :: rest))) =
      clause.read? (name, rest) := by
  let typed := clause.text ++ '(' :: rest
  have data : keyword? "data" ("data ".toList ++ ("class ".toList ++ (name ++ typed))) =
      some ("class ".toList ++ (name ++ typed)) := keyword?_append (by simp; decide)
  have type : keyword? "class" ("class ".toList ++ (name ++ typed)) = some (name ++ typed) :=
    keyword?_append (head_ink isWord typed)
  have word : word? (name ++ typed) = some (name, typed) :=
    run?_append isWord.nonempty isWord.wordChars (outside_head (by decide) _)
  have gap : skipBlanks typed = typed := skipBlanks_eq_self_iff.mpr (by rintro _ ⟨⟩; decide)
  have lead : "data class ".toList ++ (name ++ typed) =
      "data ".toList ++ ("class ".toList ++ (name ++ typed)) := rfl
  rw [dataCaseHeader?, if_pos boundary, lead, data, read?]
  simp only [Option.bind_eq_bind, Option.bind_some, type, word, gap]
  cases nested : clause.isNested with
  | true =>
    obtain ⟨found, after, read, c, head, mark⟩ := clause.simpleClause?_nested nested ('(' :: rest)
    obtain ⟨more, rfl⟩ := List.head?_eq_some_iff.mp head
    obtain ⟨differs, ink⟩ := (by decide : ∀ c ∈ closingMarks,
      c ≠ '(' ∧ isBlank c = false) c mark
    simp [typed, read, skipBlanks, mark?, ink, differs]
  | false =>
    have mark : mark? '(' ('(' :: rest) = some rest := by
      simp [mark?, skipBlanks, show isBlank '(' = false from rfl]
    simp only [typed, clause.simpleClause?_flat nested, mark]
    rfl

end TypeClause

/-! Searching texts with a clause -/

/-- A search for headers that begin with certain words. -/
structure Seeks (words : List String) (read : Lookbehind α) : Prop where
  known : words ⊆ lineWords
  refuses : Refuses words read
  still : ∀ before text, IsStillAt text → read before text = none

theorem seeks_marked {words : List String} {header? : Text → Option (α × Text)}
    {names : List String} (known : words ⊆ lineWords)
    (refuses : Refuses words fun _ => marked? names header?)
    (still : ∀ text, IsStillAt text → header? text = none) :
    Seeks words fun _ => marked? names header? := by
  refine ⟨known, refuses, fun before text place => ?_⟩
  rw [marked?_of_unmarked place.unmarked, still text place, Option.map_none]

section

variable (names : List String)

theorem seeks_sealed :
    Seeks (modifiers ++ ["sealed"]) fun _ => marked? names sealedHeader? :=
  seeks_marked (by simp [lineWords, headerWords]) (refuses_sealed names)
    fun _ still => still.sealedHeader?_eq_none

theorem seeks_suspend :
    Seeks (modifiers ++ ["suspend"]) fun _ => marked? names suspendHeader? :=
  seeks_marked (by simp [lineWords, headerWords]) (refuses_suspend names)
    fun _ still => still.suspendHeader?_eq_none

theorem seeks_anyFunction :
    Seeks (modifiers ++ ["suspend", "fun"]) fun _ => marked? names anyFunctionHeader? :=
  seeks_marked (by simp [lineWords, headerWords]) (refuses_anyFunction names)
    fun _ still => still.anyFunctionHeader?_eq_none

theorem seeks_flowProperty :
    Seeks (modifiers ++ ["val", "var"]) fun _ => marked? names flowPropertyHeader? :=
  seeks_marked (by simp [lineWords, headerWords]) (refuses_flowProperty names)
    fun _ still => still.flowPropertyHeader?_eq_none

theorem seeks_data : Seeks ["data"] dataCaseHeader? :=
  ⟨by simp [lineWords], refuses_data, fun before _ still => still.dataCaseHeader?_eq_none before⟩

theorem seeks_object : Seeks ["data", "object"] objectHeader? :=
  ⟨by simp [lineWords, headerWords], refuses_object,
    fun before _ still => still.objectHeader?_eq_none before⟩

end

section

variable (clause : TypeClause) {words : List String} {read : Lookbehind α}

theorem Seeks.skips_between (seeks : Seeks words read) {front back rest : Text}
    (first : IsQuiet words (clause.text ++ back ++ rest) front) (last : Skips read rest back) :
    Skips read rest (front ++ (clause.text ++ back)) := by
  have within := (clause.isStill_text (back ++ rest)).skips seeks.still
  exact (first.skips seeks.refuses).append (within.append last)

/-- Nothing is found in a phrase, a clause and a quiet text. -/
theorem Seeks.skips (seeks : Seeks words read) (phrase : List (String × Char)) {back rest : Text}
    (first : ∀ part ∈ phrase, IsQuietPart words part) (quiet : IsQuiet words rest back) :
    Skips read rest (phraseText phrase ++ (clause.text ++ back)) :=
  seeks.skips_between clause (isQuiet_phraseText seeks.known phrase first)
    (quiet.skips seeks.refuses)

/-- The only place where something may be found is the first one. -/
theorem occurrencesFrom_read (before : Option Char) {lead rest : Text} {item : α}
    (nonempty : lead ≠ []) (found : read before (lead ++ rest) = clause.read? (item, rest))
    (hidden : clause.isNested = true → Skips read rest lead.tail) (behind : Skips read [] rest)
    (offset : Nat) :
    occurrencesFrom read offset before (lead ++ rest) =
      (clause.read? ⟨offset, offset + lead.length, item, rest⟩).toList := by
  rw [TypeClause.read?] at found ⊢
  cases nested : clause.isNested with
  | true =>
    obtain ⟨c, more, rfl⟩ := List.exists_cons_of_ne_nil nonempty
    rw [nested, if_pos rfl, List.cons_append] at found
    have first : Skips read (rest ++ []) more := by simpa using hidden nested
    rw [List.cons_append, occurrencesFrom, found]
    exact occurrencesFrom_skips (first.append behind) _ _
  | false =>
    rw [nested, if_neg (by simp)] at found
    rw [occurrencesFrom_found nonempty found, occurrencesFrom_skips behind]
    rfl

end

/-! Sources without scopes -/

section

variable (text : Text)

theorem places_plain (read : Lookbehind α) :
    (plainSource text).places read = occurrences read text :=
  List.filter_eq_self.mpr fun _ _ => rfl

theorem places_eq_nil {read : Lookbehind α} (skips : Skips read [] text) :
    (plainSource text).places read = [] := by
  rw [places_plain, occurrences, occurrencesFrom_skips skips]

theorem slice_plain (lead rest : Text) (length : Nat) :
    (plainSource (lead ++ rest)).slice lead.length length = rest.take length := by
  rw [Source.slice, plainSource, List.drop_left]

theorem markerText_plain {place : Occurrence (Marked α)} (unmarked : place.found.marker = 0) :
    (plainSource text).markerText place = [] := by
  rw [Source.markerText, Source.slice, unmarked, List.take_zero]

theorem containingType_plain (offset : Nat) :
    (plainSource text).scopes.containingType offset = none :=
  rfl

theorem identity_plain {name : Text} (isWord : IsWord name) :
    (plainSource text).identity none name =
      { qualifiedName := name, name := name, package := [] } := by
  simp [Source.identity, plainSource, isWord.nonempty]

theorem sumTypes_eq_nil (skips : ∀ names,
      Skips (fun _ => marked? names sealedHeader?) [] text) : (plainSource text).sumTypes = [] := by
  rw [Source.sumTypes, places_eq_nil text (skips _)]
  rfl

end

/-- A clause between two texts in which there is nothing to replace or to enclose. -/
theorem ofText_clause (clause : TypeClause) (front back : Text)
    (first : IsFree ('{' :: '}' :: replaceMarks) front) (last : IsFree foreignMarks back)
    (unnamed : ∀ rest, packageName true (front ++ rest) = packageName false rest) :
    Source.ofText (front ++ (clause.text ++ back)) =
      plainSource (front ++ (clause.text ++ back)) := by
  have line : IsFree foreignMarks (clause.text ++ back) := clause.isFree_text.append last
  have marks : ('{' :: '}' :: replaceMarks) ⊆ foreignMarks := by decide
  have free : IsFree ('{' :: '}' :: replaceMarks) (front ++ (clause.text ++ back)) :=
    first.append fun c inside member => line c inside (marks member)
  refine ofText_plain (fun c inside member => ?_) (fun c inside => ?_) ?_
  · exact free c inside (List.mem_cons_of_mem _ (List.mem_cons_of_mem _ member))
  · constructor <;> rintro rfl <;> exact free _ inside (by decide)
  · have single : '\n' ∉ clause.text ++ back := fun inside => line _ inside (by decide)
    have passed := packageName_inside single []
    rw [List.append_nil] at passed
    rw [unnamed, passed]
    rfl

end DeclBridge.Kotlin.Syntax
