import DeclBridge.Proofs.HierarchySyntax

/-! Where the headers of a hierarchy are found. Each of the three searches finds its own lines, at
their starts, and passes over the others. -/

namespace DeclBridge.Kotlin.Syntax

open Text

/-! Quiet lines -/

/-- The words that no name of a type ends in. -/
def lineWords : List String :=
  "data" :: headerWords

theorem isWord_of_mem_lineWords : ∀ word ∈ lineWords, IsWord word.toList :=
  List.forall_mem_cons.mpr ⟨by decide, isWord_of_mem_headerWords⟩

section

variable {words : List String} (known : words ⊆ lineWords) {rest : Text}
include known

private theorem isWord_of_mem : ∀ word ∈ words, IsWord word.toList :=
  fun word member => isWord_of_mem_lineWords word (known member)

theorem TypeName.isQuiet_text (name : TypeName) (ends : ∀ c ∈ rest.head?, isWordChar c = false) :
    IsQuiet words rest name.text := by
  refine isQuiet_of_word (isWord_of_mem known) name.word (fun word member => ?_) ends
  rcases List.mem_cons.mp (known member) with rfl | member
  · exact name.undated
  · exact name.apart word member

theorem isQuiet_sealed (name : TypeName)
    (apart : ∀ word ∈ words, ¬word.toList <:+ "sealed".toList ∧ ¬word.toList <:+ "interface".toList)
    (ends : ∀ c ∈ rest.head?, isWordChar c = false) :
    IsQuiet words rest (Line.sealed name).text := by
  have interface : IsQuiet words (name.text ++ rest) ("interface".toList ++ [' ']) :=
    isQuiet_of_keyword "interface" (isWord_of_mem known) (by decide) fun word member =>
      (apart word member).2
  have keyword : IsQuiet words ("interface".toList ++ [' '] ++ name.text ++ rest)
      ("sealed".toList ++ [' ']) :=
    isQuiet_of_keyword "sealed" (isWord_of_mem known) (by decide) fun word member =>
      (apart word member).1
  exact keyword.append (interface.append (name.isQuiet_text known ends))

theorem isQuiet_object (name parent : TypeName)
    (apart : ∀ word ∈ words, ¬word.toList <:+ "object".toList)
    (ends : ∀ c ∈ rest.head?, isWordChar c = false) :
    IsQuiet words rest (Line.object name parent).text := by
  have colon : IsQuiet words (parent.text ++ rest) " : ".toList :=
    isQuiet_of_marks (isWord_of_mem known) (by decide)
  have keyword : IsQuiet words (name.text ++ (" : ".toList ++ parent.text) ++ rest)
      ("object".toList ++ [' ']) :=
    isQuiet_of_keyword "object" (isWord_of_mem known) (by decide) apart
  have front : IsQuiet words (" : ".toList ++ parent.text ++ rest) name.text := by
    refine name.isQuiet_text known ?_
    rintro _ ⟨⟩
    decide
  have whole := keyword.append (front.append (colon.append (parent.isQuiet_text known ends)))
  rwa [← List.append_assoc, ← List.append_assoc] at whole

/-- What stands in the parentheses of a data class and behind them. -/
def fieldsText (fields : List Field) (parent : TypeName) : Text :=
  commaSpaced (fields.map (·.text)) ++ (") : ".toList ++ parent.text)

theorem isQuiet_fieldsText (fields : List Field) (parent : TypeName)
    (apart : ∀ word ∈ words, ¬word.toList <:+ "val".toList)
    (ends : ∀ c ∈ rest.head?, isWordChar c = false) :
    IsQuiet words rest (fieldsText fields parent) := by
  have mark : IsQuiet words (parent.text ++ rest) ") : ".toList :=
    isQuiet_of_marks (isWord_of_mem known) (by decide)
  refine IsQuiet.append ?_ (mark.append (parent.isQuiet_text known ends))
  refine isQuiet_commaSpaced (isWord_of_mem known) (List.forall_mem_map.mpr ?_) ?_
  · exact fun field _ rest ends => field.isQuiet_text (isWord_of_mem known) apart ends
  · rintro _ ⟨⟩
    decide

/-- The header of a data class behind its first word, or behind the first letter of it. -/
theorem isQuiet_data {first : String} (isWord : IsWord first.toList) (name : TypeName)
    (fields : List Field) (parent : TypeName)
    (apart : ∀ word ∈ words, ¬word.toList <:+ first.toList ∧ ¬word.toList <:+ "class".toList ∧
      ¬word.toList <:+ "val".toList)
    (ends : ∀ c ∈ rest.head?, isWordChar c = false) :
    IsQuiet words rest (first.toList ++ [' '] ++
      ("class".toList ++ [' '] ++ (name.text ++ (['('] ++ fieldsText fields parent)))) := by
  have keywords := isWord_of_mem known
  have within := isQuiet_fieldsText known fields parent (fun word member =>
    (apart word member).2.2) ends
  have round : IsQuiet words (fieldsText fields parent ++ rest) ['('] :=
    isQuiet_of_marks keywords (by decide)
  have front : IsQuiet words (['('] ++ fieldsText fields parent ++ rest) name.text := by
    refine name.isQuiet_text known ?_
    rintro _ ⟨⟩
    decide
  refine IsQuiet.append (isQuiet_of_keyword first keywords isWord ?_) (IsQuiet.append ?_ ?_)
  · exact fun word member => (apart word member).1
  · exact isQuiet_of_keyword "class" keywords (by decide) fun word member => (apart word member).2.1
  · exact front.append (round.append within)

end

/-! Headers -/

section

variable {before : Option Char} (boundary : atBoundary before = true) (name parent : TypeName)
  (rest : Text)

theorem sealedHeader?_text (ends : ∀ c ∈ rest.head?, isWordChar c = false) (names : List String) :
    marked? names sealedHeader? ("sealed interface ".toList ++ (name.text ++ rest)) =
      some (⟨0, name.text⟩, rest) := by
  have lead : "sealed interface ".toList ++ (name.text ++ rest) =
      "sealed".toList ++ ' ' :: ("interface".toList ++ ' ' :: (name.text ++ rest)) := rfl
  have front : skipModifiers
      ("sealed".toList ++ ' ' :: ("interface".toList ++ ' ' :: (name.text ++ rest))) =
      "sealed".toList ++ ' ' :: ("interface".toList ++ ' ' :: (name.text ++ rest)) :=
    skipModifiers_keyword (by decide) (by decide) _
  have keyword : keyword? "sealed"
      ("sealed".toList ++ ' ' :: ("interface".toList ++ ' ' :: (name.text ++ rest))) =
      some ("interface".toList ++ ' ' :: (name.text ++ rest)) :=
    keyword?_append (by simp; decide)
  have interface : oneKeyword? ["class", "interface"]
      ("interface".toList ++ ' ' :: (name.text ++ rest)) = some ("interface", name.text ++ rest) :=
    oneKeyword?_keyword (by simp) (by decide) (by decide) (name.head_ink rest)
  have read : word? (name.text ++ rest) = some (name.text, rest) :=
    run?_append name.word.nonempty name.word.wordChars ends
  rw [lead, marked?_of_unmarked (by simp), sealedHeader?, front, keyword]
  simp only [Option.bind_eq_bind, Option.bind_some]
  rw [interface]
  simp only [Option.bind_some]
  rw [read]
  rfl

include boundary in
theorem dataCaseHeader?_text :
    dataCaseHeader? before
        ("data".toList ++ ' ' :: ("class".toList ++ ' ' :: (name.text ++ '(' :: rest))) =
      some (name.text, rest) := by
  have keyword : keyword? "data"
      ("data".toList ++ ' ' :: ("class".toList ++ ' ' :: (name.text ++ '(' :: rest))) =
      some ("class".toList ++ ' ' :: (name.text ++ '(' :: rest)) :=
    keyword?_append (by simp; decide)
  have type : keyword? "class" ("class".toList ++ ' ' :: (name.text ++ '(' :: rest)) =
      some (name.text ++ '(' :: rest) := keyword?_append (name.head_ink _)
  have read : word? (name.text ++ '(' :: rest) = some (name.text, '(' :: rest) :=
    name.word?_text rest (by decide)
  have generic : simpleClause? (skipBlanks ('(' :: rest)) = none := by
    simp [simpleClause?, literal?, behind?, skipBlanks, show isBlank '(' = false from rfl]
  have mark : mark? '(' ('(' :: rest) = some rest := by
    simp [mark?, skipBlanks, show isBlank '(' = false from rfl]
  rw [dataCaseHeader?, if_pos boundary, keyword]
  simp only [Option.bind_eq_bind, Option.bind_some]
  rw [type]
  simp only [Option.bind_some, read, generic, mark]
  rfl

theorem supertype?_text (ends : ∀ c ∈ rest.head?, isDottedChar c = false) :
    supertype? (" : ".toList ++ (name.text ++ rest)) = some (name.text, rest) := by
  have behind : skipBlanks (' ' :: (name.text ++ rest)) = name.text ++ rest :=
    skipBlanks_eq_self_iff.mpr (name.head_ink rest)
  have colon : afterColon? (" : ".toList ++ (name.text ++ rest)) =
      some (skipBlanks (' ' :: (name.text ++ rest))) := rfl
  rw [supertype?, colon, behind]
  refine run?_append name.word.nonempty (fun c inside => ?_) ends
  simp [isDottedChar, name.word.wordChars c inside]

include boundary in
theorem objectHeader?_text (ends : ∀ c ∈ rest.head?, isDottedChar c = false) :
    objectHeader? before
        ("object".toList ++ ' ' :: (name.text ++ (" : ".toList ++ (parent.text ++ rest)))) =
      some (⟨name.text, parent.text⟩, rest) := by
  have supertype := supertype?_text parent rest ends
  have read : word? (name.text ++ (" : ".toList ++ (parent.text ++ rest))) =
      some (name.text, " : ".toList ++ (parent.text ++ rest)) := name.word?_text _ (by decide)
  generalize " : ".toList ++ (parent.text ++ rest) = typed at supertype read ⊢
  have plain : keyword? "data" ("object".toList ++ ' ' :: (name.text ++ typed)) = none :=
    keyword?_eq_none (by decide) (by decide) (by decide) _
  have keyword : keyword? "object" ("object".toList ++ ' ' :: (name.text ++ typed)) =
      some (name.text ++ typed) := keyword?_append (name.head_ink _)
  rw [objectHeader?, if_pos boundary, plain, Option.getD_none]
  dsimp only
  rw [keyword]
  simp only [Option.bind_eq_bind, Option.bind_some, read, supertype]
  rfl

/-- A data class is no data object. -/
theorem objectHeader?_data :
    objectHeader? before ("data".toList ++ ' ' :: ("class".toList ++ ' ' :: rest)) = none := by
  have keyword : keyword? "data" ("data".toList ++ ' ' :: ("class".toList ++ ' ' :: rest)) =
      some ("class".toList ++ ' ' :: rest) := keyword?_append (by simp; decide)
  have other : keyword? "object" ("class".toList ++ ' ' :: rest) = none :=
    keyword?_eq_none (by decide) (by decide) (by decide) _
  rw [objectHeader?, keyword, Option.getD_some]
  dsimp only
  rw [other]
  simp

end

/-! Searching line by line -/

/-- What is found in a line: the header with the text behind it. -/
structure Finding (α : Type) where
  lead : Text
  item : α
  tail : Text

/-- A search that finds something in certain lines, at their starts, and nothing anywhere else. -/
structure FindsLines (words : List String) (read : Lookbehind α)
    (found? : Line → Option (Finding α)) : Prop where
  known : words ⊆ lineWords
  refuses : Refuses words read
  passes : ∀ line, found? line = none → ∀ rest : Text, (∀ c ∈ rest.head?, c = '\n') →
    ∀ offset before, ∃ last, occurrencesFrom read offset before (line.text ++ rest) =
      occurrencesFrom read (offset + line.text.length) last rest
  divides : ∀ line finding, found? line = some finding →
    line.text = finding.lead ++ finding.tail ∧ finding.lead ≠ []
  finds : ∀ line finding, found? line = some finding →
    ∀ rest : Text, (∀ c ∈ rest.head?, c = '\n') → IsQuiet words rest finding.tail ∧
      ∀ before, atBoundary before = true →
        read before (finding.lead ++ (finding.tail ++ rest)) =
          some (finding.item, finding.tail ++ rest)

/-- A line with the offset of its start and the lines behind it. -/
structure Spot where
  start : Nat
  line : Line
  after : List Line

def spots (offset : Nat) : List Line → List Spot
  | [] => []
  | line :: lines => ⟨offset, line, lines⟩ :: spots (offset + line.text.length + 1) lines

def Spot.place (spot : Spot) (finding : Finding α) : Occurrence α :=
  ⟨spot.start, spot.start + finding.lead.length, finding.item, finding.tail ++ behind spot.after⟩

theorem FindsLines.occurrencesFrom_textOf {words : List String} {read : Lookbehind α}
    {found? : Line → Option (Finding α)} (finds : FindsLines words read found?)
    (lines : List Line) (offset : Nat) {before : Option Char}
    (boundary : atBoundary before = true) :
    occurrencesFrom read offset before (textOf lines) =
      (spots offset lines).filterMap fun spot => (found? spot.line).map spot.place := by
  induction lines generalizing offset before with
  | nil =>
    rw [show textOf [] = [] from rfl, occurrencesFrom]
    rfl
  | cons line lines ih =>
    -- Whatever comes last in this line, searching goes on behind the break.
    have next (last : Option Char) :
        occurrencesFrom read (offset + line.text.length) last (behind lines) =
          (spots (offset + line.text.length + 1) lines).filterMap
            fun spot => (found? spot.line).map spot.place := by
      cases lines with
      | nil =>
        rw [behind, occurrencesFrom]
        rfl
      | cons other lines =>
        have newline : IsQuiet words (textOf (other :: lines)) ['\n'] :=
          isQuiet_of_marks (isWord_of_mem finds.known) (by decide)
        have passed := occurrencesFrom_quiet finds.refuses newline (offset + line.text.length) last
        rw [behind]
        exact passed.trans (ih _ rfl)
    rw [textOf_cons, spots, List.filterMap_cons]
    cases sought : found? line with
    | none =>
      obtain ⟨last, passed⟩ :=
        finds.passes line sought (behind lines) (head_behind lines) offset before
      rw [passed, next last]
      rfl
    | some finding =>
      obtain ⟨whole, nonempty⟩ := finds.divides line finding sought
      obtain ⟨quiet, answer⟩ := finds.finds line finding sought (behind lines) (head_behind lines)
      have size : offset + finding.lead.length + finding.tail.length =
          offset + line.text.length := by
        rw [whole, List.length_append, Nat.add_assoc]
      have rest := occurrencesFrom_quiet finds.refuses quiet (offset + finding.lead.length)
        finding.lead.getLast?
      rw [whole, List.append_assoc, occurrencesFrom_found nonempty (answer before boundary), rest,
        size, next, ← whole]
      rfl

/-! The three searches -/

namespace Line

def sealed? : Line → Option (Finding (Marked Text))
  | sealed name => some ⟨"sealed interface ".toList ++ name.text, ⟨0, name.text⟩, []⟩
  | _ => none

def data? : Line → Option (Finding Text)
  | data name fields parent =>
    some ⟨"data class ".toList ++ name.text ++ ['('], name.text, fieldsText fields parent⟩
  | _ => none

def object? : Line → Option (Finding ObjectHeader)
  | object name parent =>
    some ⟨(object name parent).text, ⟨name.text, parent.text⟩, []⟩
  | _ => none

end Line

theorem outside_break {rest : Text} (ends : ∀ c ∈ rest.head?, c = '\n') :
    ∀ c ∈ rest.head?, isWordChar c = false ∧ isDottedChar c = false := by
  intro c head
  rw [ends c head]
  decide

/-- Quiet lines are passed over. -/
theorem passes_quiet {words : List String} {read : Lookbehind α} (refuses : Refuses words read)
    {text rest : Text} (quiet : IsQuiet words rest text) (offset : Nat) (before : Option Char) :
    ∃ last, occurrencesFrom read offset before (text ++ rest) =
      occurrencesFrom read (offset + text.length) last rest :=
  ⟨_, occurrencesFrom_quiet refuses quiet offset before⟩

theorem finds_sealed_lines (names : List String) :
    FindsLines (modifiers ++ ["sealed"]) (fun _ => marked? names sealedHeader?) Line.sealed? where
  known := by simp [lineWords, headerWords]
  refuses := refuses_sealed names
  passes := by
    intro line absent rest ends
    have known : modifiers ++ ["sealed"] ⊆ lineWords := by simp [lineWords, headerWords]
    have outside : ∀ c ∈ rest.head?, isWordChar c = false :=
      fun c head => (outside_break ends c head).1
    refine passes_quiet (refuses_sealed names) ?_
    cases line with
    | blank => trivial
    | sealed name => cases absent
    | data name fields parent =>
      have quiet := isQuiet_data known (show IsWord "data".toList by decide) name fields parent
        (by decide) outside
      simpa [fieldsText, Line.text_data] using quiet
    | object name parent => exact isQuiet_object known name parent (by decide) outside
  divides := by
    intro line finding sought
    cases line with
    | sealed name => cases sought; simp [Line.text_sealed]
    | blank | data | object => cases sought
  finds := by
    intro line finding sought rest ends
    have outside : ∀ c ∈ rest.head?, isWordChar c = false :=
      fun c head => (outside_break ends c head).1
    cases line with
    | sealed name =>
      cases sought
      refine ⟨trivial, fun before _ => ?_⟩
      rw [List.append_assoc]
      exact sealedHeader?_text name rest outside names
    | blank | data | object => cases sought

theorem refuses_data : Refuses ["data"] dataCaseHeader? := by
  intro before text quiet
  have absent : keyword? "data" text = none := quiet.wordless "data" (by simp)
  simp [dataCaseHeader?, absent]

theorem finds_data_lines : FindsLines ["data"] dataCaseHeader? Line.data? where
  known := by simp [lineWords]
  refuses := refuses_data
  passes := by
    intro line absent rest ends
    have outside : ∀ c ∈ rest.head?, isWordChar c = false :=
      fun c head => (outside_break ends c head).1
    refine passes_quiet refuses_data ?_
    cases line with
    | blank => trivial
    | sealed name => exact isQuiet_sealed (by simp [lineWords]) name (by decide) outside
    | data => cases absent
    | object name parent =>
      exact isQuiet_object (by simp [lineWords]) name parent (by decide) outside
  divides := by
    intro line finding sought
    cases line with
    | data name fields parent => cases sought; simp [Line.text_data, fieldsText]
    | blank | sealed | object => cases sought
  finds := by
    intro line finding sought rest ends
    have outside : ∀ c ∈ rest.head?, isWordChar c = false :=
      fun c head => (outside_break ends c head).1
    cases line with
    | data name fields parent =>
      cases sought
      refine ⟨isQuiet_fieldsText (by simp [lineWords]) fields parent (by decide) outside, ?_⟩
      intro before boundary
      rw [List.append_assoc, List.append_assoc]
      exact dataCaseHeader?_text boundary name (fieldsText fields parent ++ rest)
    | blank | sealed | object => cases sought

theorem refuses_object : Refuses ["data", "object"] objectHeader? := by
  intro before text quiet
  have plain : keyword? "data" text = none := quiet.wordless "data" (by simp)
  have absent : keyword? "object" text = none := quiet.wordless "object" (by simp)
  simp [objectHeader?, plain, absent]

theorem finds_object_lines : FindsLines ["data", "object"] objectHeader? Line.object? where
  known := by simp [lineWords, headerWords]
  refuses := refuses_object
  passes := by
    intro line absent rest ends offset before
    have known : ["data", "object"] ⊆ lineWords := by simp [lineWords, headerWords]
    have outside : ∀ c ∈ rest.head?, isWordChar c = false :=
      fun c head => (outside_break ends c head).1
    cases line with
    | blank => exact ⟨before, rfl⟩
    | sealed name =>
      have quiet := isQuiet_sealed known name (by decide) outside
      exact passes_quiet refuses_object quiet offset before
    | data name fields parent =>
      -- The line begins like one for a data object.
      let more := "ata".toList ++ [' '] ++
        ("class".toList ++ [' '] ++ (name.text ++ (['('] ++ fieldsText fields parent)))
      have whole : (Line.data name fields parent).text = 'd' :: more := by
        simp [more, Line.text_data, fieldsText]
      have refused : objectHeader? before ('d' :: (more ++ rest)) = none := by
        have header : objectHeader? before ("data".toList ++ ' ' :: ("class".toList ++
            ' ' :: (name.text ++ (['('] ++ (fieldsText fields parent ++ rest))))) = none :=
          objectHeader?_data _
        simpa [more] using header
      have quiet : IsQuiet ["data", "object"] rest more :=
        isQuiet_data known (show IsWord "ata".toList by decide) name fields parent (by decide)
          outside
      obtain ⟨last, passed⟩ := passes_quiet refuses_object quiet (offset + 1) (some 'd')
      refine ⟨last, ?_⟩
      rw [whole, List.cons_append, occurrencesFrom, refused, List.length_cons,
        Nat.add_comm more.length 1, ← Nat.add_assoc]
      exact passed
    | object => cases absent
  divides := by
    intro line finding sought
    cases line with
    | object name parent => cases sought; simp [Line.text_object]
    | blank | sealed | data => cases sought
  finds := by
    intro line finding sought rest ends
    have outside : ∀ c ∈ rest.head?, isDottedChar c = false :=
      fun c head => (outside_break ends c head).2
    cases line with
    | object name parent =>
      cases sought
      refine ⟨trivial, fun before boundary => ?_⟩
      have read := objectHeader?_text boundary name parent rest outside
      rw [Line.text_object, List.append_assoc, List.append_assoc, List.append_assoc]
      exact read
    | blank | sealed | data => cases sought

end DeclBridge.Kotlin.Syntax
