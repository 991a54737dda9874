import DeclBridge.Proofs.TypeSpellings

/-! Sources have no comments, so that blanking their literals is all that happens to them before
their headers are looked for. Blanking keeps every length. -/

namespace DeclBridge.Kotlin.Syntax

open Text

/-- The literal with its contents blanked. -/
def Literal.masked (literal : Literal) : Text :=
  maskLiterals literal.text

section

variable (literal : Literal → Text)

@[simp]
theorem printAll_nil : printAll literal [] = [] :=
  rfl

@[simp]
theorem printAll_cons (block : Block) (blocks : List Block) :
    printAll literal (block :: blocks) = block.print literal ++ printAll literal blocks :=
  rfl

@[simp]
theorem printAll_append (first second : List Block) :
    printAll literal (first ++ second) = printAll literal first ++ printAll literal second :=
  List.flatMap_append

end

/-- The text that headers are looked for in. -/
def maskedText (blocks : List Block) : Text :=
  printAll Literal.masked blocks

@[simp]
theorem maskedText_nil : maskedText [] = [] :=
  rfl

@[simp]
theorem maskedText_cons (block : Block) (blocks : List Block) :
    maskedText (block :: blocks) = block.print Literal.masked ++ maskedText blocks :=
  rfl

@[simp]
theorem maskedText_append (first second : List Block) :
    maskedText (first ++ second) = maskedText first ++ maskedText second :=
  printAll_append Literal.masked first second

/-- The length of the text of some blocks, and so the offset of what follows them. -/
def extent (blocks : List Block) : Nat :=
  (maskedText blocks).length

@[simp]
theorem extent_nil : extent [] = 0 :=
  rfl

@[simp]
theorem extent_cons (block : Block) (blocks : List Block) :
    extent (block :: blocks) = (block.print Literal.masked).length + extent blocks :=
  List.length_append

@[simp]
theorem extent_append (first second : List Block) :
    extent (first ++ second) = extent first + extent second := by
  rw [extent, maskedText_append, List.length_append, extent, extent]

/-! Replacing within a source -/

/-- Something is put in the place of literals only, and for each one on its own. -/
structure Replaces (read : Text → Option (Text × Text)) : Prop where
  refuses : ∀ c ∉ replaceMarks, ∀ rest, read (c :: rest) = none
  quoted : ∀ inner, IsQuoted inner → ∃ image, ∀ rest : Text, rest.head? ≠ some '"' →
    read ('"' :: inner ++ '"' :: rest) = some (image, rest)

/-- The marks around bodies. -/
def bodyMarks : List Char :=
  ['\n', '{', '}']

def foreignMarks : List Char :=
  replaceMarks ++ bodyMarks

def IsFree (marks : List Char) (text : Text) : Prop :=
  ∀ c ∈ text, c ∉ marks

instance (marks : List Char) (text : Text) : Decidable (IsFree marks text) :=
  inferInstanceAs (Decidable (∀ c ∈ text, c ∉ marks))

theorem IsFree.append {marks : List Char} {text other : Text} (first : IsFree marks text)
    (second : IsFree marks other) : IsFree marks (text ++ other) :=
  List.forall_mem_append.mpr ⟨first, second⟩

theorem IsFree.replaced {text : Text} (free : IsFree foreignMarks text) :
    IsFree replaceMarks text :=
  fun c inside member => free c inside (List.mem_append_left _ member)

theorem IsFree.bodiless {text : Text} (free : IsFree foreignMarks text) : IsFree bodyMarks text :=
  fun c inside member => free c inside (List.mem_append_right _ member)

theorem isFree_of_isWord {text : Text} (word : IsWord text) : IsFree foreignMarks text := by
  have outside : ∀ mark ∈ foreignMarks, isWordChar mark = false := by decide
  exact fun c inside member => word.not_mem (outside c member) inside

theorem isFree_of_spelling {isList : Bool} {text : Text} (spelling : Spelling isList text) :
    IsFree foreignMarks text := by
  have outside : ∀ mark ∈ foreignMarks, isWordChar mark = false ∧ mark ∉ Spelling.marks := by decide
  exact fun c inside member => spelling.not_mem (outside c member) inside

theorem isFree_of_isBare {text : Text} (bare : IsBare text) : IsFree foreignMarks text := by
  have outside : ∀ mark ∈ foreignMarks, isBareChar mark = false ∧ mark ≠ '-' := by decide
  exact fun c inside member => bare.not_mem (outside c member).1 (outside c member).2 inside

theorem Parameter.isFree_front (parameter : Parameter) : IsFree foreignMarks parameter.front := by
  have vararg : IsFree foreignMarks (if parameter.isVararg then "vararg ".toList else []) := by
    split <;> decide
  exact ((vararg.append (isFree_of_isWord parameter.name.word)).append (by decide)).append
    (isFree_of_spelling parameter.type.spelling)

theorem Outcome.isFree_returned (outcome : Outcome) : IsFree foreignMarks outcome.returned := by
  have mark : IsFree foreignMarks ": ".toList := by decide
  cases outcome with
  | suspending result =>
    cases result with
    | none => decide
    | some result => exact mark.append (isFree_of_spelling result.spelling)
  | flow element =>
    have flow : IsFree foreignMarks ": Flow<".toList := by decide
    exact (flow.append (isFree_of_spelling element.spelling)).append (by decide)

theorem Function.isFree_lead (function : Function) : IsFree foreignMarks function.lead := by
  have keyword : IsFree foreignMarks function.outcome.keyword := by
    cases function.outcome with
    | suspending => exact (by decide : IsFree foreignMarks "suspend fun ".toList)
    | flow => exact (by decide : IsFree foreignMarks "fun ".toList)
  exact (keyword.append (isFree_of_isWord function.name.word)).append (by decide)

theorem Function.isFree_tail (function : Function) : IsFree replaceMarks function.tail := by
  have round : IsFree replaceMarks [')'] := by decide
  exact (round.append function.outcome.isFree_returned.replaced).append (by decide)

namespace Replaces

variable {read : Text → Option (Text × Text)} (replaces : Replaces read)
include replaces

theorem replaceAll_free {text : Text} (free : IsFree replaceMarks text) (rest : Text) :
    replaceAll read (text ++ rest) = text ++ replaceAll read rest := by
  induction text with
  | nil => rfl
  | cons c text ih =>
    obtain ⟨first, others⟩ := List.forall_mem_cons.mp free
    rw [List.cons_append, replaceAll_cons (replaces.refuses c first _), ih others, List.cons_append]

/-- A quote right behind a literal could make a raw string out of it. -/
theorem replaceAll_literal (literal : Literal) {rest : Text} (unquoted : rest.head? ≠ some '"') :
    replaceAll read (literal.text ++ rest) =
      replaceAll read literal.text ++ replaceAll read rest := by
  rcases quoted_or_bare literal.isLiteral literal.singleLine with ⟨inner, same, quoted⟩ | bare
  · obtain ⟨image, found⟩ := replaces.quoted inner quoted
    have here {rest : Text} (unquoted : rest.head? ≠ some '"') :
        replaceAll read (literal.text ++ rest) = image ++ replaceAll read rest := by
      refine replaceAll_append (by simp [same]) ?_
      simpa [same] using found rest unquoted
    have alone : replaceAll read literal.text = image := by
      have whole := here (show ([] : Text).head? ≠ some '"' by simp)
      rwa [replaceAll, List.append_nil, List.append_nil] at whole
    rw [here unquoted, alone]
  · have alone : replaceAll read literal.text = literal.text := by
      have whole := replaces.replaceAll_free (isFree_of_isBare bare).replaced []
      rwa [replaceAll, List.append_nil] at whole
    rw [replaces.replaceAll_free (isFree_of_isBare bare).replaced, alone]

theorem replaceAll_parameter (parameter : Parameter) {rest : Text}
    (unquoted : rest.head? ≠ some '"') :
    replaceAll read (parameter.print (·.text) ++ rest) =
      parameter.print (fun literal => replaceAll read literal.text) ++ replaceAll read rest := by
  rw [Parameter.print, Parameter.print, List.append_assoc, List.append_assoc,
    replaces.replaceAll_free parameter.isFree_front.replaced]
  cases parameter.default with
  | none => rfl
  | some literal =>
    have mark : IsFree replaceMarks " = ".toList := by decide
    rw [Option.elim_some, Option.elim_some, List.append_assoc, replaces.replaceAll_free mark,
      replaces.replaceAll_literal literal unquoted, List.append_assoc]

theorem replaceAll_parameters (parameters : List Parameter) {rest : Text}
    (unquoted : rest.head? ≠ some '"') :
    replaceAll read (commaSpaced (parameters.map (·.print (·.text))) ++ rest) =
      commaSpaced (parameters.map (·.print fun literal => replaceAll read literal.text)) ++
        replaceAll read rest := by
  induction parameters with
  | nil => rfl
  | cons parameter parameters ih =>
    cases parameters with
    | nil =>
      rw [List.map_singleton, List.map_singleton, commaSpaced_singleton, commaSpaced_singleton]
      exact replaces.replaceAll_parameter parameter unquoted
    | cons next others =>
      have comma : IsFree replaceMarks [',', ' '] := by decide
      simp only [List.map_cons, commaSpaced_cons_cons, List.append_assoc] at ih ⊢
      rw [replaces.replaceAll_parameter parameter (by simp), replaces.replaceAll_free comma, ih]

theorem replaceAll_function (function : Function) (rest : Text) :
    replaceAll read (function.print (·.text) ++ rest) =
      function.print (fun literal => replaceAll read literal.text) ++ replaceAll read rest := by
  rw [Function.print, Function.print, List.append_assoc, List.append_assoc,
    replaces.replaceAll_free function.isFree_lead.replaced, Function.printParameters,
    replaces.replaceAll_parameters _ (by simp [Function.tail]),
    replaces.replaceAll_free function.isFree_tail, List.append_assoc, List.append_assoc]
  rfl

theorem replaceAll_block (block : Block) (rest : Text) :
    replaceAll read (block.print (·.text) ++ rest) =
      block.print (fun literal => replaceAll read literal.text) ++ replaceAll read rest := by
  cases block with
  | package path =>
    have front : IsFree replaceMarks "package ".toList := by decide
    exact replaces.replaceAll_free
      ((front.append (isFree_of_spelling (spelling_path path)).replaced).append (by decide)) rest
  | opening name =>
    have front : IsFree replaceMarks "class ".toList := by decide
    exact replaces.replaceAll_free
      ((front.append (isFree_of_isWord name.word).replaced).append (by decide)) rest
  | closing => exact replaces.replaceAll_free (by decide) rest
  | function member => exact replaces.replaceAll_function member rest

theorem replaceAll_printAll (blocks : List Block) :
    replaceAll read (printAll (·.text) blocks) =
      printAll (fun literal => replaceAll read literal.text) blocks := by
  induction blocks with
  | nil => rw [printAll_nil, printAll_nil, replaceAll]
  | cons block blocks ih =>
    rw [printAll_cons, printAll_cons, replaces.replaceAll_block, ih]

end Replaces

/-! The two kinds of comments -/

private theorem not_mem_replaceMarks {c : Char} (unmarked : c ∉ replaceMarks) :
    c ≠ '"' ∧ c ≠ '\'' ∧ c ≠ '/' := by
  simpa [replaceMarks] using unmarked

theorem replaces_blockComments : Replaces stringOrBlockComment? := by
  constructor
  · intro c unmarked rest
    obtain ⟨unquoted, -, uncommented⟩ := not_mem_replaceMarks unmarked
    unfold stringOrBlockComment?
    split
    · next same => exact absurd (List.cons.inj same).1 uncommented
    · exact string?_eq_none unquoted rest
  · intro inner quoted
    exact ⟨'"' :: inner ++ ['"'], fun rest _ => string?_append quoted rest⟩

theorem replaces_lineComments : Replaces stringOrLineComment? := by
  constructor
  · intro c unmarked rest
    obtain ⟨unquoted, -, uncommented⟩ := not_mem_replaceMarks unmarked
    unfold stringOrLineComment?
    split
    · next same => exact absurd (List.cons.inj same).1 uncommented
    · exact string?_eq_none unquoted rest
  · intro inner quoted
    exact ⟨'"' :: inner ++ ['"'], fun rest _ => string?_append quoted rest⟩

theorem replaces_literals : Replaces maskedLiteral? := by
  constructor
  · intro c unmarked rest
    have quotes : ['"', '\''] ⊆ replaceMarks := by decide
    exact maskedLiteral?_eq_none (fun inside => unmarked (quotes inside)) rest
  · intro inner quoted
    exact ⟨'"' :: blankOut inner ++ ['"'], fun rest unquoted =>
      maskedLiteral?_append quoted unquoted⟩

/-- Strings are found, but only to be passed over. -/
private theorem replaceAll_eq_self {read : Text → Option (Text × Text)} (replaces : Replaces read)
    (same : ∀ inner, IsQuoted inner →
      read ('"' :: inner ++ ['"']) = some ('"' :: inner ++ ['"'], [])) (literal : Literal) :
    replaceAll read literal.text = literal.text := by
  rcases quoted_or_bare literal.isLiteral literal.singleLine with ⟨inner, whole, quoted⟩ | bare
  · have found : read (literal.text ++ []) = some (literal.text, []) := by
      simpa [whole] using same inner quoted
    have replaced := replaceAll_append (by simp [whole]) found
    rwa [replaceAll, List.append_nil] at replaced
  · have replaced := replaces.replaceAll_free (isFree_of_isBare bare).replaced []
    rwa [replaceAll, List.append_nil] at replaced

theorem stripComments_printAll (blocks : List Block) :
    stripComments (printAll (·.text) blocks) = printAll (·.text) blocks := by
  have keeps {inner : Text} (quoted : IsQuoted inner) := string?_append quoted []
  have block := replaceAll_eq_self replaces_blockComments fun inner quoted => keeps quoted
  have line := replaceAll_eq_self replaces_lineComments fun inner quoted => keeps quoted
  rw [stripComments, stripLineComments, stripBlockComments,
    replaces_blockComments.replaceAll_printAll]
  simp only [block]
  rw [replaces_lineComments.replaceAll_printAll]
  simp only [line]

theorem maskLiterals_printAll (blocks : List Block) :
    maskLiterals (printAll (·.text) blocks) = maskedText blocks :=
  replaces_literals.replaceAll_printAll blocks

theorem extent_eq (blocks : List Block) : extent blocks = (printAll (·.text) blocks).length := by
  rw [extent, ← maskLiterals_printAll, length_maskLiterals]

theorem Function.length_printParameters_masked (function : Function) :
    (function.printParameters Literal.masked).length =
      (function.printParameters (·.text)).length := by
  have masked : maskLiterals (function.printParameters (·.text)) =
      function.printParameters Literal.masked := by
    have whole := replaces_literals.replaceAll_parameters function.parameters
      (show ([] : Text).head? ≠ some '"' by simp)
    rwa [List.append_nil, replaceAll, List.append_nil] at whole
  rw [← masked, length_maskLiterals]

/-! Masked literals -/

theorem Literal.blank_or_bare (literal : Literal) :
    (∃ count, literal.masked = '"' :: List.replicate count ' ' ++ ['"']) ∨
      IsBare literal.masked := by
  rcases quoted_or_bare literal.isLiteral literal.singleLine with ⟨inner, whole, quoted⟩ | bare
  · have blank : blankOut inner = List.replicate inner.length ' ' := by
      refine List.map_eq_replicate_iff.mpr fun c inside => if_neg ?_
      rintro rfl
      exact literal.singleLine (by simp [whole, inside])
    have found : maskedLiteral? (literal.text ++ []) =
        some ('"' :: blankOut inner ++ ['"'], []) := by
      simpa [whole] using maskedLiteral?_append quoted (show ([] : Text).head? ≠ some '"' by simp)
    have masked := replaceAll_append (by simp [whole]) found
    rw [replaceAll, List.append_nil, List.append_nil, blank] at masked
    exact .inl ⟨inner.length, masked⟩
  · have masked := replaces_literals.replaceAll_free (isFree_of_isBare bare).replaced []
    rw [replaceAll, List.append_nil] at masked
    refine .inr ?_
    rwa [Literal.masked, maskLiterals, masked]

theorem Literal.isFree_masked (literal : Literal) : IsFree bodyMarks literal.masked := by
  rcases literal.blank_or_bare with ⟨count, masked⟩ | bare
  · rw [masked]
    have blanks : IsFree bodyMarks (List.replicate count ' ') := by
      intro c inside
      rw [List.eq_of_mem_replicate inside]
      decide
    have quote : IsFree bodyMarks ['"'] := by decide
    exact (quote.append blanks).append quote
  · exact (isFree_of_isBare bare).bodiless

theorem Function.isFree_printParameters (function : Function) :
    IsFree bodyMarks (function.printParameters Literal.masked) := by
  intro c inside
  rcases mem_intercalate inside with comma | ⟨part, member, inside⟩
  · exact (by decide : IsFree bodyMarks [',', ' ']) c comma
  · obtain ⟨parameter, -, rfl⟩ := List.mem_map.mp member
    have default : IsFree bodyMarks
        (parameter.default.elim [] (" = ".toList ++ Literal.masked ·)) := by
      cases parameter.default with
      | none => decide
      | some literal =>
        have mark : IsFree bodyMarks " = ".toList := by decide
        exact mark.append literal.isFree_masked
    exact (parameter.isFree_front.bodiless.append default) c inside

/-! The package -/

theorem packageName_inside {line : Text} (single : '\n' ∉ line) (rest : Text) :
    packageName false (line ++ rest) = packageName false rest := by
  induction line with
  | nil => rfl
  | cons c line ih =>
    rw [List.mem_cons, not_or] at single
    rw [List.cons_append, packageName]
    simp [Ne.symm single.1, ih single.2]

/-- Only what starts with the keyword names a package. -/
theorem packageName_start {c : Char} {text : Text}
    (other : ∀ d ∈ (skipBlanks (c :: text)).head?, d ≠ 'p') :
    packageName true (c :: text) = packageName (c = '\n') text := by
  have unnamed : keyword? "package" (skipBlanks (c :: text)) = none := by
    cases front : skipBlanks (c :: text) with
    | nil => rfl
    | cons d more =>
      have differs : d ≠ 'p' := other d (by simp [front])
      simp [keyword?, literal?, behind?, Ne.symm differs]
  rw [packageName, unnamed]
  rfl

/-- A line that does not start with the keyword names no package. -/
theorem packageName_line {c : Char} {line : Text} (ink : isBlank c = false) (other : c ≠ 'p')
    (single : '\n' ∉ c :: line) (rest : Text) :
    packageName true (c :: line ++ '\n' :: rest) = packageName true rest := by
  rw [List.mem_cons, not_or] at single
  have front : skipBlanks (c :: (line ++ '\n' :: rest)) = c :: (line ++ '\n' :: rest) :=
    skipBlanks_eq_self_iff.mpr (by simpa using ink)
  rw [List.cons_append, packageName_start (by simpa [front] using other),
    decide_eq_false (Ne.symm single.1), packageName_inside single.2, packageName]
  simp

private theorem packageName_closing (rest : Text) :
    packageName true (Block.closing.print Literal.masked ++ rest) = packageName true rest :=
  packageName_line rfl (by decide) (show '\n' ∉ ['}'] by simp) rest

private theorem packageName_function (function : Function) (rest : Text) :
    packageName true (function.print Literal.masked ++ rest) = packageName true rest := by
  obtain ⟨c, more, lead, ink, other⟩ : ∃ c more, function.lead = c :: more ∧
      isBlank c = false ∧ c ≠ 'p' := by
    rw [Function.lead]
    cases function.outcome with
    | suspending => exact ⟨'s', _, rfl, rfl, by decide⟩
    | flow => exact ⟨'f', _, rfl, rfl, by decide⟩
  have free {text : Text} (free : IsFree bodyMarks text) : '\n' ∉ text :=
    fun inside => free '\n' inside (by decide)
  have single : '\n' ∉ c :: (more ++ function.printParameters Literal.masked ++
      ')' :: function.outcome.returned ++ [' ', '{']) := by
    have front := free (function.isFree_lead.bodiless)
    have within := free function.isFree_printParameters
    have back := free function.outcome.isFree_returned.bodiless
    rw [lead] at front
    simp_all
  have line := packageName_line ink other single ('}' :: '\n' :: rest)
  have closing : packageName true ('}' :: '\n' :: rest) = packageName true rest :=
    packageName_closing rest
  rw [← closing, ← line, Function.print, Function.tail, lead]
  simp

private theorem packageName_opening (name : Identifier) (rest : Text) :
    packageName true ((Block.opening name).print Literal.masked ++ rest) =
      packageName true rest := by
  have single : '\n' ∉ 'c' :: ("lass ".toList ++ name.text ++ [' ', '{']) := by
    have inside : '\n' ∉ name.text := name.word.not_mem (by decide)
    simp [inside]
  have whole : (Block.opening name).print Literal.masked ++ rest =
      'c' :: ("lass ".toList ++ name.text ++ [' ', '{']) ++ '\n' :: rest := by
    simp [Block.print_opening]
  rw [whole, packageName_line (by decide) (by decide) single rest]

theorem packageName_forest (forest : Forest) (rest : Text) :
    packageName true (maskedText forest.blocks ++ rest) = packageName true rest := by
  induction forest generalizing rest with
  | nil => rfl
  | type name members others first second =>
    simp only [Forest.blocks, List.cons_append, maskedText_cons, maskedText_append,
      List.append_assoc]
    rw [packageName_opening, first, packageName_closing, second]
  | function member others ih =>
    rw [Forest.blocks, maskedText_cons, List.append_assoc]
    exact (packageName_function member _).trans (ih rest)

theorem packageName_file (file : File) :
    packageName true (maskedText file.blocks) = file.package.elim [] (·.text) := by
  obtain ⟨package, members⟩ := file
  cases package with
  | none =>
    have nameless := packageName_forest members []
    rwa [List.append_nil] at nameless
  | some path =>
    let behind := '\n' :: maskedText members.blocks
    have ink : ∀ c ∈ (path.text ++ behind).head?, isBlank c = false := by
      rw [List.head?_append_of_ne_nil _ (spelling_path path).ne_nil]
      exact fun c head => (spelling_path path).spaced.isTrimmed.head_ink head
    have keyword : keyword? "package" ("package".toList ++ ' ' :: (path.text ++ behind)) =
        some (path.text ++ behind) := keyword?_append ink
    have name : dotted? (path.text ++ behind) = some (path.text, behind) := by
      refine run?_append (spelling_path path).ne_nil (isDottedChar_path path) ?_
      rintro _ ⟨⟩
      decide
    have front : skipBlanks ("package".toList ++ ' ' :: (path.text ++ behind)) =
        "package".toList ++ ' ' :: (path.text ++ behind) :=
      skipBlanks_eq_self_iff.mpr (by simp; decide)
    have whole : maskedText (File.mk (some path) members).blocks =
        "package".toList ++ ' ' :: (path.text ++ behind) := by
      simp [File.blocks, File.front, Block.print_package, behind]
    have start : "package".toList ++ ' ' :: (path.text ++ behind) =
        'p' :: ("ackage ".toList ++ (path.text ++ behind)) := rfl
    rw [start] at front keyword
    rw [whole, start, packageName, front, keyword]
    simp [name]

end DeclBridge.Kotlin.Syntax
