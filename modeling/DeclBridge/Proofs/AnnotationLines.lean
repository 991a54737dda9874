import DeclBridge.Proofs.EnclosedScopes

/-! Annotations on lines of their own. In front of a source an annotation moves its types and
changes nothing else about them, and no header begins behind the sign of the annotation. -/

namespace DeclBridge.Kotlin.Syntax

open Text

/-! Annotations -/

/-- The words that headers and the line of the package begin with. -/
def declarationWords : List String :=
  headerWords ++ ["data", "package"]

/-- The marks that stand in arguments only as parts of strings. -/
def argumentMarks : List Char :=
  replaceMarks ++ ['(', ')', '{', '}']

/-- Arguments whose strings end on the line where they begin. -/
inductive IsArgumentText : Text → Prop where
  | nil : IsArgumentText []
  | plain {c : Char} {rest : Text} (unmarked : c ∉ argumentMarks) (behind : IsArgumentText rest) :
    IsArgumentText (c :: rest)
  | string {inner rest : Text} (quoted : IsQuoted inner) (single : rest.head? ≠ some '"')
    (behind : IsArgumentText rest) : IsArgumentText ('"' :: inner ++ '"' :: rest)

/-- No header begins in arguments, whatever their strings say. -/
structure IsArguments (text : Text) : Prop where
  isText : IsArgumentText text
  quiet : IsQuiet declarationWords [] (maskLiterals text)

/-- `@Name` or `@Name(arguments)`. A name that the line ends with must not be read as a keyword. -/
structure AnnotationLine where
  name : Text
  arguments : Option Text
  word : IsWord name
  apart : arguments = none → ∀ word ∈ declarationWords, ¬word.toList <:+ name
  isArguments : ∀ text ∈ arguments, IsArguments text

namespace AnnotationLine

variable (line : AnnotationLine)

/-- The arguments in their parentheses, if there are any. -/
def list (mask : Text → Text) : Text :=
  line.arguments.elim [] fun text => '(' :: mask text ++ [')']

/-- The line behind the sign of the annotation. -/
def behind (mask : Text → Text) : Text :=
  line.name ++ line.list mask ++ ['\n']

def text : Text :=
  '@' :: line.behind id

/-- The line with its strings blanked. -/
def masked : Text :=
  '@' :: line.behind maskLiterals

end AnnotationLine

theorem isWord_of_mem_declarationWords : ∀ word ∈ declarationWords, IsWord word.toList :=
  List.forall_mem_append.mpr ⟨isWord_of_mem_headerWords, by decide⟩

/-! Arguments -/

theorem isArgumentText_of_free {text : Text} (free : IsFree argumentMarks text) :
    IsArgumentText text := by
  induction text with
  | nil => exact .nil
  | cons c text ih =>
    obtain ⟨first, others⟩ := List.forall_mem_cons.mp free
    exact .plain first (ih others)

section

variable {read : Text → Option (Text × Text)} (replaces : Replaces read) {text : Text}
  (arguments : IsArgumentText text)
include replaces arguments

theorem replaceAll_arguments {rest : Text} (unquoted : rest.head? ≠ some '"') :
    replaceAll read (text ++ rest) = replaceAll read text ++ replaceAll read rest := by
  induction arguments with
  | nil => simp [replaceAll]
  | @plain c more unmarked _ ih =>
    have refused := replaces.refuses c fun member => unmarked (List.mem_append_left _ member)
    rw [List.cons_append, replaceAll_cons (refused _), replaceAll_cons (refused _), ih]
    rfl
  | @string inner more quoted single _ ih =>
    obtain ⟨image, found⟩ := replaces.quoted inner quoted
    have here {back : Text} (apart : back.head? ≠ some '"') :
        replaceAll read ('"' :: inner ++ '"' :: back) = image ++ replaceAll read back := by
      have reached := found back apart
      rw [List.append_cons] at reached ⊢
      exact replaceAll_append (by simp) reached
    have apart : (more ++ rest).head? ≠ some '"' := by
      cases more with
      | nil => exact unquoted
      | cons c more => exact single
    have whole : '"' :: inner ++ '"' :: more ++ rest = '"' :: inner ++ '"' :: (more ++ rest) := by
      simp
    rw [whole, here apart, here single, ih, List.append_assoc]

/-- Where strings stay as they are, so do arguments. -/
theorem replaceAll_arguments_eq (same : ∀ inner rest, IsQuoted inner →
    read ('"' :: inner ++ '"' :: rest) = some ('"' :: inner ++ ['"'], rest)) :
    replaceAll read text = text := by
  induction arguments with
  | nil => simp [replaceAll]
  | @plain c more unmarked _ ih =>
    rw [replaceAll_cons (replaces.refuses c (fun member =>
      unmarked (List.mem_append_left _ member)) _), ih]
  | @string inner more quoted _ _ ih =>
    have reached := same inner more quoted
    rw [List.append_cons] at reached ⊢
    rw [replaceAll_append (by simp) reached, ih]

end

/-- With their strings blanked arguments have none of the marks but quotes. -/
theorem not_mem_maskLiterals {text : Text} (arguments : IsArgumentText text) {mark : Char}
    (member : mark ∈ ['(', ')', '{', '}']) : mark ∉ maskLiterals text := by
  have unquoted : mark ≠ '"' := by
    rintro rfl
    exact absurd member (by decide)
  have inked : mark ≠ ' ' ∧ mark ≠ '\n' := by
    constructor <;> rintro rfl <;> exact absurd member (by decide)
  induction arguments with
  | nil => simp [maskLiterals, replaceAll]
  | @plain c more unmarked _ ih =>
    rw [maskLiterals, replaceAll_cons (replaces_literals.refuses c (fun inside =>
      unmarked (List.mem_append_left _ inside)) _), List.mem_cons, not_or]
    refine ⟨?_, ih⟩
    rintro rfl
    exact unmarked (List.mem_append_right _ member)
  | @string inner more quoted single _ ih =>
    have reached := maskedLiteral?_append quoted single
    rw [List.append_cons] at reached ⊢
    rw [maskLiterals, replaceAll_append (by simp) reached, List.mem_append, not_or]
    refine ⟨?_, ih⟩
    intro inside
    simp only [List.cons_append, List.mem_cons, List.mem_append, List.not_mem_nil, or_false,
      unquoted, false_or, blankOut, List.mem_map] at inside
    obtain ⟨c, -, same⟩ := inside
    split at same
    · next broken => exact inked.2 (same.symm.trans broken)
    · exact inked.1 same.symm

/-! The text of an annotation -/

namespace AnnotationLine

variable (line : AnnotationLine)

theorem list_congr {mask other : Text → Text}
    (same : ∀ text ∈ line.arguments, mask text = other text) :
    line.list mask = line.list other := by
  unfold list
  cases given : line.arguments with
  | none => rfl
  | some text => rw [Option.elim_some, Option.elim_some, same text given]

theorem replaceAll_text {read : Text → Option (Text × Text)} (replaces : Replaces read)
    (rest : Text) : replaceAll read (line.text ++ rest) =
      '@' :: line.behind (replaceAll read) ++ replaceAll read rest := by
  have name : IsFree replaceMarks line.name := (isFree_of_isWord line.word).replaced
  have sign : IsFree replaceMarks ['@'] := by decide
  have front := replaces.replaceAll_free (sign.append name)
  have ending := replaces.replaceAll_free (by decide : IsFree replaceMarks ['\n']) rest
  unfold text behind list
  cases given : line.arguments with
  | none =>
    have whole := front ('\n' :: rest)
    rw [List.singleton_append] at ending
    simpa [ending] using whole
  | some text =>
    have opened := replaces.replaceAll_free (by decide : IsFree replaceMarks ['('])
      (text ++ ')' :: '\n' :: rest)
    have unquoted : (')' :: '\n' :: rest).head? ≠ some '"' := by simp
    have inner := replaceAll_arguments replaces (line.isArguments text given).isText unquoted
    have closed := replaces.replaceAll_free (by decide : IsFree replaceMarks [')', '\n']) rest
    have whole := front ('(' :: (text ++ ')' :: '\n' :: rest))
    simp only [List.cons_append, List.nil_append] at opened closed
    simpa [opened, inner, closed] using whole

theorem stripComments_text (rest : Text) :
    stripComments (line.text ++ rest) = line.text ++ stripComments rest := by
  have kept {read : Text → Option (Text × Text)} (replaces : Replaces read)
      (same : ∀ inner rest, IsQuoted inner →
        read ('"' :: inner ++ '"' :: rest) = some ('"' :: inner ++ ['"'], rest)) (rest : Text) :
      replaceAll read (line.text ++ rest) = line.text ++ replaceAll read rest := by
    have list : line.list (replaceAll read) = line.list id :=
      line.list_congr fun text given =>
        replaceAll_arguments_eq replaces (line.isArguments text given).isText same
    rw [line.replaceAll_text replaces, behind, list]
    rfl
  have same (inner rest : Text) (quoted : IsQuoted inner) := string?_append quoted rest
  rw [stripComments, stripComments, stripBlockComments, kept replaces_blockComments same]
  exact kept replaces_lineComments same _

theorem maskLiterals_text (rest : Text) :
    maskLiterals (line.text ++ rest) = line.masked ++ maskLiterals rest :=
  line.replaceAll_text replaces_literals rest

theorem length_masked : line.masked.length = line.text.length := by
  have whole := line.maskLiterals_text []
  have length := length_maskLiterals (line.text ++ [])
  rw [whole, List.append_nil] at length
  simpa [maskLiterals, replaceAll] using length

theorem unbraced : ∀ c ∈ line.masked, c ≠ '{' ∧ c ≠ '}' := by
  have absent {mark : Char} (member : mark ∈ ['{', '}']) : mark ∉ line.masked := by
    have outside : ∀ mark ∈ ['{', '}'], isWordChar mark = false ∧ mark ∉ ['@', '(', ')', '\n'] ∧
        mark ∈ ['(', ')', '{', '}'] := by decide
    obtain ⟨other, apart, inner⟩ := outside mark member
    have name := line.word.not_mem other
    simp only [List.mem_cons, List.not_mem_nil, or_false, not_or] at apart
    unfold masked behind list
    cases given : line.arguments with
    | none => simp [name, apart]
    | some text =>
      have list := not_mem_maskLiterals (line.isArguments text given).isText inner
      simp [name, apart, list]
  intro c inside
  constructor
  · rintro rfl
    exact absent (by decide) inside
  · rintro rfl
    exact absent (by decide) inside

theorem masked_append (rest : Text) :
    line.masked ++ rest = '@' :: (line.name ++ (line.list maskLiterals ++ '\n' :: rest)) := by
  simp [masked, behind]

theorem isQuiet_behind (rest : Text) :
    IsQuiet declarationWords rest (line.behind maskLiterals) := by
  have ending : IsQuiet declarationWords rest ['\n'] :=
    isQuiet_of_marks isWord_of_mem_declarationWords (by decide)
  unfold behind
  refine IsQuiet.append ?_ ending
  unfold list
  cases given : line.arguments with
  | none =>
    rw [Option.elim_none, List.append_nil]
    exact isQuiet_of_word isWord_of_mem_declarationWords line.word (line.apart given)
      (outside_head (by decide) rest)
  | some text =>
    have inner := (line.isArguments text given).quiet
    have name : IsQuiet declarationWords (('(' :: maskLiterals text) ++ []) line.name := by
      refine isQuiet_of_ink isWord_of_mem_declarationWords
        (fun c inside => isBlank_of_isWordChar (line.word.wordChars c inside))
        (line.word.not_mem (by decide)) ?_
      intro c head
      obtain rfl : '(' = c := Option.some.inj head
      decide
    have opened : IsQuiet declarationWords (maskLiterals text ++ []) ['('] :=
      isQuiet_of_marks isWord_of_mem_declarationWords (by decide)
    have front : IsQuiet declarationWords [] (line.name ++ '(' :: maskLiterals text) :=
      name.append (opened.append inner)
    have closed := isQuiet_concat isWord_of_mem_declarationWords front
      (by decide : isWordChar ')' = false) (by decide) (by decide) (['\n'] ++ rest)
    simpa using closed

end AnnotationLine

/-! Searching behind an annotation -/

section

variable (line : AnnotationLine)

/-- Nothing is found in an annotation when nothing is read at its sign. -/
theorem occurrencesFrom_annotationLine {words : List String} {read : Lookbehind α}
    (refuses : Refuses words read) (known : words ⊆ declarationWords) {before : Option Char}
    {rest : Text} (refused : read before (line.masked ++ rest) = none) (offset : Nat) :
    occurrencesFrom read offset before (line.masked ++ rest) =
      occurrencesFrom read (offset + line.masked.length) (some '\n') rest := by
  have quiet := (line.isQuiet_behind rest).mono known
  have passed := occurrencesFrom_quiet refuses quiet (offset + 1) (some '@')
  have last : lastFrom (some '@') (line.behind maskLiterals) = some '\n' := by
    rw [AnnotationLine.behind, lastFrom_append]
    rfl
  have length : offset + 1 + (line.behind maskLiterals).length =
      offset + line.masked.length := by
    rw [AnnotationLine.masked, List.length_cons]
    omega
  rw [last, length] at passed
  exact (occurrencesFrom_refused refused offset).trans passed

/-- A keyword does not begin with a mark. -/
theorem keyword?_mark {word : String} (isWord : IsWord word.toList) {c : Char}
    (outside : isWordChar c = false) (rest : Text) : keyword? word (c :: rest) = none := by
  by_contra read
  obtain ⟨_, read⟩ := Option.ne_none_iff_exists'.mp read
  obtain ⟨more, same, -⟩ := exists_of_keyword? read
  obtain ⟨d, others, whole⟩ := List.exists_cons_of_ne_nil isWord.nonempty
  have inside := isWord.wordChars d (by simp [whole])
  rw [whole] at same
  rw [← (List.cons.inj same).1, outside] at inside
  cases inside

theorem oneKeyword?_mark {words : List String} (keywords : ∀ word ∈ words, IsWord word.toList)
    {c : Char} (outside : isWordChar c = false) (rest : Text) :
    oneKeyword? words (c :: rest) = none :=
  oneKeyword?_eq_none fun word member => keyword?_mark (keywords word member) outside rest

theorem skipModifiers_sign (rest : Text) : skipModifiers ('@' :: rest) = '@' :: rest := by
  have refused := oneKeyword?_mark isWord_of_mem_modifiers (by decide : isWordChar '@' = false) rest
  rw [skipModifiers, many_of_refused refused]

/-! Names of markers -/

/-- A name is read in a text that begins with another one when both are the same. -/
theorem bind_literal?_name {other : String} (isWord : IsWord other.toList) {name rest : Text}
    (isName : IsWord name) (ends : ∀ c ∈ rest.head?, isWordChar c = false) :
    ((literal? other (name ++ rest)).bind fun text =>
      if text.head?.any isWordChar then none else some text) =
      if other.toList = name then some rest else none := by
  by_cases same : other.toList = name
  · have ended : rest.head?.any isWordChar = false := by
      cases head : rest.head? with
      | none => rfl
      | some c => exact ends c head
    rw [if_pos same, ← same, literal?_append, Option.bind_some, ended]
    rfl
  · rw [if_neg same]
    cases read : literal? other (name ++ rest) with
    | none => rfl
    | some text =>
      have whole := behind?_eq_some_iff.mp read
      rcases List.append_eq_append_iff.mp whole with ⟨more, longer, back⟩ | ⟨more, longer, back⟩
      · cases more with
        | nil => exact absurd (by simpa using longer) same
        | cons c more =>
          have inside := isWord.wordChars c (by simp [longer])
          rw [ends c (by simp [back])] at inside
          cases inside
      · cases more with
        | nil => exact absurd (by simpa using longer.symm) same
        | cons c more =>
          have inside := isName.wordChars c (by simp [longer])
          simp [back, inside]

theorem findSome?_markerName {names : List String} (keywords : ∀ name ∈ names, IsWord name.toList)
    {name rest : Text} (isName : IsWord name) (ends : ∀ c ∈ rest.head?, isWordChar c = false) :
    (names.findSome? fun other => (literal? other (name ++ rest)).bind fun text =>
      if text.head?.any isWordChar then none else some text) =
      if name ∈ names.map String.toList then some rest else none := by
  induction names with
  | nil => rfl
  | cons other names ih =>
    obtain ⟨isWord, others⟩ := List.forall_mem_cons.mp keywords
    rw [List.findSome?_cons, bind_literal?_name isWord isName ends, ih others]
    by_cases same : other.toList = name
    · simp [same]
    · simp [same, Ne.symm same]

/-- An annotation of one of the names is passed as a marker, and no other annotation. -/
theorem afterMarker?_annotationLine {names : List String}
    (keywords : ∀ name ∈ names, IsWord name.toList) {rest : Text}
    (unopened : line.name ∈ names.map String.toList → (skipBlanks rest).head? ≠ some '(') :
    afterMarker? names (line.masked ++ rest) =
      if line.name ∈ names.map String.toList then some (skipBlanks rest) else none := by
  have sign (text : Text) : literal? "@" ('@' :: text) = some text := literal?_append "@" text
  have ends : ∀ c ∈ (line.list maskLiterals ++ '\n' :: rest).head?,
      isWordChar c = false := by
    unfold AnnotationLine.list
    cases line.arguments with
    | none => exact outside_head (by decide) rest
    | some text => exact outside_head (by decide) _
  have named := findSome?_markerName keywords line.word ends
  simp only [afterMarker?, line.masked_append, sign, Option.bind_eq_bind, Option.bind_some, named]
  by_cases member : line.name ∈ names.map String.toList
  · rw [if_pos member, if_pos member, Option.bind_some]
    have broken : skipBlanks ('\n' :: rest) = skipBlanks rest :=
      List.dropWhile_cons_of_pos (by decide)
    cases given : line.arguments with
    | none =>
      have closed : parenthesised? (skipBlanks rest) = none := by
        cases front : skipBlanks rest with
        | nil => rfl
        | cons c more =>
          have start := unopened member
          rw [front] at start
          have differs : '(' ≠ c := fun same => start (by rw [← same]; rfl)
          simp [parenthesised?, literal?, behind?, differs]
      simp only [AnnotationLine.list, given, Option.elim_none, List.nil_append, broken, closed]
      rfl
    | some text =>
      have absent : ')' ∉ maskLiterals text :=
        not_mem_maskLiterals (line.isArguments text given).isText (by decide)
      have whole : line.list maskLiterals ++ '\n' :: rest =
          '(' :: (maskLiterals text ++ ')' :: '\n' :: rest) := by
        simp [AnnotationLine.list, given]
      have opened : skipBlanks ('(' :: (maskLiterals text ++ ')' :: '\n' :: rest)) =
          '(' :: (maskLiterals text ++ ')' :: '\n' :: rest) :=
        List.dropWhile_cons_of_neg (by decide)
      have round (text : Text) : literal? "(" ('(' :: text) = some text := literal?_append "(" text
      have closed : parenthesised? ('(' :: (maskLiterals text ++ ')' :: '\n' :: rest)) =
          some (maskLiterals text, '\n' :: rest) := by
        rw [parenthesised?, round]
        exact cut_append absent _
      rw [whole, opened, closed]
      exact congrArg some broken
  · rw [if_neg member, if_neg member]
    rfl

/-! The source behind an annotation -/

/-- A text in which the keyword does not begin names no package, even when it has several lines. -/
theorem packageName_quiet {front : Text} {mark : Char} (ink : isBlank mark = false) {rest : Text}
    (quiet : IsQuiet ["package"] rest (front ++ [mark])) (atLineStart : Bool) :
    packageName atLineStart (front ++ [mark] ++ rest) = packageName false rest := by
  have unbroken : mark ≠ '\n' := by
    rintro rfl
    exact absurd ink (by decide)
  have unnamed {front : Text} (quiet : IsQuiet ["package"] rest (front ++ [mark])) :
      keyword? "package" (skipBlanks (front ++ [mark] ++ rest)) = none := by
    induction front with
    | nil =>
      have start : skipBlanks (mark :: rest) = mark :: rest :=
        List.dropWhile_cons_of_neg (by simp [ink])
      rw [List.nil_append, List.singleton_append, start]
      exact quiet.1.wordless "package" (List.mem_singleton_self _)
    | cons c front ih =>
      rw [List.cons_append, List.cons_append]
      cases blank : isBlank c with
      | false =>
        have start : skipBlanks (c :: (front ++ [mark] ++ rest)) = c :: (front ++ [mark] ++ rest) :=
          List.dropWhile_cons_of_neg (by simp [blank])
        rw [start]
        exact quiet.1.wordless "package" (List.mem_singleton_self _)
      | true =>
        have start : skipBlanks (c :: (front ++ [mark] ++ rest)) =
            skipBlanks (front ++ [mark] ++ rest) := List.dropWhile_cons_of_pos blank
        rw [start]
        exact ih quiet.2
  induction front generalizing atLineStart with
  | nil =>
    have here := unnamed quiet
    rw [List.nil_append, List.singleton_append] at here ⊢
    rw [packageName, here, decide_eq_false unbroken]
    cases atLineStart <;> rfl
  | cons c front ih =>
    have here := unnamed quiet
    rw [List.cons_append, List.cons_append] at here ⊢
    rw [packageName, here, ih quiet.2]
    cases atLineStart <;> rfl

theorem packageName_annotationLine (rest : Text) :
    packageName true (line.masked ++ rest) = packageName true rest := by
  have sign (text : Text) : packageName true ('@' :: text) = packageName false text := by
    refine packageName_start fun d head => ?_
    obtain rfl : '@' = d := Option.some.inj head
    decide
  have broken : packageName false ('\n' :: rest) = packageName true rest := rfl
  have single : '\n' ∉ line.name := line.word.not_mem (by decide)
  rw [line.masked_append, sign, packageName_inside single, ← broken]
  unfold AnnotationLine.list
  cases given : line.arguments with
  | none => rfl
  | some text =>
    have known : ["package"] ⊆ declarationWords := by decide
    have keywords : ∀ word ∈ ["package"], IsWord word.toList := by decide
    have inner := (line.isArguments text given).quiet.mono known
    have opened : IsQuiet ["package"] (maskLiterals text ++ []) ['('] :=
      isQuiet_of_marks keywords (by decide)
    have quiet := isQuiet_concat keywords (opened.append inner)
      (by decide : isWordChar ')' = false) (by decide) (by decide) ('\n' :: rest)
    exact packageName_quiet (by decide) quiet false

/-- The types behind an annotation are those of the source, at other offsets. -/
theorem typeHeaders_annotationLine (masked : Text) :
    typeHeaders (line.masked ++ masked) =
      (typeHeaders masked).map (·.place (· + line.masked.length)) := by
  have moved := @filterMap_typeHeaderAt_enclose line.masked [] isOuterTail_nil
    List.not_mem_nil masked masked 0 none List.suffix_rfl (Nat.zero_add _)
  have refused : typeHeader? none (line.masked ++ masked) = none := by
    have absent := @oneKeyword?_mark ["class", "interface", "object"] (by decide) '@' (by decide)
      (line.behind maskLiterals ++ masked)
    simp [typeHeader?, AnnotationLine.masked, absent]
  have known : ["class", "interface", "object"] ⊆ declarationWords := by decide
  have passed := occurrencesFrom_annotationLine line refuses_type known refused 0
  have same : typeHeader? (some '\n') = typeHeader? none := rfl
  rw [List.append_nil, Nat.zero_add] at moved
  rw [typeHeaders_eq, typeHeaders_eq, occurrences, passed, Nat.zero_add,
    occurrencesFrom_congr same]
  exact moved

theorem scopes_annotationLine (text : Text) :
    ScopeIndex.ofText (line.text ++ text) =
      (ScopeIndex.ofText text).place (· + line.masked.length) := by
  rw [ScopeIndex.ofText, ScopeIndex.ofText, line.maskLiterals_text, typeHeaders_annotationLine,
    scopesFrom_free line.unbraced]
  exact scopesFrom_move (typeHeaders (maskLiterals text)) line.masked.length 0 [] _

theorem ofText_annotationLine (text : Text) :
    Source.ofText (line.text ++ text) =
      ⟨line.text ++ (Source.ofText text).text,
        line.masked ++ (Source.ofText text).masked, (Source.ofText text).package,
        (Source.ofText text).scopes.place (· + line.masked.length)⟩ := by
  simp only [Source.ofText, line.stripComments_text, line.maskLiterals_text,
    packageName_annotationLine, scopes_annotationLine]

theorem encloses_annotationLine (text : Text) : Encloses line.masked []
    (Source.ofText (line.text ++ text)) (Source.ofText text) := by
  have mono := strictMono_add line.masked.length
  rw [ofText_annotationLine]
  constructor
  · rw [List.append_nil, line.length_masked]
    exact List.drop_left
  · rw [List.append_nil]
  · exact (length_maskLiterals _).symm
  · rfl
  · intro offset _
    exact containingType_place mono _ offset
  · intro offset
    exact isUnterminated_place mono _ offset
  · intro nameStart
    exact isUnterminatedHeader_place mono _ nameStart

/-- What has no marker is found behind an annotation as it is found alone. -/
theorem searches_annotationLine {words : List String} {header? : Lookbehind α}
    (refuses : Refuses words header?) (known : words ⊆ declarationWords)
    (unsigned : ∀ rest, header? none ('@' :: rest) = none)
    (boundary : header? (some '\n') = header? none) (read : Text → Option (β × Text)) :
    Searches line.masked [] header? read where
  silent text := by
    have passed := occurrencesFrom_annotationLine line refuses known
      (unsigned (line.behind maskLiterals ++ text)) 0
    rw [Nat.zero_add, occurrencesFrom_congr boundary] at passed
    exact congrArg (List.filterMap _) passed
  quiet _ _ := by rw [occurrencesFrom]
  headers _ := keepsTail_nil _
  reads := keepsTail_nil read

theorem searches_cases :
    Searches line.masked [] dataCaseHeader? (behindRound? supertype?) := by
  refine searches_annotationLine line refuses_data (by decide) (fun rest => ?_) rfl _
  have absent : keyword? "data" ('@' :: rest) = none := keyword?_mark (by decide) rfl rest
  simp [dataCaseHeader?, absent]

theorem searches_objects :
    Searches line.masked [] objectHeader? fun text => some ((), text) := by
  refine searches_annotationLine line refuses_object (by decide) (fun rest => ?_) rfl _
  have plain : keyword? "data" ('@' :: rest) = none := keyword?_mark (by decide) rfl rest
  have absent : keyword? "object" ('@' :: rest) = none := keyword?_mark (by decide) rfl rest
  simp [objectHeader?, plain, absent]

end

end DeclBridge.Kotlin.Syntax
