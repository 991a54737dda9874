import DeclBridge.Proofs.ParameterLists

/-! Where headers begin in a source. Searching finds the functions that a reader is made for, each
at its start, and the types in the same way. -/

namespace DeclBridge.Kotlin.Syntax

open Text

/-! Quiet stretches -/

theorem Literal.isQuiet_masked (literal : Literal) {rest : Text}
    (ends : ∀ c ∈ rest.head?, isWordChar c = false ∧ isBlank c = false) :
    IsQuiet headerWords rest literal.masked := by
  rcases literal.blank_or_bare with ⟨count, same⟩ | bare
  · rw [same]
    refine isQuiet_of_marks isWord_of_mem_headerWords fun c inside => ?_
    have mark : c = '"' ∨ c = ' ' := by
      simp only [List.cons_append, List.mem_cons, List.mem_append, List.mem_replicate,
        List.not_mem_nil, or_false] at inside
      rcases inside with quote | ⟨-, blank⟩ | quote
      · exact .inl quote
      · exact .inr blank
      · exact .inl quote
    rcases mark with rfl | rfl <;> decide
  · have unmarked : '@' ∉ literal.masked := bare.not_mem (by decide) (by decide)
    exact isQuiet_of_ink isWord_of_mem_headerWords bare.ink unmarked ends

section

variable {words : List String} {rest : Text}

/-- Words and marks of the language itself. -/
theorem isQuiet_of_keyword (keyword : String) (keywords : ∀ word ∈ words, IsWord word.toList)
    (isWord : IsWord keyword.toList) (apart : ∀ word ∈ words, ¬word.toList <:+ keyword.toList) :
    IsQuiet words rest (keyword.toList ++ [' ']) :=
  (isQuiet_of_word keywords isWord apart (outside_head (by decide) rest)).append
    (isQuiet_of_marks keywords (by decide))

private theorem isQuiet_name (name : Identifier) (ends : ∀ c ∈ rest.head?, isWordChar c = false) :
    IsQuiet headerWords rest name.text :=
  isQuiet_of_spelling (Spelling.word name : Spelling false name.text) ends

end

namespace Parameter

variable (parameter : Parameter) {rest : Text}

theorem isQuiet_front (ends : ∀ c ∈ rest.head?, isWordChar c = false) :
    IsQuiet headerWords rest parameter.front := by
  have type := isQuiet_of_spelling parameter.type.spelling ends
  have colon := (isQuiet_marks ": ".toList (by decide)).append type
  have name := (isQuiet_name parameter.name (outside_head (by decide) _)).append colon
  have vararg : IsQuiet headerWords
      (parameter.name.text ++ (": ".toList ++ parameter.type.text) ++ rest)
      (if parameter.isVararg then "vararg ".toList else []) := by
    split
    · exact isQuiet_of_keyword "vararg" isWord_of_mem_headerWords (by decide) (by decide)
    · trivial
  have whole := vararg.append name
  rwa [← List.append_assoc, ← List.append_assoc] at whole

/-- A comma or a parenthesis follows. -/
theorem isQuiet_print (ends : ∀ c ∈ rest.head?, isWordChar c = false ∧ isBlank c = false) :
    IsQuiet headerWords rest (parameter.print Literal.masked) := by
  rw [print]
  cases parameter.default with
  | none =>
    rw [Option.elim_none, List.append_nil]
    exact parameter.isQuiet_front fun c head => (ends c head).1
  | some literal =>
    have mark : IsQuiet headerWords (literal.masked ++ rest) " = ".toList :=
      isQuiet_marks _ (by decide)
    have default := mark.append (literal.isQuiet_masked ends)
    exact (parameter.isQuiet_front (outside_head (by decide) _)).append default

end Parameter

theorem Outcome.isQuiet_returned (outcome : Outcome) {rest : Text}
    (ends : ∀ c ∈ rest.head?, isWordChar c = false) :
    IsQuiet headerWords rest outcome.returned := by
  cases outcome with
  | suspending result =>
    cases result with
    | none => trivial
    | some result =>
      have colon : IsQuiet headerWords (result.text ++ rest) ": ".toList :=
        isQuiet_marks _ (by decide)
      exact colon.append (isQuiet_of_spelling result.spelling ends)
  | flow element =>
    have within := (isQuiet_of_spelling element.spelling (outside_head (by decide) rest)).append
      (isQuiet_marks ['>'] (by decide))
    have angle := (isQuiet_marks ['<'] (by decide)).append within
    have name : IsQuiet headerWords (['<'] ++ (element.text ++ ['>']) ++ rest) "Flow".toList :=
      isQuiet_of_word isWord_of_mem_headerWords (by decide) (by decide) (outside_head (by decide) _)
    have colon := (isQuiet_marks ": ".toList (by decide)).append (name.append angle)
    exact colon

/-- Entries of a list stand before a comma or before what follows the list. -/
theorem isQuiet_commaSpaced {words : List String} {texts : List Text} {rest : Text}
    (keywords : ∀ word ∈ words, IsWord word.toList)
    (quiet : ∀ text ∈ texts, ∀ rest : Text,
      (∀ c ∈ rest.head?, isWordChar c = false ∧ isBlank c = false) → IsQuiet words rest text)
    (ends : ∀ c ∈ rest.head?, isWordChar c = false ∧ isBlank c = false) :
    IsQuiet words rest (commaSpaced texts) := by
  induction texts with
  | nil => trivial
  | cons text texts ih =>
    obtain ⟨first, others⟩ := List.forall_mem_cons.mp quiet
    cases texts with
    | nil =>
      rw [commaSpaced_singleton]
      exact first rest ends
    | cons next more =>
      rw [commaSpaced_cons_cons]
      refine IsQuiet.append ?_ (ih others)
      refine IsQuiet.append (first _ ?_) (isQuiet_of_marks keywords (by decide))
      rintro _ ⟨⟩
      decide

namespace Function

variable (function : Function) {rest : Text}

theorem isQuiet_printParameters
    (ends : ∀ c ∈ rest.head?, isWordChar c = false ∧ isBlank c = false) :
    IsQuiet headerWords rest (function.printParameters Literal.masked) := by
  refine isQuiet_commaSpaced isWord_of_mem_headerWords (List.forall_mem_map.mpr ?_) ends
  exact fun parameter _ rest ends => parameter.isQuiet_print ends

theorem isQuiet_tail : IsQuiet headerWords rest function.tail := by
  have braces : IsQuiet headerWords rest [' ', '{', '\n', '}', '\n'] := isQuiet_marks _ (by decide)
  have returned : IsQuiet headerWords ([' ', '{', '\n', '}', '\n'] ++ rest)
      function.outcome.returned :=
    function.outcome.isQuiet_returned (outside_head (by decide) _)
  exact ((isQuiet_marks [')'] (by decide)).append returned).append braces

/-- Everything behind the first parenthesis. -/
def body : Text :=
  function.printParameters Literal.masked ++ function.tail

theorem print_masked : function.print Literal.masked = function.lead ++ function.body :=
  List.append_assoc _ _ _

theorem isQuiet_body : IsQuiet headerWords rest function.body := by
  refine (function.isQuiet_printParameters ?_).append function.isQuiet_tail
  rintro _ ⟨⟩
  decide

end Function

/-- A function is passed over when none of the words ends one of its keywords. -/
theorem isQuiet_lead {words : List String} (keywords : words ⊆ headerWords) (function : Function)
    (functions : ∀ word ∈ words, ¬word.toList <:+ "fun".toList)
    (suspending : ∀ result, function.outcome = .suspending result →
      ∀ word ∈ words, ¬word.toList <:+ "suspend".toList) (rest : Text) :
    IsQuiet words rest function.lead := by
  have isWord : ∀ word ∈ words, IsWord word.toList :=
    fun word member => isWord_of_mem_headerWords word (keywords member)
  have name := (isQuiet_name function.name (outside_head (by decide) rest)).append
    (isQuiet_marks ['('] (by decide))
  have keyword : IsQuiet words (function.name.text ++ ['('] ++ rest) ("fun".toList ++ [' ']) :=
    isQuiet_of_keyword "fun" isWord (by decide) functions
  have front := keyword.append (name.mono keywords)
  rw [Function.lead, List.append_assoc]
  cases outcome : function.outcome with
  | suspending result =>
    have suspend : IsQuiet words ("fun".toList ++ [' '] ++ (function.name.text ++ ['(']) ++ rest)
        ("suspend".toList ++ [' ']) :=
      isQuiet_of_keyword "suspend" isWord (by decide) (suspending result outcome)
    exact suspend.append front
  | flow element => exact front

/-! Blocks -/

theorem isQuiet_package {words : List String} (keywords : words ⊆ headerWords) (path : Path)
    (rest : Text) : IsQuiet words rest ((Block.package path).print Literal.masked) := by
  have name := (isQuiet_of_spelling (spelling_path path) (outside_head (by decide) rest)).append
    (isQuiet_marks ['\n'] (by decide))
  have keyword : IsQuiet headerWords (path.text ++ ['\n'] ++ rest) ("package".toList ++ [' ']) :=
    isQuiet_of_keyword "package" isWord_of_mem_headerWords (by decide) (by decide)
  have whole := keyword.append name
  rw [← List.append_assoc] at whole
  exact whole.mono keywords

theorem Function.isQuiet_print {words : List String} (keywords : words ⊆ headerWords)
    (function : Function) {rest : Text}
    (lead : IsQuiet words (function.body ++ rest) function.lead) :
    IsQuiet words rest ((Block.function function).print Literal.masked) := by
  rw [Block.print_function, function.print_masked]
  exact lead.append (function.isQuiet_body.mono keywords)

theorem isQuiet_behindName (rest : Text) : IsQuiet headerWords rest [' ', '{', '\n'] :=
  isQuiet_marks _ (by decide)

theorem isQuiet_opening {words : List String} (keywords : words ⊆ headerWords)
    (types : ∀ word ∈ words, ¬word.toList <:+ "class".toList) (name : Identifier) (rest : Text) :
    IsQuiet words rest ((Block.opening name).print Literal.masked) := by
  have front := (isQuiet_name name (outside_head (by decide) _)).append (isQuiet_behindName rest)
  have keyword : IsQuiet words (name.text ++ [' ', '{', '\n'] ++ rest) ("class".toList ++ [' ']) :=
    isQuiet_of_keyword "class" (fun word member => isWord_of_mem_headerWords word (keywords member))
      (by decide) types
  have whole := keyword.append (front.mono keywords)
  rwa [← List.append_assoc] at whole

theorem isQuiet_closing {words : List String} (keywords : words ⊆ headerWords) (rest : Text) :
    IsQuiet words rest (Block.closing.print Literal.masked) :=
  IsQuiet.mono (isQuiet_marks _ (by decide)) keywords

/-- Every block ends a line. -/
theorem lastFrom_print (before : Option Char) (block : Block) :
    lastFrom before (block.print Literal.masked) = some '\n' := by
  cases block with
  | package path => rw [Block.print_package, lastFrom_append]; rfl
  | opening name => rw [Block.print_opening, lastFrom_append]; rfl
  | closing => rfl
  | function member =>
    rw [Block.print_function, Function.print, Function.tail, lastFrom_append, lastFrom_append]
    rfl

theorem length_print_pos (block : Block) : 0 < (block.print Literal.masked).length := by
  apply List.length_pos_iff.mpr
  intro empty
  have last := lastFrom_print none block
  rw [empty] at last
  cases last

/-! Functions -/

/-- A function with the blocks before and after it and the innermost class around it. -/
structure Site where
  front : List Block
  owner : Option Identifier
  member : Function
  after : List Block

namespace Site

variable (site : Site)

def start : Nat :=
  extent site.front

/-- The offset behind the first parenthesis. -/
def stop : Nat :=
  site.start + site.member.lead.length

/-- What a search answers with that finds something in the function. -/
def place (found : α) : Occurrence α :=
  ⟨site.start, site.stop, found, site.member.body ++ maskedText site.after⟩

end Site

/-- The functions between two lists of blocks, in the order of the text. -/
def Forest.sites (front after : List Block) (owner : Option Identifier) : Forest → List Site
  | nil => []
  | type name members rest =>
    members.sites (front ++ [.opening name]) (.closing :: rest.blocks ++ after) (some name) ++
      rest.sites (front ++ .opening name :: members.blocks ++ [.closing]) after owner
  | function member rest =>
    ⟨front, owner, member, rest.blocks ++ after⟩ ::
      rest.sites (front ++ [.function member]) after owner

def File.sites (file : File) : List Site :=
  file.members.sites file.front [] none

theorem Forest.sites_functions (forest : Forest) (front after : List Block)
    (owner : Option Identifier) :
    (forest.sites front after owner).map (fun site => (site.owner, site.member)) =
      forest.functions owner := by
  induction forest generalizing front after owner with
  | nil => rfl
  | type name members rest first second =>
    rw [sites, List.map_append, first, second, functions]
  | function member rest ih => rw [sites, List.map_cons, ih, functions]

theorem Forest.blocks_of_mem_sites {forest : Forest} {front after : List Block}
    {owner : Option Identifier} {site : Site} (member : site ∈ forest.sites front after owner) :
    front ++ forest.blocks ++ after = site.front ++ .function site.member :: site.after := by
  induction forest generalizing front after owner with
  | nil => cases member
  | type name members rest first second =>
    rcases List.mem_append.mp member with member | member
    · simpa [blocks] using first member
    · simpa [blocks] using second member
  | function function rest ih =>
    rcases List.mem_cons.mp member with rfl | member
    · simp [blocks]
    · simpa [blocks] using ih member

/-- A search that finds something in certain functions, and nothing anywhere else. -/
structure FindsFunctions (words : List String) (read : Text → Option (α × Text))
    (found? : Function → Option α) : Prop where
  keywords : words ⊆ headerWords
  refuses : Refuses words fun _ => read
  types : ∀ word ∈ words, ¬word.toList <:+ "class".toList
  passes : ∀ function, found? function = none → ∀ rest, IsQuiet words rest function.lead
  finds : ∀ function found, found? function = some found →
    ∀ rest, read (function.lead ++ rest) = some (found, rest)

namespace FindsFunctions

variable {words : List String} {read : Text → Option (α × Text)} {found? : Function → Option α}
  (finds : FindsFunctions words read found?)
include finds

private theorem passed {block : Block} (front rest : List Block)
    (quiet : IsQuiet words (maskedText rest) (block.print Literal.masked)) :
    occurrencesFrom (fun _ => read) (extent front) none
        (maskedText (block :: rest)) =
      occurrencesFrom (fun _ => read) (extent (front ++ [block])) none
        (maskedText rest) := by
  rw [maskedText_cons, occurrencesFrom_quiet finds.refuses quiet, extent_append, extent_cons,
    extent_nil, Nat.add_zero]
  exact occurrencesFrom_before read _ _ none _

private theorem found (front after : List Block) (owner : Option Identifier) (member : Function) :
    occurrencesFrom (fun _ => read) (extent front) none
        (maskedText (.function member :: after)) =
      ((found? member).map (Site.place ⟨front, owner, member, after⟩)).toList ++
        occurrencesFrom (fun _ => read)
          (extent (front ++ [.function member])) none (maskedText after) := by
  cases sought : found? member with
  | none =>
    have lead := finds.passes member sought (member.body ++ maskedText after)
    exact finds.passed front after (member.isQuiet_print finds.keywords lead)
  | some item =>
    have body : IsQuiet words (maskedText after) member.body :=
      member.isQuiet_body.mono finds.keywords
    have nonempty : member.lead ≠ [] := by simp [Function.lead]
    have read := finds.finds member item sought (member.body ++ maskedText after)
    have whole : maskedText (.function member :: after) =
        member.lead ++ (member.body ++ maskedText after) := by
      rw [maskedText_cons, Block.print_function, member.print_masked, List.append_assoc]
    have size : extent (front ++ [.function member]) =
        extent front + member.lead.length + member.body.length := by
      rw [extent_append, extent_cons, extent_nil, Block.print_function, member.print_masked,
        List.length_append, Nat.add_zero, Nat.add_assoc]
    rw [whole, occurrencesFrom_found nonempty read, occurrencesFrom_quiet finds.refuses body,
      occurrencesFrom_before _ _ _ none, size]
    rfl

theorem occurrencesFrom_forest (forest : Forest) (front after : List Block)
    (owner : Option Identifier) :
    occurrencesFrom (fun _ => read) (extent front) none
        (maskedText (forest.blocks ++ after)) =
      (forest.sites front after owner).filterMap
          (fun site => (found? site.member).map site.place) ++
        occurrencesFrom (fun _ => read) (extent (front ++ forest.blocks)) none
          (maskedText after) := by
  induction forest generalizing front after owner with
  | nil => simp [Forest.blocks, Forest.sites]
  | type name members rest first second =>
    have opening := finds.passed front (members.blocks ++ .closing :: rest.blocks ++ after)
      (isQuiet_opening finds.keywords finds.types name _)
    have closing := finds.passed (front ++ .opening name :: members.blocks) (rest.blocks ++ after)
      (isQuiet_closing finds.keywords _)
    have inner := first (front ++ [.opening name]) (.closing :: rest.blocks ++ after) (some name)
    have outer := second (front ++ .opening name :: members.blocks ++ [.closing]) after owner
    simp only [List.append_assoc, List.cons_append, List.nil_append] at opening closing inner outer
    simp only [Forest.blocks, Forest.sites, List.append_assoc, List.cons_append,
      List.filterMap_append]
    rw [opening, inner, closing, outer]
  | function member rest ih =>
    have here := finds.found front (rest.blocks ++ after) owner member
    have behind := ih (front ++ [.function member]) after owner
    rw [Forest.blocks, Forest.sites, List.cons_append, here, behind, List.append_cons front]
    cases sought : found? member with
    | none => simp [sought]
    | some item => simp [sought]

theorem occurrences_file (file : File) :
    occurrences (fun _ => read) (maskedText file.blocks) =
      file.sites.filterMap fun site => (found? site.member).map site.place := by
  have members := finds.occurrencesFrom_forest file.members file.front [] none
  rw [List.append_nil, maskedText_nil, occurrencesFrom, List.append_nil] at members
  rw [File.sites, ← members, File.blocks, File.front, occurrences]
  cases file.package with
  | none => rfl
  | some path => exact finds.passed [] file.members.blocks (isQuiet_package finds.keywords path _)

end FindsFunctions

theorem lead_suspending {function : Function} {result : Option TypeRef}
    (outcome : function.outcome = .suspending result) (rest : Text) :
    function.lead ++ rest = "suspend fun ".toList ++ (function.name.text ++ '(' :: rest) := by
  rw [Function.lead, outcome, List.append_assoc, List.append_assoc]
  rfl

theorem lead_flow {function : Function} {element : TypeRef}
    (outcome : function.outcome = .flow element) (rest : Text) :
    function.lead ++ rest = "fun ".toList ++ (function.name.text ++ '(' :: rest) := by
  rw [Function.lead, outcome, List.append_assoc, List.append_assoc]
  rfl

theorem finds_sealed (names : List String) :
    FindsFunctions (modifiers ++ ["sealed"]) (marked? names sealedHeader?) fun _ => none where
  keywords := by simp [headerWords]
  refuses := refuses_sealed names
  types := by decide
  passes _ _ := isQuiet_lead (by simp [headerWords]) _ (by decide) fun _ _ => by decide
  finds _ _ found := by cases found

theorem finds_flowProperty (names : List String) :
    FindsFunctions (modifiers ++ ["val", "var"]) (marked? names flowPropertyHeader?)
      fun _ => none where
  keywords := by simp [headerWords]
  refuses := refuses_flowProperty names
  types := by decide
  passes _ _ := isQuiet_lead (by simp [headerWords]) _ (by decide) fun _ _ => by decide
  finds _ _ found := by cases found

/-- The header of a function as it is found. -/
def Function.header (function : Function) : FunctionHeader :=
  ⟨[], function.name.text⟩

def Outcome.isSuspending : Outcome → Bool
  | suspending _ => true
  | flow _ => false

theorem finds_suspend (names : List String) :
    FindsFunctions (modifiers ++ ["suspend"]) (marked? names suspendHeader?) fun function =>
      if function.outcome.isSuspending then some ⟨0, function.header⟩ else none where
  keywords := by simp [headerWords]
  refuses := refuses_suspend names
  types := by decide
  passes function absent := by
    refine isQuiet_lead (by simp [headerWords]) _ (by decide) fun result outcome => ?_
    rw [outcome] at absent
    cases absent
  finds function found sought rest := by
    cases outcome : function.outcome with
    | suspending result =>
      rw [outcome] at sought
      cases sought
      rw [lead_suspending outcome]
      exact suspendHeader?_lead names function.name rest
    | flow element =>
      rw [outcome] at sought
      cases sought

theorem finds_anyFunction (names : List String) :
    FindsFunctions (modifiers ++ ["suspend", "fun"]) (marked? names anyFunctionHeader?)
      fun function => some ⟨0, function.outcome.isSuspending, function.header⟩ where
  keywords := by simp [headerWords]
  refuses := refuses_anyFunction names
  types := by decide
  passes _ absent := by cases absent
  finds function found sought rest := by
    cases sought
    cases outcome : function.outcome with
    | suspending result =>
      rw [lead_suspending outcome]
      exact anyFunctionHeader?_suspend names function.name rest
    | flow element =>
      rw [lead_flow outcome]
      exact anyFunctionHeader?_fun names function.name rest

end DeclBridge.Kotlin.Syntax
