import DeclBridge.Proofs.EnclosedScopes
import DeclBridge.Proofs.LineComments

/-! Function bodies. Their braces open no types, but nothing keeps headers in them from being read.
What is declared in a body is reported as it is on its own, as a member of the class around the
function. -/

namespace DeclBridge.Declaration

/-- The declaration as a member of a type, unless it is one of another type already. -/
def memberOf (owner : Text) : Declaration → Declaration
  | sum declaration => sum declaration
  | async declaration => async { declaration with owner := some (declaration.owner.getD owner) }
  | stream declaration => stream { declaration with owner := some (declaration.owner.getD owner) }

/-- The declaration without the package and the types that its name is qualified with. -/
def unqualified : Declaration → Declaration
  | sum declaration => sum { declaration with qualifiedName := declaration.name, package := [] }
  | async declaration => async { declaration with qualifiedName := declaration.name, package := [] }
  | stream declaration =>
    stream { declaration with qualifiedName := declaration.name, package := [] }

end DeclBridge.Declaration

namespace DeclBridge.Kotlin

open Text Syntax

/-! Code -/

/-- A text without quotes, in which no comment begins. -/
def IsCode : Text → Prop
  | [] => True
  | c :: rest =>
    (c ∉ ['"', '\''] ∧ (c = '/' → rest.head? ∉ [some '/', some '*'])) ∧ IsCode rest

instance decidableIsCode : (text : Text) → Decidable (IsCode text)
  | [] => .isTrue trivial
  | _ :: rest =>
    have := decidableIsCode rest
    inferInstanceAs (Decidable (_ ∧ IsCode rest))

namespace IsCode

variable {text : Text}

theorem append {other : Text} (first : IsCode text) (second : IsCode other)
    (apart : text.getLast? = some '/' → other.head? ∉ [some '/', some '*']) :
    IsCode (text ++ other) := by
  induction text with
  | nil => exact second
  | cons c text ih =>
    obtain ⟨⟨unquoted, single⟩, later⟩ := first
    cases text with
    | nil =>
      refine ⟨⟨unquoted, fun slash => apart ?_⟩, second⟩
      rw [slash, List.getLast?_singleton]
    | cons d more =>
      rw [List.getLast?_cons_cons] at apart
      exact ⟨⟨unquoted, single⟩, ih later apart⟩

/-- A reader of comments and literals finds none. -/
theorem replaceAll_eq {read : Text → Option (Text × Text)}
    (refuses : ∀ c rest, IsCode (c :: rest) → read (c :: rest) = none) (code : IsCode text) :
    replaceAll read text = text := by
  induction text with
  | nil => rw [replaceAll]
  | cons c text ih => rw [replaceAll_cons (refuses c text code), ih code.2]

theorem stripComments_eq (code : IsCode text) : stripComments text = text := by
  have unquoted {c : Char} {rest : Text} (code : IsCode (c :: rest)) : c ≠ '"' := by
    rintro rfl
    exact code.1.1 List.mem_cons_self
  have block : stripBlockComments text = text := by
    refine replaceAll_eq (fun c rest code => ?_) code
    by_cases slash : c = '/'
    · subst slash
      refine stringOrBlockComment?_slash fun head => ?_
      exact code.1.2 rfl (by simp [head])
    · exact skipsStrings_blockComments.other c rest (unquoted code) slash
  have line : stripLineComments text = text := by
    refine replaceAll_eq (fun c rest code => ?_) code
    by_cases slash : c = '/'
    · subst slash
      refine stringOrLineComment?_slash fun head => ?_
      exact code.1.2 rfl (by simp [head])
    · exact skipsStrings_lineComments.other c rest (unquoted code) slash
  rw [stripComments, block, line]

theorem maskLiterals_eq (code : IsCode text) : maskLiterals text = text :=
  replaceAll_eq (fun _ rest code => maskedLiteral?_eq_none code.1.1 rest) code

theorem ofText_eq (code : IsCode text) :
    Source.ofText text =
      ⟨text, text, packageName true text, scopesFrom (typeHeaders text) 0 [] text⟩ := by
  rw [Source.ofText, code.stripComments_eq, code.maskLiterals_eq, ScopeIndex.ofText,
    code.maskLiterals_eq]

end IsCode

/-! Nested braces -/

/-- Every brace of a text has its partner in it, but for as many closing braces as there are
braces open before. -/
def closesBraces : Nat → Text → Bool
  | depth, [] => depth = 0
  | depth, c :: rest =>
    if c = '{' then closesBraces (depth + 1) rest
    else if c = '}' then depth ≠ 0 && closesBraces (depth - 1) rest
    else closesBraces depth rest

section

variable {headers : List TypeHeader}

/-- A text that closes its braces leaves the braces around it alone. -/
theorem scopesFrom_closes {text : Text} {inner : List (Option TypeHeader)}
    (closes : closesBraces inner.length text = true) (offset : Nat)
    (stack : List (Option TypeHeader)) (rest : Text) :
    scopesFrom headers offset (inner ++ stack) (text ++ rest) =
      ⟨(scopesFrom headers offset inner text).closed ++
          (scopesFrom headers (offset + text.length) stack rest).closed,
        (scopesFrom headers (offset + text.length) stack rest).unterminated⟩ := by
  -- The braces that the text has opened so far lie on those around it and are the depth many.
  induction text generalizing offset inner with
  | nil =>
    obtain rfl : inner = [] := by simpa [closesBraces] using closes
    rfl
  | cons c text ih =>
    have size : offset + (c :: text).length = offset + 1 + text.length := by
      rw [List.length_cons]
      omega
    rw [closesBraces] at closes
    rw [size, List.cons_append]
    by_cases opener : c = '{'
    · subst opener
      rw [if_pos rfl] at closes
      rw [scopesFrom_opener, scopesFrom_opener]
      exact @ih (headers.find? (·.body = offset) :: inner) closes (offset + 1)
    rw [if_neg opener] at closes
    by_cases closer : c = '}'
    · subst closer
      rw [if_pos rfl] at closes
      cases inner with
      | nil => simp at closes
      | cons top inner =>
        have closes : closesBraces inner.length text = true := by simpa using closes
        rw [List.cons_append, scopesFrom_closer, scopesFrom_closer, ih closes, List.append_assoc]
    · rw [if_neg closer] at closes
      rw [scopesFrom_other opener closer, scopesFrom_other opener closer, ih closes]

theorem unterminated_of_closes {text : Text} (closes : closesBraces 0 text = true)
    (offset : Nat) : (scopesFrom headers offset [] text).unterminated = [] := by
  have whole := @scopesFrom_closes headers text [] closes offset [] []
  rw [List.append_nil, List.append_nil] at whole
  exact congrArg ScopeIndex.unterminated whole

/-- A header whose body begins before a text opens nothing in it. -/
theorem scopesFrom_passed {header : TypeHeader} {offset : Nat} (passed : header.body < offset)
    (stack : List (Option TypeHeader)) (text : Text) :
    scopesFrom (header :: headers) offset stack text = scopesFrom headers offset stack text := by
  induction text generalizing offset stack with
  | nil => rfl
  | cons c text ih =>
    have later (stack : List (Option TypeHeader)) := ih (Nat.lt_succ_of_lt passed) stack
    by_cases opener : c = '{'
    · subst opener
      have differs : ¬header.body = offset := Nat.ne_of_lt passed
      rw [scopesFrom_opener, scopesFrom_opener, List.find?_cons_of_neg (by simpa using differs),
        later]
    by_cases closer : c = '}'
    · subst closer
      cases stack with
      | nil => rw [scopesFrom_unopened, scopesFrom_unopened, later]
      | cons top stack => rw [scopesFrom_closer, scopesFrom_closer, later]
    · rw [scopesFrom_other opener closer, scopesFrom_other opener closer, later]

end

/-! The class around a function -/

def bodyLead : Text :=
  "class C \x7b\n fun f() \x7b".toList

def bodyTail : Text :=
  "\x7d\n\x7d".toList

/-- A class with one function of the given body. -/
def classText (body : Text) : Text :=
  bodyLead ++ (body ++ bodyTail)

theorem length_classText (body : Text) :
    (classText body).length = bodyLead.length + body.length + 3 := by
  rw [classText, List.length_append, List.length_append, ← Nat.add_assoc]
  rfl

theorem isOuter_brace : IsOuter '\x7d' :=
  ⟨rfl, rfl, by decide⟩

theorem isOuterTail_bodyTail : IsOuterTail bodyTail where
  starts mark head := by
    obtain rfl : '\x7d' = mark := Option.some.inj head
    exact isOuter_brace
  unclosed := by decide
  marks := by decide

theorem unopened_bodyTail : '\x7b' ∉ bodyTail := by
  decide

/-- The header of the class, with its body. -/
def classHeader : TypeHeader :=
  ⟨"C".toList, 0, 6, 8⟩

theorem typeHeaders_classText (body : Text) :
    typeHeaders (classText body) =
      classHeader :: (typeHeaders body).map (·.place (· + bodyLead.length)) := by
  have read : typeHeader? none ("class C".toList ++
      (" \x7b\n fun f() \x7b".toList ++ (body ++ bodyTail))) =
      some ("C".toList, " \x7b\n fun f() \x7b".toList ++ (body ++ bodyTail)) := rfl
  have found := occurrencesFrom_found (by decide) read 0
  have quiet : IsQuiet ["class", "interface", "object"] (body ++ bodyTail)
      (" \x7b\n fun f() ".toList ++ ['\x7b']) :=
    isQuiet_concat (by decide) (by decide) rfl rfl (by decide) _
  have passed := occurrencesFrom_quiet refuses_type quiet 7 (some 'C')
  have boundary : typeHeader? (some '\x7b') = typeHeader? none := rfl
  have places : occurrences typeHeader? (classText body) =
      ⟨0, 7, "C".toList, " \x7b\n fun f() \x7b".toList ++ (body ++ bodyTail)⟩ ::
        occurrencesFrom typeHeader? (0 + bodyLead.length) none (body ++ bodyTail) :=
    found.trans (congrArg (List.cons _) (passed.trans (occurrencesFrom_congr boundary _ _)))
  have opened : typeHeaderAt (classText body)
      ⟨0, 7, "C".toList, " \x7b\n fun f() \x7b".toList ++ (body ++ bodyTail)⟩ =
      some classHeader := rfl
  have moved := @filterMap_typeHeaderAt_enclose bodyLead bodyTail isOuterTail_bodyTail
    unopened_bodyTail body body 0 none List.suffix_rfl (Nat.zero_add _)
  rw [typeHeaders_eq, places, List.filterMap_cons, opened]
  exact congrArg (classHeader :: ·) moved

/-- The scope of the class. -/
def classScope (body : Text) : Scope :=
  classHeader.scope (classText body).length

theorem scopes_classText {body : Text} (closes : closesBraces 0 body = true) :
    scopesFrom (typeHeaders (classText body)) 0 [] (classText body) =
      ⟨(scopesFrom (typeHeaders body) 0 [] body).closed.map (·.place (· + bodyLead.length)) ++
        [classScope body], []⟩ := by
  have moved := scopesFrom_move (typeHeaders body) bodyLead.length 0 [] body
  have behind : ∀ header ∈ (typeHeaders body).map (·.place (· + bodyLead.length)),
      ¬(header.body = 19) := by
    intro header member
    obtain ⟨inner, -, rfl⟩ := List.mem_map.mp member
    have length : bodyLead.length = 20 := rfl
    dsimp only [TypeHeader.place]
    omega
  rw [typeHeaders_classText]
  generalize (typeHeaders body).map (·.place (· + bodyLead.length)) = headers at moved behind ⊢
  -- The brace of the function, at 19, is the body of neither the class nor a type in the body.
  have anonymous : (classHeader :: headers).find? (·.body = 19) = none := by
    rw [List.find?_cons_of_neg (by decide), List.find?_eq_none]
    simpa using behind
  have head : ∀ c ∈ "class C ".toList, c ≠ '\x7b' ∧ c ≠ '\x7d' := by decide
  have line : ∀ c ∈ "\n fun f() ".toList, c ≠ '\x7b' ∧ c ≠ '\x7d' := by decide
  have ends : scopesFrom (classHeader :: headers) (bodyLead.length + body.length)
      [none, some classHeader] bodyTail =
        ⟨[classHeader.scope (bodyLead.length + body.length + 3)], []⟩ := rfl
  calc scopesFrom (classHeader :: headers) 0 [] (classText body)
      = scopesFrom (classHeader :: headers) 8 [] ('\x7b' ::
          ("\n fun f() ".toList ++ '\x7b' :: (body ++ bodyTail))) :=
        scopesFrom_free head 0 _
    _ = scopesFrom (classHeader :: headers) 9 [some classHeader]
          ("\n fun f() ".toList ++ '\x7b' :: (body ++ bodyTail)) := scopesFrom_opener
    _ = scopesFrom (classHeader :: headers) 19 [some classHeader]
          ('\x7b' :: (body ++ bodyTail)) := scopesFrom_free line 9 _
    _ = scopesFrom (classHeader :: headers) 20 [none, some classHeader] (body ++ bodyTail) := by
        rw [scopesFrom_opener, anonymous]
    _ = ⟨(scopesFrom (classHeader :: headers) bodyLead.length [] body).closed ++
          [classHeader.scope (bodyLead.length + body.length + 3)], []⟩ := by
        have within := @scopesFrom_closes (classHeader :: headers) body [] closes bodyLead.length
          [none, some classHeader] bodyTail
        rwa [ends] at within
    _ = _ := by
        have passed : classHeader.body < bodyLead.length := by decide
        rw [Nat.zero_add, List.map_nil] at moved
        rw [scopesFrom_passed passed, moved, classScope, length_classText]
        rfl

/-! Nothing is declared around the body -/

/-- The function returns no flow. -/
theorem behindRound?_bodyLead (text : Text) :
    behindRound? flowElement? (") \x7b".toList ++ text) = none := by
  have brace : IsOuter '\x7b' := ⟨rfl, rfl, by decide⟩
  have returned : afterFlowReturn? (' ' :: '\x7b' :: text) = none := by
    have keeps := (KeepsTail.of_stopsAt_mark brace.stopsAt_afterFlowReturn? text).skip [' ']
    have alone : afterFlowReturn? [' '] = none := by decide +kernel
    rwa [alone] at keeps
  have inner : Bracket.round.inside (") \x7b".toList ++ text) = some ([], ' ' :: '\x7b' :: text) :=
    rfl
  rw [behindRound?, inner]
  simp [flowElement?, returned]

theorem silent_flows : IsSilent bodyLead (fun _ => marked? ["SwiftFlow"] anyFunctionHeader?)
    (behindRound? flowElement?) := by
  intro text
  let header? : Lookbehind (Marked (Bool × FunctionHeader)) :=
    fun _ => marked? ["SwiftFlow"] anyFunctionHeader?
  have front : IsQuiet (modifiers ++ ["suspend", "fun"])
      ("fun f(".toList ++ (") \x7b".toList ++ text))
      ("class C ".toList ++ ['\x7b'] ++ "\n ".toList) := by
    refine (isQuiet_concat (by decide) (by decide) rfl rfl (by decide) _).append ?_
    exact isQuiet_of_marks (by decide) (by decide)
  have back : IsQuiet (modifiers ++ ["suspend", "fun"]) text ") \x7b".toList :=
    isQuiet_of_marks (by decide) (by decide)
  have read : header? (some ' ') ("fun f(".toList ++ (") \x7b".toList ++ text)) =
      some (⟨0, false, ⟨[], "f".toList⟩⟩, ") \x7b".toList ++ text) :=
    anyFunctionHeader?_fun ["SwiftFlow"] ⟨"f".toList, by decide, by decide⟩ _
  have nonempty : "fun f(".toList ≠ [] := by decide
  have passed := occurrencesFrom_quiet (refuses_anyFunction ["SwiftFlow"]) front 0 none
  have found := occurrencesFrom_found nonempty read 11
  have behind := occurrencesFrom_quiet (refuses_anyFunction ["SwiftFlow"]) back 17 (some '(')
  have rest := occurrencesFrom_before (marked? ["SwiftFlow"] anyFunctionHeader?) bodyLead.length
    (some '\x7b') none text
  have places : occurrencesFrom header? 0 none (bodyLead ++ text) =
      ⟨11, 17, ⟨0, false, ⟨[], "f".toList⟩⟩, ") \x7b".toList ++ text⟩ ::
        occurrencesFrom header? bodyLead.length none text :=
    (passed.trans found).trans (congrArg (List.cons _) (behind.trans rest))
  rw [readings, occurrences, places, List.filterMap_cons, Occurrence.readOn,
    behindRound?_bodyLead, Option.map_none]

theorem searchesAll_bodyLead : SearchesAll bodyLead bodyTail := by
  have known : ∀ word ∈ modifiers ++ ["sealed", "data", "object", "suspend", "val", "var"],
      IsWord word.toList := by decide
  have front : IsQuiet (modifiers ++ ["sealed", "data", "object", "suspend", "val", "var"]) []
      "class C \x7b\n fun f() ".toList := by decide
  have unmarked : '\x7b' ≠ '@' := by decide
  have quiet {words : List String}
      (fewer : words ⊆ modifiers ++ ["sealed", "data", "object", "suspend", "val", "var"])
      (text : Text) : IsQuiet words text bodyLead :=
    isQuiet_concat (fun word member => known word (fewer member)) (front.mono fewer) rfl rfl
      unmarked text
  exact searchesAll_of_silent isOuterTail_bodyTail
    (isSilent_of_quiet (refuses_sealed _) (quiet (by simp)) rfl _)
    (isSilent_of_quiet refuses_data (quiet (by simp)) rfl _)
    (isSilent_of_quiet refuses_object (quiet (by simp)) rfl _)
    (isSilent_of_quiet (refuses_suspend _) (quiet (by simp)) rfl _)
    silent_flows
    (isSilent_of_quiet (refuses_flowProperty _) (quiet (by simp)) rfl _)

theorem packageName_bodyTail (atLineStart : Bool) (text : Text) :
    packageName atLineStart (text ++ bodyTail) = packageName atLineStart text := by
  have named : KeepsTail bodyTail fun text =>
      (keyword? "package" (skipBlanks text)).bind dotted? :=
    .of_stopsAt isOuterTail_bodyTail fun mark outer => (stopsAt_skipBlanks outer.ink).behind <|
      (outer.stopsAt_keyword? (by decide)).behind outer.stopsAt_dotted?
  induction text generalizing atLineStart with
  | nil => cases atLineStart <;> rfl
  | cons c text ih =>
    have here : (keyword? "package" (skipBlanks (c :: (text ++ bodyTail)))).bind dotted? =
        ((keyword? "package" (skipBlanks (c :: text))).bind dotted?).map
          (Prod.map id (· ++ bodyTail)) := named (c :: text)
    rw [List.cons_append, packageName, packageName, here, ih]
    cases atLineStart with
    | false => rfl
    | true => cases (keyword? "package" (skipBlanks (c :: text))).bind dotted? <;> rfl

/-- A package is not named on the line of the class, and neither on that of the function. -/
theorem packageName_classText (body : Text) :
    packageName true (classText body) = packageName false body := by
  have single : '\n' ∉ "class C \x7b".toList := by decide
  have first : packageName true (classText body) =
      packageName true (" fun f() \x7b".toList ++ (body ++ bodyTail)) :=
    packageName_line rfl (by decide) single _
  have second : packageName true (" fun f() \x7b".toList ++ (body ++ bodyTail)) =
      packageName false ("fun f() \x7b".toList ++ (body ++ bodyTail)) := by
    refine packageName_start fun d head => ?_
    obtain rfl : 'f' = d := Option.some.inj head
    decide
  have inside : '\n' ∉ "fun f() \x7b".toList := by decide
  rw [first, second, packageName_inside inside, packageName_bodyTail]

theorem IsCode.classText {body : Text} (code : IsCode body) : IsCode (classText body) := by
  have lead : IsCode bodyLead := by decide
  have tail : IsCode bodyTail := by decide
  have unslashed : bodyLead.getLast? ≠ some '/' := by decide
  refine lead.append (code.append tail fun _ => ?_) fun slash => absurd slash unslashed
  decide

/-! A source with a type around it -/

/-- The source in a package, with a type around it. -/
def Source.within (source : Source) (package owner : Text) : Source :=
  ⟨source.text, source.masked, package,
    ⟨source.scopes.closed ++ [⟨owner, 0, source.masked.length, 0⟩], source.scopes.unterminated⟩⟩

/-- A type around all others is the owner where there is no other. -/
theorem containingType_concat (scopes : ScopeIndex) {scope : Scope} {offset : Nat}
    (start : scope.start = 0) (stop : offset < scope.stop) :
    (ScopeIndex.mk (scopes.closed ++ [scope]) scopes.unterminated).containingType offset =
      some ((scopes.containingType offset).getD scope.name) := by
  have covers : scope.covers offset = true := by simp [Scope.covers, start, stop]
  have first : ∀ other ∈ scopes.closed, scope.start ≤ other.start :=
    fun other _ => start ▸ Nat.zero_le other.start
  rw [containingType_eq, containingType_eq, innermost_concat covers first]
  cases innermost offset scopes.closed <;> rfl

theorem containingType_within (source : Source) (package owner : Text) {offset : Nat}
    (inside : offset < source.masked.length) :
    (source.within package owner).scopes.containingType offset =
      some ((source.scopes.containingType offset).getD owner) :=
  containingType_concat source.scopes rfl inside

theorem encloses_classText {body : Text} (code : IsCode body)
    (closes : closesBraces 0 body = true) :
    Encloses bodyLead bodyTail (Source.ofText (classText body))
      ((Source.ofText body).within (packageName false body) "C".toList) := by
  have mono := strictMono_add bodyLead.length
  have unterminated : (scopesFrom (typeHeaders body) 0 [] body).unterminated = [] :=
    unterminated_of_closes closes 0
  rw [code.classText.ofText_eq, code.ofText_eq, scopes_classText closes, packageName_classText]
  generalize scopesFrom (typeHeaders body) 0 [] body = scopes at unterminated ⊢
  constructor
  · exact List.drop_left
  · rfl
  · rfl
  · rfl
  · intro offset inside
    have moved := containingType_place mono scopes offset
    have stop : offset + bodyLead.length < (classScope body).stop := by
      have bound : offset < body.length := inside
      rw [classScope, TypeHeader.scope, length_classText]
      dsimp only
      omega
    have outer := containingType_concat (scopes.place (· + bodyLead.length)) rfl stop
    have inner := containingType_within ⟨body, body, packageName true body, scopes⟩
      (packageName false body) "C".toList inside
    rw [moved] at outer
    rw [inner]
    exact outer
  · intro offset
    simp only [ScopeIndex.isUnterminated, Source.within, unterminated, List.any_nil]
  · intro nameStart
    simp only [ScopeIndex.isUnterminatedHeader, Source.within, unterminated, List.any_nil]

/-- A type around a source becomes the owner of what has none. -/
theorem declarations_within (source : Source) (package owner : Text) :
    (source.within package owner).declarations.map Declaration.unqualified =
      source.declarations.map fun declaration => (declaration.memberOf owner).unqualified := by
  have async {reading : Occurrence (Reading (Marked FunctionHeader) (Text × Option Text))}
      (member : reading ∈ source.asyncReadings) :
      (Declaration.async ((source.within package owner).asyncOf reading)).unqualified =
        ((Declaration.async (source.asyncOf reading)).memberOf owner).unqualified := by
    have inside := containingType_within source package owner
      (Source.start_lt_length_of_mem member)
    simp only [Source.asyncOf, inside]
    rfl
  have flow {reading : Occurrence (Reading (Marked (Bool × FunctionHeader)) (Text × Text))}
      (member : reading ∈ source.flowReadings) :
      (Declaration.stream ((source.within package owner).flowOf reading)).unqualified =
        ((Declaration.stream (source.flowOf reading)).memberOf owner).unqualified := by
    have inside := containingType_within source package owner
      (Source.start_lt_length_of_mem (List.mem_filter.mp member).1)
    simp only [Source.flowOf, inside]
    rfl
  have property {reading : Occurrence (Reading (Marked Text) Text)}
      (member : reading ∈ source.propertyReadings) :
      (Declaration.stream ((source.within package owner).propertyOf reading)).unqualified =
        ((Declaration.stream (source.propertyOf reading)).memberOf owner).unqualified := by
    have inside := containingType_within source package owner
      (Source.start_lt_length_of_mem (List.mem_filter.mp member).1)
    simp only [Source.propertyOf, inside]
    rfl
  simp only [Source.declarations, Source.sumTypes_eq, Source.asyncFunctions_eq, Source.streams_eq,
    List.map_append, List.map_map]
  refine congrArg₂ _ (congrArg₂ _ rfl ?_) (congrArg₂ _ ?_ ?_)
  · exact List.map_congr_left fun reading member => async member
  · exact List.map_congr_left fun reading member => flow member
  · exact List.map_congr_left fun reading member => property member

/-- The scanner reports what is declared in the body of a function as it reports the body on its
own, but for the class around the function, which becomes the owner of what has no other. -/
theorem scan_classText {body : Text} (code : IsCode body) (closes : closesBraces 0 body = true) :
    scan (classText body) =
        ((Source.ofText body).within (packageName false body) "C".toList).declarations ∧
      (scan (classText body)).map Declaration.unqualified =
        (scan body).map (fun declaration => (declaration.memberOf "C".toList).unqualified) ∧
      (scan (classText body) = [] ↔ scan body = []) ∧ scan (classText []) = [] := by
  have enclosed {body : Text} (code : IsCode body) (closes : closesBraces 0 body = true) :
      scan (classText body) =
        ((Source.ofText body).within (packageName false body) "C".toList).declarations :=
    (encloses_classText code closes).declarations_eq searchesAll_bodyLead
  have same {body : Text} (code : IsCode body) (closes : closesBraces 0 body = true) :
      (scan (classText body)).map Declaration.unqualified =
        (scan body).map fun declaration => (declaration.memberOf "C".toList).unqualified := by
    rw [enclosed code closes]
    exact declarations_within (Source.ofText body) _ _
  have empty {body : Text} (code : IsCode body) (closes : closesBraces 0 body = true) :
      scan (classText body) = [] ↔ scan body = [] := by
    rw [← List.map_eq_nil_iff, same code closes, List.map_eq_nil_iff]
  have none : IsCode [] := by decide
  have nothing : scan [] = [] := by decide +kernel
  exact ⟨enclosed code closes, same code closes, empty code closes, (empty none rfl).mpr nothing⟩

/-- A class in a function keeps its members, and the function next to it joins the outer class. -/
theorem scan_classText_nested :
    IsCode " class D \x7b\n suspend fun g()\n\x7d\n suspend fun h() ".toList ∧
    closesBraces 0 " class D \x7b\n suspend fun g()\n\x7d\n suspend fun h() ".toList = true ∧
    (scan (classText " class D \x7b\n suspend fun g()\n\x7d\n suspend fun h() ".toList)).map
        Declaration.unqualified =
      (scan " class D \x7b\n suspend fun g()\n\x7d\n suspend fun h() ".toList).map
        fun declaration => (declaration.memberOf "C".toList).unqualified := by
  have code : IsCode " class D \x7b\n suspend fun g()\n\x7d\n suspend fun h() ".toList := by decide
  have closes :
      closesBraces 0 " class D \x7b\n suspend fun g()\n\x7d\n suspend fun h() ".toList = true := by
    decide
  exact ⟨code, closes, (scan_classText code closes).2.1⟩

/-- A suspending function in the body of another function is reported as a member of the class. -/
theorem scan_classText_ne_nil :
    IsCode " suspend fun g() ".toList ∧ closesBraces 0 " suspend fun g() ".toList = true ∧
    (scan (classText " suspend fun g() ".toList)).map (·.owner?) = [some "C".toList] ∧
    scan (classText " suspend fun g() ".toList) ≠ scan (classText []) := by
  have reported : (scan (classText " suspend fun g() ".toList)).map (·.owner?) =
      [some "C".toList] := by decide +kernel
  have nothing : scan (classText []) = [] := by decide +kernel
  refine ⟨by decide, by decide, reported, fun same => ?_⟩
  rw [same, nothing] at reported
  cases reported

end DeclBridge.Kotlin
