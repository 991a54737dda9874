import DeclBridge.Proofs.CrossingReaders

/-! Headers and types that start in front of a raw string. -/

namespace DeclBridge.Kotlin

open Text

variable {α β γ : Type} {front back blank : Text}

theorem not_mem_rawString (blanked : IsBlanked blank) {mark : Char} (unquoted : mark ≠ '"')
    (ink : isBlank mark = false) : mark ∉ rawString blank := by
  intro inside
  rcases of_mem_rawString blanked inside with rfl | rfl | rfl
  · exact unquoted rfl
  · cases ink
  · cases ink

section

variable (back : Text) (unquoted : '"' ∉ front) (blanked : IsBlanked blank)
include unquoted blanked

theorem respects_parenthesised? : Respects front back blank (fun _ => ()) parenthesised? := by
  have opener : StopsAt '"' (passing (literal? "(")) := stopsAt_literal? (by decide)
  have closer : ')' ∉ rawString blank := not_mem_rawString blanked (by decide) (by decide)
  exact (Respects.of_stopsAt opener unquoted id).behind (respects_cut closer)

theorem respects_simpleClause? : Respects front back blank (fun _ => ()) simpleClause? := by
  have opener : StopsAt '"' (passing (literal? "<")) := stopsAt_literal? (by decide)
  have closer : '>' ∉ rawString blank := not_mem_rawString blanked (by decide) (by decide)
  exact (Respects.of_stopsAt opener unquoted id).behind (respects_cut closer)

/-- Type parameters between a keyword and a name. -/
theorem respects_typeClause : Respects front back blank (fun _ => ()) fun text => some <|
    match simpleClause? text with
    | some (entries, rest) => ('<' :: entries ++ ['>'], skipBlanks rest)
    | none => ([], text) := by
  have blanks (entries : Text) : StopsAt '"' fun text =>
      (some (skipBlanks text)).bind fun rest => some ('<' :: entries ++ ['>'], rest) :=
    (stopsAt_skipBlanks rfl).behind (.pure _)
  have clause := (respects_simpleClause? back unquoted blanked).bind
    (fun entries => Respects.of_stopsAt (blanks entries) unquoted fun _ => ())
    fun _ _ _ _ => rfl
  have whole := clause.optional []
  refine (congrArg (Respects front back blank fun _ => ()) (funext fun text => ?_)).mp whole
  cases simpleClause? text <;> rfl

theorem respects_functionHeader? :
    Respects front back blank FunctionHeader.name functionHeader? := by
  have keyword : StopsAt '"' (passing (keyword? "fun")) := stopsAt_keyword? (by decide) rfl
  have round : StopsAt '"' (passing (mark? '(')) := stopsAt_mark? (by decide) rfl
  have named := isOuter_quote.stopsAt_word?.bind fun name => round.behind (.pure name)
  have header := (respects_typeClause back unquoted blanked).pair FunctionHeader.mk
    FunctionHeader.name named unquoted fun _ _ _ _ => rfl
  have whole := (Respects.of_stopsAt keyword unquoted id).behind header
  refine (congrArg (Respects front back blank _) (funext fun text => ?_)).mp whole
  rw [functionHeader?]
  simp only [Option.bind_eq_bind, Option.bind_some, Option.bind_assoc]
  rfl

theorem respects_suspendHeader? :
    Respects front back blank FunctionHeader.name suspendHeader? := by
  have keyword : StopsAt '"' (passing (keyword? "suspend")) :=
    stopsAt_keyword? (by decide) rfl
  have skipped := isOuter_quote.stopsAt_skipModifiers
  have lead := skipped.passing_behind (keyword.passing_behind skipped)
  have whole := (Respects.of_stopsAt lead unquoted id).behind
    (respects_functionHeader? back unquoted blanked)
  refine (congrArg (Respects front back blank _) (funext fun text => ?_)).mp whole
  rw [suspendHeader?]
  cases found : keyword? "suspend" (skipModifiers text) <;> simp [found]

theorem respects_anyFunctionHeader? :
    Respects front back blank (Prod.map id FunctionHeader.name) anyFunctionHeader? := by
  have keyword : StopsAt '"' (passing (keyword? "suspend")) :=
    stopsAt_keyword? (by decide) rfl
  have lead := isOuter_quote.stopsAt_skipModifiers.behind keyword.optional
  have skipped : Respects front back blank id (passing fun text => some (skipModifiers text)) :=
    .of_stopsAt isOuter_quote.stopsAt_skipModifiers unquoted id
  have header (suspends : Bool) := skipped.behind
    ((respects_functionHeader? back unquoted blanked).map (suspends, ·)
      (Prod.map id FunctionHeader.name) fun _ _ same => congrArg (suspends, ·) same)
  have whole := Respects.after lead unquoted header
  refine (congrArg (Respects front back blank _) (funext fun text => ?_)).mp whole
  rw [anyFunctionHeader?]
  simp only [Option.bind_eq_bind, Option.bind_some, Option.map_eq_bind, Function.comp_def, Prod.map]
  cases keyword? "suspend" (skipModifiers text) <;> rfl

theorem respects_dataCaseHeader? (before : Option Char) :
    Respects front back blank id (dataCaseHeader? before) := by
  have data : StopsAt '"' (passing (keyword? "data")) := stopsAt_keyword? (by decide) rfl
  have keyword : StopsAt '"' (passing (keyword? "class")) :=
    stopsAt_keyword? (by decide) rfl
  have round : StopsAt '"' (passing (mark? '(')) := stopsAt_mark? (by decide) rfl
  have lead := data.behind (keyword.behind isOuter_quote.stopsAt_word?)
  have blanks : StopsAt '"' (passing fun text => some (skipBlanks text)) :=
    stopsAt_skipBlanks rfl
  have clause := ((Respects.of_stopsAt blanks unquoted id).behind
    (respects_simpleClause? back unquoted blanked)).optional []
  have stop (name : Text) := clause.pair (fun _ found => found) id (round.behind (.pure name))
    unquoted fun _ _ _ _ => rfl
  have whole := Respects.after lead unquoted stop
  unfold dataCaseHeader?
  split
  · refine (congrArg (Respects front back blank _) (funext fun text => ?_)).mp whole
    have missing (text rest : Text) : ((simpleClause? text).getD ([], rest)).2 =
        match simpleClause? text with
        | some (_, rest) => rest
        | none => rest := by
      cases simpleClause? text <;> rfl
    simp only [Option.bind_eq_bind, Option.bind_some, Option.bind_assoc, missing]
    rfl
  · exact Respects.of_stopsAt .refused unquoted id

/-! Adoption markers -/

theorem respects_afterMarker? {names : List String}
    (unquotedNames : ∀ name ∈ names, '"' ∉ name.toList) :
    Respects front back blank (fun _ => ()) (passing (afterMarker? names)) := by
  have blanks : StopsAt '"' (passing fun text => some (skipBlanks text)) :=
    stopsAt_skipBlanks rfl
  have skipped : Respects front back blank (fun _ => ())
      (passing fun text => some (skipBlanks text)) := .of_stopsAt blanks unquoted _
  have arguments := ((respects_parenthesised? back unquoted blanked).bind (fun _ => skipped)
    fun _ _ _ _ => rfl).optional ()
  have behind := (Respects.of_stopsAt blanks unquoted id).behind arguments
  have name := isOuter_quote.stopsAt_markerName unquotedNames
  have whole := (Respects.of_stopsAt name unquoted id).behind behind
  refine (congrArg (Respects front back blank _) (funext fun text => ?_)).mp whole
  rw [passing, afterMarker?]
  simp only [Option.bind_eq_bind, Option.map_bind]
  refine congrArg _ (funext fun rest => ?_)
  rw [Option.bind_some, Function.comp_apply]
  cases parenthesised? (skipBlanks rest) <;> rfl

/-- Whether there is a marker, and what is known of the header. -/
def Marked.outline (outline : α → β) (found : Marked α) : Bool × β :=
  (found.marker == 0, outline found.header)

theorem respects_marked? {names : List String} (unquotedNames : ∀ name ∈ names, '"' ∉ name.toList)
    {header? : Text → Option (α × Text)} {outline : α → β}
    (respects : Respects front back blank outline header?) :
    Respects front back blank (Marked.outline outline) (marked? names header?) := by
  have marker := respects_afterMarker? back unquoted blanked unquotedNames
  have header (length : Nat) : Respects front back blank (Marked.outline outline) fun text =>
      (header? text).map (Prod.map (Marked.mk length) id) :=
    respects.map (Marked.mk length) _ fun item other same => Prod.ext rfl same
  have withMarker : Respects front back blank (Marked.outline outline) fun text =>
      (afterMarker? names text).bind fun unmarked =>
        (header? unmarked).map (Prod.map (Marked.mk (text.length - unmarked.length)) id) := by
    constructor
    · intro text inside
      rcases marker.passing_alike inside with
        ⟨filled, empty⟩ | ⟨rest, suffix, filled, empty⟩ | ⟨rest, suffix, filled, empty⟩
      · rw [filled, empty]
        exact .refused
      · have length (more : Text) : (text ++ more).length - (rest ++ more).length =
            text.length - rest.length := by
          rw [List.length_append, List.length_append, Nat.add_sub_add_right]
        rw [filled, empty, Option.bind_some, Option.bind_some, length, length]
        exact (header _).alike rest suffix
      · have bound := suffix.length_le
        have positive (content : Text) :
            ((text ++ (rawString content ++ back)).length - rest.length == 0) = false := by
          simp [rawString]
          omega
        rw [filled, empty, Option.bind_some, Option.bind_some]
        cases found : header? rest with
        | none => exact .refused
        | some answer =>
          refine .across ?_ ((respects.suffix _ _ _ found).trans suffix)
          simp only [Marked.outline, positive]
    · intro text found rest read
      obtain ⟨unmarked, begun, read⟩ := Option.bind_eq_some_iff.mp read
      have behind := marker.suffix text () unmarked (by rw [passing, begun, Option.map_some])
      exact ((header _).suffix _ _ _ read).trans behind
  refine (congrArg (Respects front back blank _) (funext fun text => ?_)).mp
    (withMarker.or (header 0))
  rw [marked?, Option.orElse_eq_orElse, Option.orElse_eq_or]
  simp only [Option.bind_eq_bind, Option.map_eq_bind]
  rfl

end

/-! Types -/

theorem suffix_of_afterNamedType? {text rest : Text} (read : afterNamedType? text = some rest) :
    rest <:+ text := by
  have skipped (text : Text) : skipNullMark text <:+ text :=
    isOuter_quote.stopsAt_skipNullMark.suffix text () _ rfl
  obtain ⟨⟨name, behind⟩, named, read⟩ := Option.bind_eq_some_iff.mp read
  have suffix := isOuter_quote.stopsAt_dotted?.suffix _ _ _ named
  split at read
  · next same =>
    cases same
    obtain ⟨⟨inner, after⟩, closed, same⟩ := Option.bind_eq_some_iff.mp read
    cases same
    exact (skipped after).trans ((Bracket.suffix_of_splitAtPartner closed).trans
      ((List.suffix_cons _ _).trans suffix))
  · next same =>
    cases same
    cases read
    exact (skipped _).trans suffix

theorem suffix_of_afterType? {text rest : Text} (read : afterType? text = some rest) :
    rest <:+ text := by
  have skipped (text : Text) : skipNullMark text <:+ text :=
    isOuter_quote.stopsAt_skipNullMark.suffix text () _ rfl
  fun_induction afterType? text generalizing rest with
  | case1 => cases read
  | case2 parameters inner after closed unarrowed =>
    cases read
    exact (skipped after).trans ((Bracket.suffix_of_splitAtPartner closed).trans
      (List.suffix_cons '(' parameters))
  | case3 parameters inner after closed result arrow ih =>
    cases read
    have reached : result <:+ after :=
      isOuter_quote.stopsAt_afterArrow?.suffix after () result (by simp [passing, arrow])
    have further : (afterType? result).getD result <:+ result := by
      cases found : afterType? result with
      | none => exact List.suffix_rfl
      | some last => exact ih found
    exact (skipped _).trans (further.trans (reached.trans
      ((Bracket.suffix_of_splitAtPartner closed).trans (List.suffix_cons '(' parameters))))
  | case4 text _ => exact suffix_of_afterNamedType? read

section

variable (back : Text) (unquoted : '"' ∉ front) (blanked : IsBlanked blank)
include unquoted blanked

theorem respects_afterNamedType? :
    Respects front back blank (fun _ => ()) (passing afterNamedType?) := by
  have mark : Respects front back blank (fun _ => ())
      (passing fun text => some (skipNullMark text)) :=
    .of_stopsAt isOuter_quote.stopsAt_skipNullMark unquoted _
  have arguments := (respects_inside back .angle unquoted blanked).bind (fun _ => mark)
    fun _ _ _ _ => rfl
  have whole := Respects.after isOuter_quote.stopsAt_dotted? unquoted fun _ =>
    Respects.choose '<' (by decide) arguments mark
  refine (congrArg (Respects front back blank _) (funext fun text => ?_)).mp whole
  rw [passing, afterNamedType?]
  cases dotted? text with
  | none => rfl
  | some found =>
    obtain ⟨name, rest⟩ := found
    cases rest with
    | nil => rfl
    | cons c rest =>
      by_cases angle : c = '<'
      · subst angle
        cases closed : Bracket.angle.inside rest with
        | none => simp [closed]
        | some answer => simp [passing, closed]
      · simp [passing, angle]

end

theorem respects_behindResult (unquoted : '"' ∉ front)
    (types : Respects front back blank (fun _ => ()) (passing afterType?)) :
    Respects front back blank (fun _ => ())
      (passing fun text => some (skipNullMark (behindResult text))) := by
  have mark : Respects front back blank (fun _ => ())
      (passing fun text => some (skipNullMark text)) :=
    .of_stopsAt isOuter_quote.stopsAt_skipNullMark unquoted _
  have lead : Respects front back blank id (passing afterArrow?) :=
    .of_stopsAt isOuter_quote.stopsAt_afterArrow? unquoted id
  have arrow := lead.behind (types.optional ())
  have whole := (arrow.optional ()).bind (fun _ => mark) fun _ _ _ _ => rfl
  refine (congrArg (Respects front back blank _) (funext fun text => ?_)).mp whole
  cases arrow : afterArrow? text with
  | none => simp [behindResult, arrow, passing]
  | some result => cases afterType? result <;> simp [behindResult, arrow, passing]

theorem respects_afterType? (back : Text) (unquoted : '"' ∉ front) (blanked : IsBlanked blank) :
    Respects front back blank (fun _ => ()) (passing afterType?) := by
  have suffix (text : Text) (found : Unit) (rest : Text)
      (read : passing afterType? text = some (found, rest)) : rest <:+ text := by
    obtain ⟨_, begun, same⟩ := Option.map_eq_some_iff.mp read
    cases same
    exact suffix_of_afterType? begun
  have named {front text : Text} (unquoted : '"' ∉ front) (inside : text <:+ front)
      (other : text.head? ≠ some '(') : Alike front back blank (fun _ => ())
        (passing afterType? (text ++ (rawString blank ++ back)))
        (passing afterType? (text ++ (rawString [] ++ back))) := by
    have same (content : Text) : afterType? (text ++ (rawString content ++ back)) =
        afterNamedType? (text ++ (rawString content ++ back)) := by
      refine afterType?_named fun rest same => ?_
      cases text with
      | nil => cases same
      | cons c text => exact other (congrArg some (List.cons.inj same).1)
    rw [passing, passing, same, same]
    exact (respects_afterNamedType? back unquoted blanked).alike text inside
  -- A parenthesis is closed in what follows it, so the types read behind it begin later.
  induction front with
  | nil =>
    refine ⟨fun text inside => named unquoted inside ?_, suffix⟩
    simp [List.suffix_nil.mp inside]
  | cons c front ih =>
    refine ⟨fun text inside => ?_, suffix⟩
    have behind : '"' ∉ front := List.not_mem_of_not_mem_cons unquoted
    rcases List.suffix_cons_iff.mp inside with rfl | later
    · by_cases round : c = '('
      · subst round
        have closed := (respects_inside back .round behind blanked).bind
          (fun _ => respects_behindResult behind (ih behind)) fun _ _ _ _ => rfl
        have here := (closed.alike front List.suffix_rfl).mono (List.suffix_cons '(' front)
        rw [passing, passing, List.cons_append, List.cons_append, afterType?_round,
          afterType?_round, Option.map_map, Option.map_map]
        simp only [Option.map_eq_bind]
        exact here
      · exact named unquoted inside (by simpa using round)
    · exact ((ih behind).alike text later).mono (List.suffix_cons c front)

theorem respects_readType? (back : Text) (unquoted : '"' ∉ front) (blanked : IsBlanked blank) :
    Respects front back blank (fun _ => ()) readType? := by
  have types := respects_afterType? back unquoted blanked
  have slice : Respects front back blank (fun _ => ()) fun text =>
      (afterType? text).map fun rest => (text.take (text.length - rest.length), rest) := by
    constructor
    · intro text inside
      rcases types.passing_alike inside with
        ⟨filled, empty⟩ | ⟨rest, suffix, filled, empty⟩ | ⟨rest, suffix, filled, empty⟩
      · rw [filled, empty]
        exact .refused
      · have taken (more : Text) :
            (text ++ more).take ((text ++ more).length - (rest ++ more).length) =
              text.take (text.length - rest.length) := by
          rw [List.length_append, List.length_append, Nat.add_sub_add_right,
            List.take_append_of_le_length (Nat.sub_le _ _)]
        rw [filled, empty, Option.map_some, Option.map_some, taken, taken]
        exact .before suffix
      · rw [filled, empty]
        exact .across rfl suffix
    · intro text found rest read
      obtain ⟨_, begun, same⟩ := Option.map_eq_some_iff.mp read
      obtain ⟨-, rfl⟩ := Prod.mk.inj same
      exact suffix_of_afterType? begun
  have spaces : StopsAt '"' (passing fun text =>
      some (text.dropWhile fun c => c = ' ' || c = '\t')) := stopsAt_dropWhile (by decide)
  exact (Respects.of_stopsAt spaces unquoted id).behind slice

end DeclBridge.Kotlin
