import DeclBridge.Proofs.DeclarationReadings

/-! Readers before the end of a block. A text that closes a block and all around it neither goes on
with what stands before it nor ends it, so the readers of declarations find the same with it and
without it. -/

namespace DeclBridge.Kotlin

open Text

variable {α β : Type}

/-- What is found in a text is found when a tail stands behind it, which is left over then. -/
def KeepsTail (tail : Text) (read : Text → Option (α × Text)) : Prop :=
  ∀ text, read (text ++ tail) = (read text).map (Prod.map id (· ++ tail))

/-- A text of marks. No header, type or bracket goes on over its beginning or is closed in it. -/
structure IsOuterTail (tail : Text) : Prop where
  starts : ∀ mark ∈ tail.head?, IsOuter mark
  unclosed : ∀ mark ∈ [')', '>'], mark ∉ tail
  marks : ∀ c ∈ tail, isWordChar c = false ∧ c ≠ '@'

theorem isOuterTail_nil : IsOuterTail [] where
  starts _ head := by cases head
  unclosed _ _ := List.not_mem_nil
  marks _ inside := by cases inside

theorem keepsTail_nil (read : Text → Option (α × Text)) : KeepsTail [] read := by
  intro text
  rw [List.append_nil]
  cases found : read text with
  | none => rfl
  | some answer => simp [Prod.map]

namespace KeepsTail

variable {tail : Text}

/-- The mark may also stand in the text, where the reader stops as well. -/
theorem of_stopsAt_mark {read : Text → Option (α × Text)} {mark : Char} (stops : StopsAt mark read)
    (more : Text) : KeepsTail (mark :: more) read := by
  intro text
  by_cases inside : mark ∈ text
  · obtain ⟨front, back, rfl, absent⟩ := List.eq_append_cons_of_mem inside
    have whole := stops.append front (back ++ mark :: more) absent
    have part := stops.append front back absent
    rw [List.append_assoc, List.cons_append, whole, part, Option.map_map]
    refine Option.map_congr fun found _ => ?_
    simp
  · rw [stops.append text more inside]
    rfl

theorem of_stopsAt {read : Text → Option (α × Text)} (outer : IsOuterTail tail)
    (stops : ∀ mark, IsOuter mark → StopsAt mark read) : KeepsTail tail read := by
  cases tail with
  | nil => exact keepsTail_nil read
  | cons mark more => exact of_stopsAt_mark (stops mark (outer.starts mark rfl)) more

theorem pure (item : α) : KeepsTail tail fun text => some (item, text) :=
  fun _ => rfl

theorem bind {first : Text → Option (α × Text)} {next : α → Text → Option (β × Text)}
    (keeps : KeepsTail tail first) (others : ∀ item, KeepsTail tail (next item)) :
    KeepsTail tail fun text => (first text).bind fun found => next found.1 found.2 := by
  intro text
  dsimp only
  rw [keeps text]
  cases first text with
  | none => rfl
  | some found => exact others found.1 found.2

theorem skip {skip : Text → Option Text} (keeps : KeepsTail tail (passing skip)) (text : Text) :
    skip (text ++ tail) = (skip text).map (· ++ tail) := by
  have last := congrArg (Option.map Prod.snd) (keeps text)
  simpa [passing, Function.comp_def] using last

theorem behind {skip : Text → Option Text} {read : Text → Option (α × Text)}
    (keeps : KeepsTail tail (passing skip)) (reads : KeepsTail tail read) :
    KeepsTail tail fun text => (skip text).bind read := by
  intro text
  dsimp only
  rw [keeps.skip]
  cases skip text with
  | none => rfl
  | some rest => exact reads rest

theorem map {read : Text → Option (α × Text)} (keeps : KeepsTail tail read) (f : α → β) :
    KeepsTail tail fun text => (read text).map (Prod.map f id) := by
  intro text
  dsimp only
  rw [keeps text, Option.map_map, Option.map_map]
  rfl

/-- What may be missing is read if it is there. -/
theorem optional {read : Text → Option (α × Text)} (keeps : KeepsTail tail read) (missing : α) :
    KeepsTail tail fun text => some ((read text).getD (missing, text)) := by
  intro text
  dsimp only
  rw [keeps text]
  cases read text <;> rfl

/-- One of two readers is chosen by the mark that comes next. -/
theorem choose {mark : Char} (absent : tail.head? ≠ some mark)
    {marked unmarked : Text → Option (α × Text)} (keeps : KeepsTail tail marked)
    (others : KeepsTail tail unmarked) : KeepsTail tail fun text =>
      if text.head? = some mark then marked text.tail else unmarked text := by
  intro text
  cases text with
  | nil => simpa [absent] using others []
  | cons c text =>
    by_cases same : c = mark
    · simpa [same] using keeps text
    · simpa [same] using others (c :: text)

theorem cut {mark : Char} (absent : mark ∉ tail) : KeepsTail tail (Text.cut mark) := by
  intro text
  induction text with
  | nil => exact cut_eq_none absent
  | cons c text ih =>
    by_cases here : c = mark
    · simp [Text.cut, here]
    · rw [List.cons_append, Text.cut, if_neg here, ih, Text.cut, if_neg here, Option.map_map,
        Option.map_map]
      rfl

end KeepsTail

section

variable {tail : Text} (outer : IsOuterTail tail)
include outer

namespace IsOuterTail

theorem keyword? (word : String) (isWord : IsWord word.toList) :
    KeepsTail tail (passing (keyword? word)) :=
  .of_stopsAt outer fun _ mark => mark.stopsAt_keyword? isWord

theorem mark? (expected : Char) (member : expected ∈ ['@', ':', '<', '(', '?', '-', '>']) :
    KeepsTail tail (passing (mark? expected)) :=
  .of_stopsAt outer fun _ mark => stopsAt_mark? (mark.ne expected member) mark.ink

theorem head?_ne (expected : Char) (member : expected ∈ ['@', ':', '<', '(', '?', '-', '>']) :
    tail.head? ≠ some expected :=
  fun head => (outer.starts expected head).ne expected member rfl

theorem skipBlanks : KeepsTail tail (passing fun text => some (skipBlanks text)) :=
  .of_stopsAt outer fun _ mark => stopsAt_skipBlanks mark.ink

theorem skipModifiers : KeepsTail tail (passing fun text => some (skipModifiers text)) :=
  .of_stopsAt outer fun _ mark => mark.stopsAt_skipModifiers

theorem word? : KeepsTail tail word? :=
  .of_stopsAt outer fun _ mark => mark.stopsAt_word?

theorem simpleClause? : KeepsTail tail simpleClause? := by
  have angle : KeepsTail tail (passing (literal? "<")) :=
    .of_stopsAt outer fun _ mark => stopsAt_literal? (by simpa using mark.ne '<' (by decide))
  exact angle.behind (.cut (outer.unclosed '>' (by decide)))

/-- The type parameters of a function and the blanks behind them, if there are any. -/
theorem typeClause : KeepsTail tail fun text => some <|
    match Kotlin.simpleClause? text with
    | some (entries, rest) => ('<' :: entries ++ ['>'], Text.skipBlanks rest)
    | none => ([], text) := by
  intro text
  dsimp only
  rw [outer.simpleClause? text]
  cases Kotlin.simpleClause? text with
  | none => rfl
  | some found =>
    have blanks := outer.skipBlanks.skip found.2
    simpa using blanks

theorem functionHeader? : KeepsTail tail functionHeader? := by
  have named (clause : Text) := outer.word?.bind fun name =>
    (outer.mark? '(' (by decide)).behind (.pure (FunctionHeader.mk clause name))
  have whole := (outer.keyword? "fun" (by decide)).behind (outer.typeClause.bind named)
  refine (congrArg (KeepsTail tail) (funext fun text => ?_)).mp whole
  rw [Kotlin.functionHeader?]
  simp only [Option.bind_eq_bind, Option.bind_some]
  rfl

theorem suspendHeader? : KeepsTail tail suspendHeader? := by
  have lead := (outer.keyword? "suspend" (by decide)).behind
    (outer.skipModifiers.behind outer.functionHeader?)
  have whole := outer.skipModifiers.behind lead
  refine (congrArg (KeepsTail tail) (funext fun text => ?_)).mp whole
  rw [Kotlin.suspendHeader?]
  simp only [Option.bind_eq_bind, Option.bind_some]

theorem anyFunctionHeader? : KeepsTail tail anyFunctionHeader? := by
  have suspends : KeepsTail tail fun text =>
      some ((Text.keyword? "suspend" text).isSome, (Text.keyword? "suspend" text).getD text) :=
    .of_stopsAt outer fun _ mark => (mark.stopsAt_keyword? (by decide)).optional
  have header (suspends : Bool) :=
    outer.skipModifiers.behind (outer.functionHeader?.map (suspends, ·))
  have whole := outer.skipModifiers.behind (suspends.bind header)
  refine (congrArg (KeepsTail tail) (funext fun text => ?_)).mp whole
  rw [Kotlin.anyFunctionHeader?]
  simp only [Option.bind_eq_bind, Option.bind_some, Option.map_eq_bind, Function.comp_def, Prod.map]
  cases Text.keyword? "suspend" (Kotlin.skipModifiers text) <;> rfl

theorem dataCaseHeader? (before : Option Char) : KeepsTail tail (dataCaseHeader? before) := by
  have clause := (outer.skipBlanks.behind outer.simpleClause?).optional []
  have stop (name : Text) := clause.bind fun _ =>
    (outer.mark? '(' (by decide)).behind (.pure name)
  have whole := (outer.keyword? "data" (by decide)).behind <|
    (outer.keyword? "class" (by decide)).behind <| outer.word?.bind stop
  unfold Kotlin.dataCaseHeader?
  split
  · refine (congrArg (KeepsTail tail) (funext fun text => ?_)).mp whole
    have missing (text rest : Text) : ((Kotlin.simpleClause? text).getD ([], rest)).2 =
        match Kotlin.simpleClause? text with
        | some (_, rest) => rest
        | none => rest := by
      cases Kotlin.simpleClause? text <;> rfl
    simp only [Option.bind_eq_bind, Option.bind_some, missing]
    rfl
  · exact fun _ => rfl

theorem parenthesised? : KeepsTail tail parenthesised? := by
  have round : KeepsTail tail (passing (literal? "(")) :=
    .of_stopsAt outer fun _ mark => stopsAt_literal? (by simpa using mark.ne '(' (by decide))
  exact round.behind (.cut (outer.unclosed ')' (by decide)))

theorem afterMarker? {names : List String} (keywords : ∀ name ∈ names, IsWord name.toList) :
    KeepsTail tail (passing (afterMarker? names)) := by
  have name := KeepsTail.of_stopsAt outer fun _ mark =>
    mark.stopsAt_markerName (mark.not_mem keywords)
  have arguments := (outer.parenthesised?.bind fun _ => outer.skipBlanks).optional ()
  have whole := name.behind (outer.skipBlanks.behind arguments)
  refine (congrArg (KeepsTail tail) (funext fun text => ?_)).mp whole
  rw [passing, Kotlin.afterMarker?]
  simp only [Option.bind_eq_bind, Option.map_bind]
  refine congrArg _ (funext fun rest => ?_)
  rw [Option.bind_some, Function.comp_apply]
  cases Kotlin.parenthesised? (Text.skipBlanks rest) <;> rfl

theorem marked? {names : List String} (keywords : ∀ name ∈ names, IsWord name.toList)
    {header? : Text → Option (α × Text)} (keeps : KeepsTail tail header?) :
    KeepsTail tail (marked? names header?) := by
  intro text
  have marker := (outer.afterMarker? keywords).skip text
  have length (rest : Text) : (text ++ tail).length - (rest ++ tail).length =
      text.length - rest.length := by
    rw [List.length_append, List.length_append, Nat.add_sub_add_right]
  rw [Kotlin.marked?, Kotlin.marked?, marker, keeps text]
  simp only [Option.orElse_eq_orElse, Option.orElse_eq_or, Option.bind_eq_bind]
  rw [Option.map_or]
  refine congrArg₂ Option.or ?_ ?_
  · cases Kotlin.afterMarker? names text with
    | none => rfl
    | some unmarked =>
      rw [Option.map_some, Option.bind_some, Option.bind_some, keeps unmarked, length]
      cases header? unmarked <;> rfl
  · rw [Option.map_map, Option.map_map]
    rfl

/-! What is read behind headers -/

omit outer in
theorem inside (bracket : Bracket) (unclosed : bracket.closer ∉ tail) :
    KeepsTail tail bracket.inside := by
  have refused (quoting : Quoting) (before : Option Char) (depth : Nat) {tail : Text}
      (unclosed : bracket.closer ∉ tail) :
      bracket.splitAtPartner quoting before depth tail = none := by
    induction tail generalizing quoting before depth with
    | nil => rfl
    | cons c tail ih =>
      rw [List.mem_cons, not_or] at unclosed
      simp [Bracket.splitAtPartner, Ne.symm unclosed.1, ih _ _ _ unclosed.2]
  have keeps (quoting : Quoting) (before : Option Char) (depth : Nat) :
      KeepsTail tail (bracket.splitAtPartner quoting before depth) := by
    intro text
    induction text generalizing quoting before depth with
    | nil => exact refused quoting before depth unclosed
    | cons c text ih =>
      rw [List.cons_append, Bracket.splitAtPartner, Bracket.splitAtPartner]
      dsimp only
      rw [ih, apply_ite (Option.map _), Option.map_map, Option.map_map]
      rfl
  exact keeps _ _ _

theorem typeClause? : KeepsTail tail typeClause? := by
  have inside := inside .angle (outer.unclosed '>' (by decide))
  have whole := inside.choose (outer.head?_ne '<' (by decide)) (.pure [])
  refine (congrArg (KeepsTail tail) (funext fun text => ?_)).mp whole
  cases text with
  | nil => rfl
  | cons c text => by_cases angle : c = '<' <;> simp [angle, Kotlin.typeClause?]

theorem behindRound? {read : Text → Option (α × Text)} (keeps : KeepsTail tail read) :
    KeepsTail tail (behindRound? read) := by
  have round := inside .round (outer.unclosed ')' (by decide))
  have whole := round.bind fun inner => keeps.map (inner, ·)
  refine (congrArg (KeepsTail tail) (funext fun text => ?_)).mp whole
  simp only [Kotlin.behindRound?, Option.bind_eq_bind, Option.map_eq_bind]
  rfl

theorem supertype? : KeepsTail tail supertype? :=
  .of_stopsAt outer fun _ mark => mark.stopsAt_supertype?

theorem skipNullMark : KeepsTail tail (passing fun text => some (skipNullMark text)) :=
  .of_stopsAt outer fun _ mark => mark.stopsAt_skipNullMark

theorem afterNamedType? : KeepsTail tail (passing afterNamedType?) := by
  have name : KeepsTail tail dotted? := .of_stopsAt outer fun _ mark => mark.stopsAt_dotted?
  have arguments :=
    (inside .angle (outer.unclosed '>' (by decide))).bind fun _ => outer.skipNullMark
  have whole := name.bind fun _ =>
    arguments.choose (outer.head?_ne '<' (by decide)) outer.skipNullMark
  refine (congrArg (KeepsTail tail) (funext fun text => ?_)).mp whole
  rw [passing, Kotlin.afterNamedType?]
  cases dotted? text with
  | none => rfl
  | some found =>
    obtain ⟨name, rest⟩ := found
    cases rest with
    | nil => rfl
    | cons c rest =>
      by_cases angle : c = '<'
      · subst angle
        cases closed : Bracket.angle.inside rest with
        | none => simp [closed]
        | some answer => simp [passing, closed]
      · simp [passing, angle]

theorem afterType? (text : Text) :
    Kotlin.afterType? (text ++ tail) = (Kotlin.afterType? text).map (· ++ tail) := by
  have round := inside .round (outer.unclosed ')' (by decide))
  have arrow : KeepsTail tail (passing afterArrow?) :=
    .of_stopsAt outer fun _ mark => mark.stopsAt_afterArrow?
  have mark (text : Text) : Kotlin.skipNullMark (text ++ tail) = Kotlin.skipNullMark text ++ tail :=
    Option.some.inj (outer.skipNullMark.skip text)
  fun_induction Kotlin.afterType? text with
  | case1 parameters closed =>
    rw [List.cons_append, afterType?_round, round parameters, closed]
    rfl
  | case2 parameters inner after closed unarrowed =>
    have refused : afterArrow? (after ++ tail) = none := by
      rw [arrow.skip, unarrowed, Option.map_none]
    rw [List.cons_append, afterType?_round, round parameters, closed]
    simp [behindResult, refused, mark]
  | case3 parameters inner after closed result pointed ih =>
    have reached : afterArrow? (after ++ tail) = some (result ++ tail) := by
      rw [arrow.skip, pointed, Option.map_some]
    have last : (Kotlin.afterType? (result ++ tail)).getD (result ++ tail) =
        (Kotlin.afterType? result).getD result ++ tail := by
      rw [ih]
      cases Kotlin.afterType? result <;> rfl
    rw [List.cons_append, afterType?_round, round parameters, closed]
    simp [behindResult, reached, last, mark]
  | case4 text named =>
    have other : ∀ rest, text ++ tail ≠ '(' :: rest := by
      intro rest same
      cases text with
      | nil => exact outer.head?_ne '(' (by decide) (by rw [← List.nil_append tail, same]; rfl)
      | cons c text => exact named text (by rw [(List.cons.inj same).1])
    rw [afterType?_named other]
    exact outer.afterNamedType?.skip text

theorem readType? : KeepsTail tail readType? := by
  have slice : KeepsTail tail fun text => (Kotlin.afterType? text).map fun rest =>
      (text.take (text.length - rest.length), rest) := by
    intro text
    dsimp only
    rw [outer.afterType?, Option.map_map, Option.map_map]
    refine Option.map_congr fun rest _ => ?_
    have taken : (text ++ tail).take ((text ++ tail).length - (rest ++ tail).length) =
        text.take (text.length - rest.length) := by
      rw [List.length_append, List.length_append, Nat.add_sub_add_right,
        List.take_append_of_le_length (Nat.sub_le _ _)]
    exact congrArg (·, rest ++ tail) taken
  have spaces : KeepsTail tail (passing fun text =>
      some (text.dropWhile fun c => c = ' ' || c = '\t')) := by
    refine .of_stopsAt outer fun c mark => stopsAt_dropWhile ?_
    have space : c ≠ ' ' := by
      rintro rfl
      exact absurd mark.ink (by decide)
    have tab : c ≠ '\t' := by
      rintro rfl
      exact absurd mark.ink (by decide)
    simp [space, tab]
  exact spaces.behind slice

theorem returnType? : KeepsTail tail returnType? := by
  have colon : KeepsTail tail (passing afterColon?) :=
    .of_stopsAt outer fun _ mark => mark.stopsAt_afterColon?
  have whole := ((colon.behind outer.readType?).map some).optional none
  exact whole

theorem flowElement? : KeepsTail tail flowElement? := by
  have lead : KeepsTail tail (passing afterFlowReturn?) :=
    .of_stopsAt outer fun _ mark => mark.stopsAt_afterFlowReturn?
  exact lead.behind (inside .angle (outer.unclosed '>' (by decide)))

end IsOuterTail

end

end DeclBridge.Kotlin
