import DeclBridge.Proofs.LiteralPlaces
import DeclBridge.Proofs.SourceScopes
import Mathlib.Order.Monotone.Basic

/-! The types around a raw string. Its contents shift what comes behind them and change nothing
else, unless there is a line break in them where a type still awaits its body. -/

namespace DeclBridge.Kotlin

open Text Syntax

/-! Types at other offsets -/

def TypeHeader.place (f : Nat → Nat) (header : TypeHeader) : TypeHeader :=
  ⟨header.name, f header.start, f header.nameStart, f header.body⟩

def Scope.place (f : Nat → Nat) (scope : Scope) : Scope :=
  ⟨scope.name, f scope.start, f scope.stop, f scope.nameStart⟩

def ScopeIndex.place (f : Nat → Nat) (scopes : ScopeIndex) : ScopeIndex :=
  ⟨scopes.closed.map (·.place f), scopes.unterminated.map (·.place f)⟩

section

variable {f : Nat → Nat} (mono : StrictMono f)
include mono

theorem covers_place (scope : Scope) (offset : Nat) :
    (scope.place f).covers (f offset) = scope.covers offset := by
  simp [Scope.covers, Scope.place, mono.le_iff_le, mono.lt_iff_lt]

theorem innermost_place (scopes : List Scope) (offset : Nat) :
    innermost (f offset) (scopes.map (·.place f)) = (innermost offset scopes).map (·.place f) := by
  have covered : (scopes.map (·.place f)).filter (·.covers (f offset)) =
      (scopes.filter (·.covers offset)).map (·.place f) := by
    rw [List.filter_map]
    exact congrArg (List.map _) (List.filter_congr fun scope _ => covers_place mono scope offset)
  rw [innermost, covered, innermost]
  generalize scopes.filter (·.covers offset) = covering
  suffices later : ∀ best : Option Scope,
      (covering.map (·.place f)).foldl (fun best scope =>
          if best.all (·.start < scope.start) then some scope else best) (best.map (·.place f)) =
        (covering.foldl (fun best scope =>
          if best.all (·.start < scope.start) then some scope else best) best).map (·.place f) from
    later none
  induction covering with
  | nil => exact fun _ => rfl
  | cons scope covering ih =>
    intro best
    have compared : (best.map (·.place f)).all (·.start < (scope.place f).start) =
        best.all (·.start < scope.start) := by
      cases best <;> simp [Scope.place, mono.lt_iff_lt]
    rw [List.map_cons, List.foldl_cons, List.foldl_cons, compared, ← ih]
    split <;> rfl

theorem containingType_place (scopes : ScopeIndex) (offset : Nat) :
    (scopes.place f).containingType (f offset) = scopes.containingType offset := by
  rw [containingType_eq, containingType_eq, ScopeIndex.place, innermost_place mono, Option.map_map]
  rfl

theorem isUnterminated_place (scopes : ScopeIndex) (offset : Nat) :
    (scopes.place f).isUnterminated (f offset) = scopes.isUnterminated offset := by
  simp [ScopeIndex.isUnterminated, ScopeIndex.place, List.any_map, Function.comp_def,
    covers_place mono]

theorem isUnterminatedHeader_place (scopes : ScopeIndex) (nameStart : Nat) :
    (scopes.place f).isUnterminatedHeader (f nameStart) =
      scopes.isUnterminatedHeader nameStart := by
  simp [ScopeIndex.isUnterminatedHeader, ScopeIndex.place, List.any_map, Function.comp_def,
    Scope.place, mono.injective.eq_iff]

omit mono in
theorem scopesFrom_nil_place {headers : List TypeHeader} {offset : Nat}
    (stack : List (Option TypeHeader)) (others : List TypeHeader) :
    scopesFrom others (f offset) (stack.map (Option.map (·.place f))) [] =
      (scopesFrom headers offset stack []).place f := by
  simp only [scopesFrom, ScopeIndex.place, List.map_nil, ← List.map_reverse, List.filterMap_map,
    List.map_filterMap, Function.comp_def, Option.map_map, id]
  rfl

/-- Where the offsets of a text are shifted by the same distance, so are its types. -/
theorem scopesFrom_place {headers : List TypeHeader} {text rest other : Text} {offset : Nat}
    (even : ∀ distance ≤ text.length, f (offset + distance) = f offset + distance)
    (behind : ∀ stack : List (Option TypeHeader),
      scopesFrom (headers.map (·.place f)) (f (offset + text.length))
          (stack.map (Option.map (·.place f))) other =
        (scopesFrom headers (offset + text.length) stack rest).place f)
    (stack : List (Option TypeHeader)) :
    scopesFrom (headers.map (·.place f)) (f offset) (stack.map (Option.map (·.place f)))
        (text ++ other) =
      (scopesFrom headers offset stack (text ++ rest)).place f := by
  induction text generalizing offset stack with
  | nil => exact behind stack
  | cons c text ih =>
    have next : f (offset + 1) = f offset + 1 := even 1 (by simp)
    have others (stack : List (Option TypeHeader)) :
        scopesFrom (headers.map (·.place f)) (f offset + 1) (stack.map (Option.map (·.place f)))
            (text ++ other) =
          (scopesFrom headers (offset + 1) stack (text ++ rest)).place f := by
      rw [← next]
      refine ih (fun distance bound => ?_) (fun stack => ?_) stack
      · have here := even (1 + distance) (by simp; omega)
        rw [next, Nat.add_assoc, here, Nat.add_assoc]
      · have here := behind stack
        rwa [List.length_cons, Nat.add_comm text.length, ← Nat.add_assoc] at here
    have opened : (headers.map (·.place f)).find? (·.body = f offset) =
        (headers.find? (·.body = offset)).map (·.place f) := by
      rw [List.find?_map]
      simp only [Function.comp_def, TypeHeader.place, mono.injective.eq_iff]
    rw [List.cons_append, List.cons_append]
    by_cases opens : c = '{'
    · subst opens
      rw [scopesFrom_opener, scopesFrom_opener, opened]
      exact others (headers.find? (·.body = offset) :: stack)
    by_cases closes : c = '}'
    · subst closes
      cases stack with
      | nil =>
        rw [List.map_nil, scopesFrom_unopened, scopesFrom_unopened]
        exact others []
      | cons top stack =>
        rw [List.map_cons, scopesFrom_closer, scopesFrom_closer, others stack]
        cases top <;> simp [ScopeIndex.place, TypeHeader.scope, TypeHeader.place, Scope.place, next]
    · rw [scopesFrom_other opens closes, scopesFrom_other opens closes]
      exact others stack

end

/-! Bodies of types -/

/-- What one character does to a header that awaits its body. -/
inductive BodyStep where
  | ends
  | opens
  | goesOn (rounds angles : Nat)

/-- Where the body is found, or what is found where the header goes on. -/
def BodyStep.run (offset : Nat) (goOn : Nat → Nat → Option Nat) : BodyStep → Option Nat
  | .ends => none
  | .opens => some offset
  | .goesOn rounds angles => goOn rounds angles

def bodyStep (rounds angles : Nat) (before : Option Char) (continues : Bool) (c : Char) :
    BodyStep :=
  if c = '(' then .goesOn (rounds + 1) angles
  else if c = ')' then if rounds = 0 then .ends else .goesOn (rounds - 1) angles
  else if c = '<' then .goesOn rounds (angles + 1)
  else if c = '>' ∧ before ≠ some '-' ∧ 0 < angles then .goesOn rounds (angles - 1)
  else if rounds = 0 ∧ angles = 0 then
    if c = '{' then .opens
    else if c ∈ [';', '=', '}'] then .ends
    else if c = '\n' ∧ ¬continues then .ends
    else .goesOn rounds angles
  else .goesOn rounds angles

section

variable {rounds angles offset : Nat} {before ink : Option Char}

/-- The characters that a header does not just go on over. -/
def bodyStepMarks : List Char :=
  ['(', ')', '<', '>', '{', ';', '=', '}']

theorem bodyStep_unmarked {continues : Bool} {c : Char} (unmarked : c ∉ bodyStepMarks)
    (calm : c = '\n' → ¬(rounds = 0 ∧ angles = 0)) :
    bodyStep rounds angles before continues c = .goesOn rounds angles := by
  simp only [bodyStepMarks, List.mem_cons, List.not_mem_nil, or_false, not_or] at unmarked
  by_cases top : rounds = 0 ∧ angles = 0
  · have single : c ≠ '\n' := fun same => calm same top
    simp [bodyStep, unmarked, single]
  · simp [bodyStep, unmarked, top]

theorem bodyFrom_cons (c : Char) (rest : Text) :
    bodyFrom rounds angles before ink offset (c :: rest) =
      (bodyStep rounds angles before (continuesHeader ink rest) c).run offset fun rounds angles =>
        bodyFrom rounds angles (some c) (if isBlank c then ink else some c) (offset + 1) rest := by
  rw [bodyFrom, bodyStep]
  simp only [apply_ite (BodyStep.run offset _)]
  rfl

theorem bodyFrom_move (distance : Nat) (text : Text) :
    bodyFrom rounds angles before ink (offset + distance) text =
      (bodyFrom rounds angles before ink offset text).map (· + distance) := by
  induction text generalizing rounds angles offset before ink with
  | nil => rfl
  | cons c text ih =>
    rw [bodyFrom_cons, bodyFrom_cons]
    cases bodyStep rounds angles before (continuesHeader ink text) c with
    | ends | opens => rfl
    | goesOn rounds angles =>
      dsimp only [BodyStep.run]
      rw [Nat.add_right_comm, ih]

theorem le_of_bodyFrom {text : Text} {body : Nat}
    (found : bodyFrom rounds angles before ink offset text = some body) : offset ≤ body := by
  have moved := @bodyFrom_move rounds angles 0 before ink offset text
  rw [Nat.zero_add, found, eq_comm, Option.map_eq_some_iff] at moved
  obtain ⟨distance, -, rfl⟩ := moved
  exact Nat.le_add_left offset distance

theorem bodyFrom_passed {text : Text} (passed : ∀ c ∈ text, ∀ before continues,
      bodyStep rounds angles before continues c = .goesOn rounds angles) (rest : Text) :
    bodyFrom rounds angles before ink offset (text ++ rest) =
      bodyFrom rounds angles (lastFrom before text) (lastFrom ink (text.filter (!isBlank ·)))
        (offset + text.length) rest := by
  induction text generalizing offset before ink with
  | nil => rfl
  | cons c text ih =>
    obtain ⟨here, others⟩ := List.forall_mem_cons.mp passed
    rw [List.cons_append, bodyFrom_cons, here]
    dsimp only [BodyStep.run]
    rw [ih others, List.length_cons, Nat.add_right_comm]
    cases blank : isBlank c <;> simp [lastFrom, blank, Nat.add_assoc]

theorem filter_rawString (content : Text) :
    (rawString content).filter (!isBlank ·) = rawString (content.filter (!isBlank ·)) := by
  rw [rawString, List.filter_append]
  rfl

/-- A raw string is passed over, unless a line break in it ends the header. -/
theorem bodyFrom_rawString {content : Text} (blanked : IsBlanked content)
    (calm : '\n' ∈ content → ¬(rounds = 0 ∧ angles = 0)) (rest : Text) :
    bodyFrom rounds angles before ink offset (rawString content ++ rest) =
      bodyFrom rounds angles (some '"') (some '"') (offset + 6 + content.length) rest := by
  have passed : ∀ c ∈ rawString content, ∀ before continues,
      bodyStep rounds angles before continues c = .goesOn rounds angles := by
    intro c inside before continues
    rcases mem_rawString.mp inside with rfl | inside
    · exact bodyStep_unmarked (by decide) (by simp)
    · refine bodyStep_unmarked ?_ fun broken => calm (broken ▸ inside)
      rcases blanked c inside with rfl | rfl <;> decide
  rw [bodyFrom_passed passed, lastFrom_rawString, filter_rawString, lastFrom_rawString,
    length_rawString, Nat.add_comm content.length, ← Nat.add_assoc]

end

/-- Only the text up to a mark decides whether a header goes on. -/
theorem continuesHeader_append (ink : Option Char) (text rest other : Text) :
    continuesHeader ink (text ++ '"' :: rest) = continuesHeader ink (text ++ '"' :: other) := by
  have skipped (rest : Text) : skipBlanks (text ++ '"' :: rest) = skipBlanks text ++ '"' :: rest :=
    dropWhile_append_mark (by decide) text rest
  have named (text rest : Text) : (literal? "where" (text ++ '"' :: rest)).isSome =
      (literal? "where" text).isSome := by
    rw [literal?, behind?_append_mark (by decide), Option.isSome_map]
    rfl
  rw [continuesHeader, continuesHeader, skipped, skipped]
  cases skipBlanks text with
  | nil => rfl
  | cons c text =>
    have both := (named (c :: text) rest).trans (named (c :: text) other).symm
    rw [List.cons_append, List.cons_append] at both ⊢
    dsimp only
    rw [both]

section

variable {front back blank : Text}

theorem shift_before {offset : Nat} (early : offset ≤ front.length) :
    shift front blank offset = offset :=
  if_pos early

theorem shift_behind {offset : Nat} (late : front.length < offset) :
    shift front blank offset = offset + blank.length :=
  if_neg (Nat.not_le_of_lt late)

theorem strictMono_shift (front blank : Text) : StrictMono (shift front blank) := by
  intro first second less
  rw [shift, shift]
  split <;> split <;> omega

theorem bodyFrom_shift (blanked : IsBlanked blank) {rest : Text} {rounds angles offset : Nat}
    {before ink : Option Char} (ends : offset + rest.length = front.length)
    (calm : '\n' ∈ blank →
      bodyFrom rounds angles before ink offset (rest ++ ['"', '{']) ≠ some (front.length + 1)) :
    bodyFrom rounds angles before ink offset (rest ++ (rawString blank ++ back)) =
      (bodyFrom rounds angles before ink offset (rest ++ (rawString [] ++ back))).map
        (shift front blank) := by
  induction rest generalizing rounds angles offset before ink with
  | nil =>
    obtain rfl : offset = front.length := ends
    have deep : '\n' ∈ blank → ¬(rounds = 0 ∧ angles = 0) := by
      rintro broken ⟨rfl, rfl⟩
      exact calm broken (by simp [bodyFrom])
    rw [List.nil_append, List.nil_append, bodyFrom_rawString blanked deep,
      bodyFrom_rawString isBlanked_nil (by simp), List.length_nil, Nat.add_zero, bodyFrom_move]
    refine Option.map_congr fun body found => ?_
    have late := le_of_bodyFrom found
    exact (shift_behind (by omega)).symm
  | cons c rest ih =>
    have same (text : Text) : continuesHeader ink (rest ++ (rawString text ++ back)) =
        continuesHeader ink (rest ++ ['"', '{']) := continuesHeader_append ink rest _ _
    simp only [List.cons_append, bodyFrom_cons, same] at calm ⊢
    cases step : bodyStep rounds angles before (continuesHeader ink (rest ++ ['"', '{'])) c with
    | ends => rfl
    | opens =>
      have early : offset ≤ front.length := by
        rw [← ends]
        exact Nat.le_add_right offset _
      exact congrArg some (shift_before early).symm
    | goesOn rounds angles =>
      rw [step] at calm
      exact ih (by rw [← ends, List.length_cons]; omega) calm

end

/-- A type has no body yet where the text ends, and one that comes next is taken for it. -/
def AwaitsBody (text : Text) : Prop :=
  ∃ place ∈ occurrences typeHeader? text,
    bodyOffset (text ++ ['"', '{']) place.stop = some (text.length + 1)

instance (text : Text) : Decidable (AwaitsBody text) :=
  inferInstanceAs (Decidable (∃ place ∈ occurrences typeHeader? text, _))

theorem bodyOffset_split (lead rest : Text) :
    bodyOffset (lead ++ rest) lead.length =
      bodyFrom 0 0 lead.getLast? (lead.filter (!isBlank ·)).getLast? lead.length rest := by
  rw [bodyOffset, List.take_left, List.drop_left]

section

variable {front back blank : Text} (blanked : IsBlanked blank)
include blanked

theorem bodyOffset_before {stop : Nat} (early : stop ≤ front.length)
    (calm : '\n' ∈ blank → bodyOffset (front ++ ['"', '{']) stop ≠ some (front.length + 1)) :
    bodyOffset (front ++ (rawString blank ++ back)) stop =
      (bodyOffset (front ++ (rawString [] ++ back)) stop).map (shift front blank) := by
  obtain ⟨lead, rest, rfl, rfl⟩ : ∃ lead rest, front = lead ++ rest ∧ stop = lead.length :=
    ⟨front.take stop, front.drop stop, (List.take_append_drop stop front).symm,
      (List.length_take_of_le early).symm⟩
  simp only [List.append_assoc, bodyOffset_split] at calm ⊢
  refine bodyFrom_shift blanked ?_ calm
  rw [List.length_append]

omit blanked in
theorem bodyOffset_behind {stop : Nat} (late : front.length + 6 ≤ stop)
    (inside : stop ≤ front.length + 6 + back.length) :
    bodyOffset (front ++ (rawString blank ++ back)) (stop + blank.length) =
      (bodyOffset (front ++ (rawString [] ++ back)) stop).map (shift front blank) := by
  obtain ⟨lead, rest, rfl, rfl⟩ :
      ∃ lead rest, back = lead ++ rest ∧ stop = front.length + 6 + lead.length := by
    refine ⟨back.take (stop - front.length - 6), back.drop (stop - front.length - 6), by simp, ?_⟩
    rw [List.length_take]
    omega
  have here (content : Text) :
      bodyOffset (front ++ (rawString content ++ (lead ++ rest)))
          (front.length + 6 + lead.length + content.length) =
        bodyFrom 0 0 ('"' :: lead).getLast? ('"' :: lead.filter (!isBlank ·)).getLast?
          (front.length + 6 + lead.length + content.length) rest := by
    have size : front.length + 6 + lead.length + content.length =
        (front ++ (rawString content ++ lead)).length := by
      rw [List.length_append, List.length_append, length_rawString]
      omega
    have whole : front ++ (rawString content ++ (lead ++ rest)) =
        front ++ (rawString content ++ lead) ++ rest := by simp
    rw [whole, size, bodyOffset_split, getLast?_rawString, List.filter_append, List.filter_append,
      filter_rawString, getLast?_rawString]
  have empty := here []
  rw [List.length_nil, Nat.add_zero] at empty
  rw [here, empty, bodyFrom_move]
  refine Option.map_congr fun body found => ?_
  have late := le_of_bodyFrom found
  exact (shift_behind (by omega)).symm

end

/-- A name that stands before the rest of a text stands behind the raw string if the rest does. -/
theorem length_name {front back name rest : Text} (unquoted : '"' ∉ name)
    (inside : name ++ rest <:+ front ++ (rawString [] ++ back)) (behind : rest <:+ back) :
    name.length + rest.length ≤ back.length := by
  by_contra longer
  have quote : '"' :: back <:+ front ++ (rawString [] ++ back) :=
    ⟨front ++ ['"', '"', '"', '"', '"'], by simp [rawString]⟩
  obtain ⟨lead, same⟩ := List.suffix_of_suffix_length_le quote inside (by
    rw [List.length_append, List.length_cons]
    omega)
  obtain ⟨more, rfl⟩ := behind
  rw [← List.cons_append, ← List.append_assoc, List.append_left_inj] at same
  exact unquoted (by simp [← same])

theorem append_of_word? {text name rest : Text} (read : word? text = some (name, rest)) :
    name ++ rest = text := by
  obtain ⟨-, rfl, rfl⟩ := run?_eq_some_iff.mp read
  exact List.takeWhile_append_dropWhile

/-- The name that a header ends with stands before the rest of the text. -/
theorem suffix_of_typeHeader? {before : Option Char} {text name rest : Text}
    (read : typeHeader? before text = some (name, rest)) : name ++ rest <:+ text := by
  unfold typeHeader? at read
  split at read
  · obtain ⟨⟨keyword, behind⟩, found, named⟩ := Option.bind_eq_some_iff.mp read
    have keywords : StopsAt '"' (oneKeyword? ["class", "interface", "object"]) :=
      stopsAt_oneKeyword? (by decide) rfl
    rw [append_of_word? named]
    exact keywords.suffix _ _ _ found
  · cases read

theorem suffix_of_sealedHeader? {text name rest : Text}
    (read : sealedHeader? text = some (name, rest)) : name ++ rest <:+ text := by
  have keywords : StopsAt '"' fun text => (some (skipModifiers text)).bind fun rest =>
      (keyword? "sealed" rest).bind (oneKeyword? ["class", "interface"]) :=
    isOuter_quote.stopsAt_skipModifiers.behind <| (stopsAt_keyword? (by decide) rfl).behind <|
      stopsAt_oneKeyword? (by decide) rfl
  obtain ⟨behind, sealed_, read⟩ := Option.bind_eq_some_iff.mp read
  obtain ⟨⟨keyword, last⟩, found, named⟩ := Option.bind_eq_some_iff.mp read
  rw [append_of_word? named]
  exact keywords.suffix text keyword last (by simp [sealed_, found])

section

variable {front back blank : Text}

/-- Offsets behind the name of a header and before it are shifted alike. -/
theorem shift_nameStart {α β : Type} {outline : α → β} {filled empty : Occurrence α}
    (found : Matches front back blank outline filled empty) {name : Text} (isWord : IsWord name)
    (inside : name ++ empty.rest <:+ front ++ (rawString [] ++ back)) :
    filled.stop - name.length = shift front blank (empty.stop - name.length) := by
  have absent : '"' ∉ name := isWord.not_mem (by decide)
  cases found with
  | before _ _ ends =>
    dsimp only
    exact (shift_before (by omega)).symm
  | across _ suffix _ ends =>
    have length := length_name absent inside suffix
    dsimp only at length ⊢
    rw [shift_behind (by omega)]
    omega
  | behind suffix _ _ ends =>
    have length := length_name absent inside suffix
    dsimp only at length ⊢
    rw [shift_behind (by omega)]
    omega

variable (unquoted : '"' ∉ front) (blanked : IsBlanked blank)
  (calm : '\n' ∈ blank → ¬AwaitsBody front)
include unquoted blanked calm

theorem typeHeaders_shift :
    typeHeaders (front ++ (rawString blank ++ back)) =
      (typeHeaders (front ++ (rawString [] ++ back))).map (·.place (shift front blank)) := by
  have respects (before : Option Char) : Respects front back blank id (typeHeader? before) :=
    .of_stopsAt (isOuter_quote.stopsAt_typeHeader? before) unquoted id
  have matched := matches_occurrencesFrom (by decide) refuses_type respects blanked
    List.suffix_rfl (Nat.zero_add front.length) none
  rw [typeHeaders, typeHeaders, List.map_filterMap]
  refine filterMap_eq_of_forall₂ matched fun empty member filled found => ?_
  obtain ⟨before, here, read, suffix, -, -, -⟩ := exists_read_of_mem_occurrencesFrom
    (fun before => (isOuter_quote.stopsAt_typeHeader? before).suffix) member
  have isWord := isWord_of_typeHeader? read
  have inside := (suffix_of_typeHeader? read).trans suffix
  have nameStart := shift_nameStart found isWord inside
  have body : bodyOffset (front ++ (rawString blank ++ back)) filled.stop =
      (bodyOffset (front ++ (rawString [] ++ back)) empty.stop).map (shift front blank) := by
    cases found with
    | before _ order ends =>
      refine bodyOffset_before blanked (by dsimp only; omega) fun broken awaits => ?_
      obtain ⟨other, inner, same⟩ := exists_mem_occurrencesFrom_front
        isOuter_quote.stopsAt_typeHeader? unquoted member (by dsimp only; omega)
      exact calm broken ⟨other, inner, by rw [same]; exact awaits⟩
    | across _ later _ ends =>
      have bound := later.length_le
      exact bodyOffset_behind (by omega) (by omega)
    | behind later late order ends =>
      exact bodyOffset_behind (by omega) (by omega)
  have same : filled.found = empty.found := found.outline_eq
  rw [body, same, found.start_eq, nameStart, Option.map_map, Option.map_map]
  rfl

omit unquoted calm in
theorem scopesFrom_rawString (headers : List TypeHeader) (offset : Nat)
    (stack : List (Option TypeHeader)) (rest : Text) :
    scopesFrom headers offset stack (rawString blank ++ rest) =
      scopesFrom headers (offset + 6 + blank.length) stack rest := by
  have free : ∀ c ∈ rawString blank, c ≠ '{' ∧ c ≠ '}' := by
    intro c inside
    rcases of_mem_rawString blanked inside with rfl | rfl | rfl <;> decide
  rw [scopesFrom_free free, length_rawString, Nat.add_comm blank.length, ← Nat.add_assoc]

theorem scopesFrom_shift :
    scopesFrom (typeHeaders (front ++ (rawString blank ++ back))) 0 []
        (front ++ (rawString blank ++ back)) =
      (scopesFrom (typeHeaders (front ++ (rawString [] ++ back))) 0 []
        (front ++ (rawString [] ++ back))).place (shift front blank) := by
  have mono := strictMono_shift front blank
  rw [typeHeaders_shift unquoted blanked calm]
  generalize typeHeaders (front ++ (rawString [] ++ back)) = headers
  -- Behind the raw string all offsets are shifted by the same distance, and before it by none.
  have behind (stack : List (Option TypeHeader)) :
      scopesFrom (headers.map (·.place (shift front blank))) (front.length + 6 + blank.length)
          (stack.map (Option.map (·.place (shift front blank)))) back =
        (scopesFrom headers (front.length + 6) stack back).place (shift front blank) := by
    have here : scopesFrom (headers.map (·.place (shift front blank)))
          (shift front blank (front.length + 6))
          (stack.map (Option.map (·.place (shift front blank)))) (back ++ []) =
        (scopesFrom headers (front.length + 6) stack (back ++ [])).place (shift front blank) := by
      refine scopesFrom_place mono (fun distance _ => ?_) (fun stack => scopesFrom_nil_place _ _) _
      rw [shift_behind (by omega), shift_behind (by omega)]
      omega
    rwa [shift_behind (by omega), List.append_nil] at here
  have whole : scopesFrom (headers.map (·.place (shift front blank))) (shift front blank 0)
        (([] : List (Option TypeHeader)).map (Option.map (·.place (shift front blank))))
        (front ++ (rawString blank ++ back)) =
      (scopesFrom headers 0 [] (front ++ (rawString [] ++ back))).place (shift front blank) := by
    refine scopesFrom_place mono (fun distance bound => ?_) (fun stack => ?_) []
    · rw [shift_before (by omega), shift_before (by omega)]
    · rw [shift_before (by omega), scopesFrom_rawString blanked,
        scopesFrom_rawString isBlanked_nil, List.length_nil, Nat.add_zero, Nat.zero_add]
      exact behind stack
  rwa [shift_before (by omega)] at whole

end

end DeclBridge.Kotlin
