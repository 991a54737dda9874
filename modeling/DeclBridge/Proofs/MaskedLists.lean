import DeclBridge.Proofs.CrossingReaders
import DeclBridge.Proofs.LiteralSegments

/-! A list and its blank copy. They are cut at the same commas when every literal is taken over in
one piece and leaves the reader of the list where its blank copy leaves it. Strings on one line are
of this kind whatever they hold. -/

namespace DeclBridge.Kotlin

open Text

/-! Blanks and quotes -/

theorem isBlank_of_mem_literalQuotes {quote : Char} (member : quote ∈ literalQuotes) :
    isBlank quote = false := by
  have ink : ∀ quote ∈ literalQuotes, isBlank quote = false := by decide
  exact ink quote member

theorem Quoted.mem_text {literal : Quoted} {c : Char} (inside : c ∈ literal.text) :
    c ∈ literalQuotes ∨ c ∈ literal.inner := by
  have ends : ∀ c ∈ literal.enclosure.quotes, c ∈ literalQuotes := by
    cases literal.enclosure <;> decide
  simp only [text, List.mem_append] at inside
  rcases inside with (front | inner) | back
  · exact .inl (ends c front)
  · exact .inr inner
  · exact .inl (ends c back)

theorem Enclosure.exists_quotes (enclosure : Enclosure) :
    ∃ more, enclosure.quotes = enclosure.quote :: more ∧
      enclosure.quotes = more ++ [enclosure.quote] := by
  cases enclosure with
  | raw => exact ⟨['"', '"'], rfl, rfl⟩
  | double | single => exact ⟨[], rfl, rfl⟩

theorem Quoted.exists_text_append (literal : Quoted) :
    ∃ before, literal.text = before ++ [literal.enclosure.quote] := by
  obtain ⟨more, -, same⟩ := literal.enclosure.exists_quotes
  refine ⟨literal.enclosure.quotes ++ literal.inner ++ more, ?_⟩
  rw [text, List.append_assoc _ more, ← same]

/-- But for single blanks, both copies of a segment begin and end with the same visible
character. -/
theorem Segment.blank_or_ink (segment : Segment) :
    (∃ c, segment = .plain c ∧ isBlank c = true) ∨ ∃ c, isBlank c = false ∧ ∀ blank,
      (∃ behind, segment.text blank = c :: behind) ∧
        ∃ before, segment.text blank = before ++ [c] := by
  cases segment with
  | plain c =>
    cases ink : isBlank c with
    | true => exact .inl ⟨c, rfl, ink⟩
    | false => exact .inr ⟨c, ink, fun blank => ⟨⟨[], rfl⟩, ⟨[], rfl⟩⟩⟩
  | quoted literal =>
    refine .inr ⟨literal.enclosure.quote, ?_, fun blank => ?_⟩
    · exact isBlank_of_mem_literalQuotes literal.enclosure.quote_mem
    · cases blank with
      | false => exact ⟨literal.exists_text, literal.exists_text_append⟩
      | true => exact ⟨literal.blank.exists_text, literal.blank.exists_text_append⟩

/-! Cutting -/

namespace Nesting

/-- From the state on, the reader of a list passes every literal as it passes its blank copy. -/
def Passes : Nesting → List Segment → Prop
  | _, [] => True
  | state, .plain c :: others => (state.next c).Passes others
  | state, .quoted literal :: others =>
    state.Takes literal.text (state.after literal.blank.text) ∧
      (state.after literal.blank.text).Passes others

instance (first second : Nesting) : Decidable (first.Similar second) :=
  decidable_of_iff
    (first.quoting = second.quoting ∧ first.depth = second.depth ∧
      (first.before = some '-' ↔ second.before = some '-'))
    ⟨fun ⟨quoting, depth, hyphen⟩ => ⟨quoting, depth, hyphen⟩,
      fun similar => ⟨similar.quoting, similar.depth, similar.hyphen⟩⟩

instance (state : Nesting) (text : Text) (next : Nesting) : Decidable (state.Takes text next) :=
  decidable_of_iff (state.pieces text = [text] ∧ (state.after text).Similar next)
    ⟨fun ⟨whole, similar⟩ => ⟨whole, similar⟩, fun takes => ⟨takes.whole, takes.similar⟩⟩

instance decidablePasses : (state : Nesting) → (list : List Segment) → Decidable (state.Passes list)
  | _, [] => isTrue trivial
  | state, .plain c :: others => decidablePasses (state.next c) others
  | state, .quoted literal :: others =>
    have := decidablePasses (state.after literal.blank.text) others
    inferInstanceAs (Decidable (_ ∧ _))

theorem Similar.symm {first second : Nesting} (similar : first.Similar second) :
    second.Similar first :=
  ⟨similar.quoting.symm, similar.depth.symm, similar.hyphen.symm⟩

theorem pieces_of_not_mem {text : Text} (commaless : ',' ∉ text) (state : Nesting) :
    state.pieces text = [text] := by
  induction text generalizing state with
  | nil => rfl
  | cons c text ih =>
    rw [List.mem_cons, not_or] at commaless
    exact pieces_cons_eq_singleton_iff.mpr
      ⟨fun comma => commaless.1 comma.1.symm, ih commaless.2 _⟩

theorem pieces_blank (state : Nesting) (literal : Quoted) :
    state.pieces literal.blank.text = [literal.blank.text] := by
  refine pieces_of_not_mem (fun inside => ?_) state
  rcases Quoted.mem_text inside with quote | blank
  · exact absurd quote (by decide)
  · exact absurd (isBlanked_blankOut _ _ blank) (by decide)

/-- Both copies are cut between the same segments. -/
theorem Passes.exists_pieces {state : Nesting} {list : List Segment} (passes : state.Passes list) :
    ∃ first others, first <+: list ∧ (∀ part ∈ others, part <:+: list) ∧
      ∀ blank, state.pieces (joined blank list) = (first :: others).map (joined blank) := by
  induction list generalizing state with
  | nil => exact ⟨[], [], List.prefix_rfl, by simp, fun blank => rfl⟩
  | cons segment list ih =>
    cases segment with
    | plain c =>
      obtain ⟨first, others, front, stretches, cutting⟩ := ih passes
      by_cases separates : c = ',' ∧ state.IsTop
      · obtain ⟨rfl, top⟩ := separates
        refine ⟨[], first :: others, List.nil_prefix, ?_, fun blank => ?_⟩
        · refine List.forall_mem_cons.mpr ⟨front.isInfix.trans (List.suffix_cons _ _).isInfix, ?_⟩
          exact fun part member => (stretches part member).trans (List.suffix_cons _ _).isInfix
        · rw [joined_cons, Segment.text, List.singleton_append, pieces_comma top, cutting]
          rfl
      · refine ⟨.plain c :: first, others, (List.prefix_cons_inj _).mpr front, ?_, fun blank => ?_⟩
        · exact fun part member => (stretches part member).trans (List.suffix_cons _ _).isInfix
        · rw [joined_cons, Segment.text, List.singleton_append, pieces_cons separates, cutting]
          rfl
    | quoted literal =>
      obtain ⟨takes, passes⟩ := passes
      obtain ⟨first, others, front, stretches, cutting⟩ := ih passes
      refine ⟨.quoted literal :: first, others, (List.prefix_cons_inj _).mpr front, ?_,
        fun blank => ?_⟩
      · exact fun part member => (stretches part member).trans (List.suffix_cons _ _).isInfix
      · cases blank with
        | false =>
          rw [joined_cons, Segment.text, if_neg (by simp), pieces_append takes.whole,
            takes.similar.pieces, cutting]
          rfl
        | true =>
          rw [joined_cons, Segment.text, if_pos rfl, pieces_append (state.pieces_blank literal),
            cutting]
          rfl

end Nesting

/-! Trimming -/

private theorem exists_skipBlanks_joined (list : List Segment) :
    ∃ behind, behind <:+: list ∧ ∀ blank, skipBlanks (joined blank list) = joined blank behind := by
  induction list with
  | nil => exact ⟨[], List.infix_rfl, fun blank => rfl⟩
  | cons segment list ih =>
    rcases segment.blank_or_ink with ⟨c, rfl, blank⟩ | ⟨c, ink, ends⟩
    · obtain ⟨behind, stretch, same⟩ := ih
      refine ⟨behind, stretch.trans (List.suffix_cons _ _).isInfix, fun copy => ?_⟩
      rw [← same copy]
      exact List.dropWhile_cons_of_pos blank
    · refine ⟨segment :: list, List.infix_rfl, fun copy => ?_⟩
      obtain ⟨⟨behind, same⟩, -⟩ := ends copy
      rw [joined_cons, same]
      exact List.dropWhile_cons_of_neg (by simp [ink])

private theorem exists_trimEnd_joined (list : List Segment) :
    ∃ before, before <:+: list ∧ ∀ blank, trimEnd (joined blank list) = joined blank before := by
  induction list using List.reverseRecOn with
  | nil => exact ⟨[], List.infix_rfl, fun blank => rfl⟩
  | append_singleton list segment ih =>
    rcases segment.blank_or_ink with ⟨c, rfl, blank⟩ | ⟨c, ink, ends⟩
    · obtain ⟨before, stretch, same⟩ := ih
      refine ⟨before, stretch.trans (List.prefix_append _ _).isInfix, fun copy => ?_⟩
      rw [← same copy, joined_append]
      exact List.rdropWhile_concat_pos _ _ _ blank
    · refine ⟨list ++ [segment], List.infix_rfl, fun copy => ?_⟩
      obtain ⟨-, before, same⟩ := ends copy
      rw [joined_append, joined_cons, same, joined_nil, List.append_nil, ← List.append_assoc,
        trimEnd_append_cons ink]
      rfl

theorem exists_trim_joined (list : List Segment) :
    ∃ middle, middle <:+: list ∧ ∀ blank, trim (joined blank list) = joined blank middle := by
  obtain ⟨behind, within, front⟩ := exists_skipBlanks_joined list
  obtain ⟨middle, stretch, back⟩ := exists_trimEnd_joined behind
  refine ⟨middle, stretch.trans within, fun blank => ?_⟩
  rw [trim, front, back]

/-! Entries -/

theorem isEmpty_joined (blank : Bool) (list : List Segment) :
    (joined blank list).isEmpty = list.isEmpty := by
  cases list with
  | nil => rfl
  | cons segment list =>
    rcases segment.blank_or_ink with ⟨c, rfl, -⟩ | ⟨c, -, ends⟩
    · rfl
    · obtain ⟨⟨behind, same⟩, -⟩ := ends blank
      rw [joined_cons, same]
      rfl

private theorem exists_splitTopLevel_joined {list : List Segment}
    (passes : Nesting.start.Passes list) :
    ∃ entries : List (List Segment), (∀ entry ∈ entries, entry <:+: list) ∧
      ∀ blank, splitTopLevel (joined blank list) = entries.map (joined blank) := by
  obtain ⟨first, others, front, stretches, cutting⟩ := passes.exists_pieces
  choose middle stretch trimming using exists_trim_joined
  refine ⟨((first :: others).map middle).filter (!·.isEmpty), ?_, fun blank => ?_⟩
  · intro entry member
    obtain ⟨part, inside, rfl⟩ := List.mem_map.mp (List.mem_filter.mp member).1
    refine (stretch part).trans ?_
    rcases List.mem_cons.mp inside with rfl | inside
    · exact front.isInfix
    · exact stretches part inside
  · have trimmed : (first :: others).map (trim ∘ joined blank) =
        (first :: others).map (joined blank ∘ middle) :=
      List.map_congr_left fun part _ => trimming part blank
    have kept : (fun entry : Text => !entry.isEmpty) ∘ joined blank =
        fun entry : List Segment => !entry.isEmpty :=
      funext fun entry => congrArg (!·) (isEmpty_joined blank entry)
    change ((Nesting.start.pieces _).map trim).filter (!·.isEmpty) = _
    rw [cutting, List.map_map, trimmed, ← List.map_map, List.filter_map, kept]

/-- The entries of the blank copy are the blank copies of the entries. -/
theorem splitTopLevel_maskLiterals {text : Text} (passes : Nesting.start.Passes (segments text)) :
    splitTopLevel (maskLiterals text) = (splitTopLevel text).map maskLiterals := by
  obtain ⟨entries, stretches, cutting⟩ := exists_splitTopLevel_joined passes
  have filled := cutting false
  rw [joined_segments] at filled
  rw [maskLiterals_eq_joined, cutting, filled, List.map_map]
  refine List.map_congr_left fun entry member => ?_
  exact ((divides_segments text).1.within (stretches entry member)).maskLiterals_eq.symm

/-! Literals that are passed -/

namespace Nesting

variable {before : Option Char} {depth : Nat} {text : Text}

theorem takes_within (plain : ∀ c ∈ text, c ≠ '"' ∧ c ≠ '\\') :
    Takes ⟨.inside, before, depth⟩ text ⟨.inside, lastFrom before text, depth⟩ := by
  induction text generalizing before with
  | nil => exact takes_nil _
  | cons c text ih =>
    obtain ⟨⟨unquoted, unescaping⟩, others⟩ := List.forall_mem_cons.mp plain
    have step : Takes ⟨.inside, before, depth⟩ [c] ⟨.inside, some c, depth⟩ :=
      takes_single (fun _ top => absurd top.1 (by simp))
        (by simpa [next, Quoting.next, unquoted, unescaping] using .refl _)
    exact step.cons (ih others)

theorem takes_unmarked (plain : ∀ c ∈ text, c ∉ marks ∧ c ≠ ',') :
    Takes ⟨.outside, before, depth⟩ text ⟨.outside, lastFrom before text, depth⟩ := by
  induction text generalizing before with
  | nil => exact takes_nil _
  | cons c text ih =>
    obtain ⟨⟨unmarked, comma⟩, others⟩ := List.forall_mem_cons.mp plain
    have unquoted : c ≠ '"' := fun same => unmarked (by simp [marks, same])
    have step : Takes ⟨.outside, before, depth⟩ [c] ⟨.outside, some c, depth⟩ :=
      takes_single (fun same => absurd same comma)
        (by simpa [next, Quoting.next, unquoted, depthAfter_of_not_mem_marks unmarked]
          using .refl _)
    exact step.cons (ih others)

private theorem takes_opening :
    Takes ⟨.outside, before, depth⟩ ['"'] ⟨.inside, some '"', depth⟩ :=
  takes_single (by simp) (.refl _)

private theorem takes_closing :
    Takes ⟨.inside, before, depth⟩ ['"'] ⟨.outside, some '"', depth⟩ :=
  takes_single (by simp) (.refl _)

end Nesting

/-- Strings on one line, raw strings without quotes and backslashes, and character literals without
marks of a list. -/
inductive Quoted.IsTame : Quoted → Prop where
  | raw {inner : Text} (plain : ∀ c ∈ inner, c ≠ '"' ∧ c ≠ '\\') : IsTame ⟨.raw, inner⟩
  | double {inner : Text} (quoted : IsQuoted inner) : IsTame ⟨.double, inner⟩
  | single {inner : Text} (unmarked : ∀ c ∈ inner, c ∉ Nesting.marks ∧ c ≠ ',') :
    IsTame ⟨.single, inner⟩

namespace Nesting

variable {before : Option Char} {depth : Nat} {inner : Text}

private theorem takes_raw (plain : ∀ c ∈ inner, c ≠ '"' ∧ c ≠ '\\') :
    Takes ⟨.outside, before, depth⟩ (Quoted.mk .raw inner).text ⟨.outside, some '"', depth⟩ := by
  have ends : Takes ⟨.inside, lastFrom (some '"') inner, depth⟩ ['"', '"', '"']
      ⟨.outside, some '"', depth⟩ :=
    takes_closing.cons (takes_opening.cons takes_closing)
  exact takes_opening.cons (takes_closing.cons (takes_opening.cons
    ((takes_within plain).trans ends)))

private theorem takes_single_quoted (unmarked : ∀ c ∈ inner, c ∉ marks ∧ c ≠ ',') :
    Takes ⟨.outside, before, depth⟩ (Quoted.mk .single inner).text
      ⟨.outside, some '\'', depth⟩ := by
  have quote {before : Option Char} :
      Takes ⟨.outside, before, depth⟩ ['\''] ⟨.outside, some '\'', depth⟩ :=
    takes_single (by simp) (.refl _)
  exact quote.cons ((takes_unmarked unmarked).trans quote)

theorem takes_of_isTame {literal : Quoted} (tame : literal.IsTame) :
    Takes ⟨.outside, before, depth⟩ literal.text
      ⟨.outside, some literal.enclosure.quote, depth⟩ := by
  cases tame with
  | raw plain => exact takes_raw plain
  | double quoted => exact takes_opening.cons (takes_quoted quoted)
  | single unmarked => exact takes_single_quoted unmarked

theorem takes_blank (literal : Quoted) :
    Takes ⟨.outside, before, depth⟩ literal.blank.text
      ⟨.outside, some literal.enclosure.quote, depth⟩ := by
  have plain : ∀ c ∈ blankOut literal.inner, c ≠ '"' ∧ c ≠ '\\' := by
    intro c inside
    rcases isBlanked_blankOut _ _ inside with rfl | rfl <;> decide
  obtain ⟨enclosure, inner⟩ := literal
  cases enclosure with
  | raw => exact takes_raw plain
  | double => exact takes_opening.cons ((takes_within plain).trans takes_closing)
  | single =>
    refine takes_single_quoted fun c inside => ?_
    rcases isBlanked_blankOut _ _ inside with rfl | rfl <;> decide

/-- Tame literals are passed from wherever no string is open. -/
theorem passes_of_isTame {list : List Segment} (paired : .plain '"' ∉ list)
    (tame : ∀ literal, .quoted literal ∈ list → literal.IsTame) {state : Nesting}
    (outside : state.quoting = .outside) : state.Passes list := by
  induction list generalizing state with
  | nil => trivial
  | cons segment list ih =>
    rw [List.mem_cons, not_or] at paired
    have others := fun literal member => tame literal (List.mem_cons_of_mem segment member)
    cases segment with
    | plain c =>
      have unquoted : c ≠ '"' := fun same => paired.1 (congrArg Segment.plain same.symm)
      exact ih paired.2 others (by simp [next, outside, Quoting.next, unquoted])
    | quoted literal =>
      obtain ⟨quoting, before, depth⟩ := state
      obtain rfl : quoting = .outside := outside
      let behind : Nesting := ⟨.outside, some literal.enclosure.quote, depth⟩
      have filled : Takes ⟨.outside, before, depth⟩ literal.text behind :=
        takes_of_isTame (tame literal List.mem_cons_self)
      have empty : Takes ⟨.outside, before, depth⟩ literal.blank.text behind := takes_blank literal
      refine ⟨⟨filled.whole, filled.similar.trans empty.similar.symm⟩, ih paired.2 others ?_⟩
      exact empty.similar.quoting

end Nesting

private theorem exists_isQuoted {text rest : Text} (found : afterQuoted? '"' text = some rest) :
    ∃ inner, text = inner ++ '"' :: rest ∧ IsQuoted inner := by
  fun_induction afterQuoted? '"' text with
  | case1 | case2 | case3 => cases found
  | case4 c more single ih =>
    obtain ⟨inner, rfl, quoted⟩ := ih found
    exact ⟨'\\' :: c :: inner, rfl, .escaped single quoted⟩
  | case5 =>
    cases found
    exact ⟨[], rfl, .nil⟩
  | case6 => cases found
  | case7 c more lone paired unquoted single ih =>
    obtain ⟨inner, rfl, quoted⟩ := ih found
    refine ⟨c :: inner, rfl, .plain unquoted ?_ single quoted⟩
    rintro rfl
    cases inner with
    | nil => exact paired '"' rest rfl rfl
    | cons d inner => exact paired d (inner ++ '"' :: rest) rfl rfl

/-- In a text every string on one line is tame, whatever it holds. -/
theorem Divides.isTame_of_double {list : List Segment} (divides : Divides list) {inner : Text}
    (member : .quoted ⟨.double, inner⟩ ∈ list) : (Quoted.mk .double inner).IsTame := by
  obtain ⟨before, after, rfl⟩ := List.append_of_mem member
  cases divides.right with
  | quoted read _ =>
    obtain ⟨enclosure, -, read⟩ := List.exists_of_findSome?_eq_some read
    obtain ⟨-, rfl, closes⟩ := Enclosure.of_quoted? read
    obtain ⟨content, same, quoted⟩ := exists_isQuoted (closes [])
    rw [List.append_nil] at same
    obtain rfl : inner = content := List.append_cancel_right same
    exact .double quoted

/-- Only raw strings, character literals and quotes that are never closed need to be looked at. -/
theorem passes_segments {text : Text} (paired : .plain '"' ∉ segments text)
    (tame : ∀ literal, .quoted literal ∈ segments text → literal.enclosure ≠ .double →
      literal.IsTame) : Nesting.start.Passes (segments text) := by
  refine Nesting.passes_of_isTame paired (fun literal member => ?_) rfl
  by_cases double : literal.enclosure = .double
  · obtain ⟨enclosure, inner⟩ := literal
    obtain rfl : enclosure = .double := double
    exact (divides_segments text).1.isTame_of_double member
  · exact tame literal member double

end DeclBridge.Kotlin
