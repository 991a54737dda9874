import DeclBridge.Proofs.BracketStacks
import DeclBridge.Proofs.LiteralTexts
import DeclBridge.Proofs.PlainText

/-! Texts in which every bracket and every literal is closed. Whoever looks for the partner of a
bracket, or for the commas of a list, passes over them. -/

namespace DeclBridge.Kotlin

open Text

/-- Brackets pair up. Only in a list commas may stand outside of them. -/
inductive Balanced : (isList : Bool) → Text → Prop where
  | nil {isList} : Balanced isList []
  | plain {isList c rest} (unmarked : c ∉ Nesting.marks) (comma : c = ',' → isList = true)
    (behind : Balanced isList rest) : Balanced isList (c :: rest)
  | arrow {isList rest} (behind : Balanced isList rest) : Balanced isList ('-' :: '>' :: rest)
  | hyphen {isList c rest} (unmarked : c ∉ Nesting.marks) (comma : c ≠ ',')
    (behind : Balanced isList rest) : Balanced isList ('-' :: c :: rest)
  | quoted {isList inner rest} (quoted : IsQuoted inner) (behind : Balanced isList rest) :
    Balanced isList ('"' :: inner ++ '"' :: rest)
  | nested {isList inner rest} (bracket : Bracket) (within : Balanced true inner)
    (behind : Balanced isList rest) :
    Balanced isList (bracket.opener :: inner ++ bracket.closer :: rest)

namespace Balanced

variable {isList : Bool} {text : Text}

theorem append {other : Text} (first : Balanced isList text) (second : Balanced isList other) :
    Balanced isList (text ++ other) := by
  induction first with
  | nil => exact second
  | plain unmarked comma _ ih => exact .plain unmarked comma (ih second)
  | arrow _ ih => exact .arrow (ih second)
  | hyphen unmarked comma _ ih => exact .hyphen unmarked comma (ih second)
  | quoted quoted _ ih => simpa using Balanced.quoted quoted (ih second)
  | nested bracket within _ _ ih => simpa using Balanced.nested bracket within (ih second)

theorem weaken (balanced : Balanced false text) : Balanced isList text := by
  generalize same : false = list at balanced
  induction balanced with
  | nil => exact .nil
  | plain unmarked comma _ ih =>
    subst same
    exact .plain unmarked (fun isComma => absurd (comma isComma) (by simp)) (ih rfl)
  | arrow _ ih => exact .arrow (ih same)
  | hyphen unmarked comma _ ih => exact .hyphen unmarked comma (ih same)
  | quoted quoted _ ih => exact .quoted quoted (ih same)
  | nested bracket within _ _ ih => exact .nested bracket within (ih same)

theorem cons {c : Char} (plain : c ∉ Nesting.marks ∧ c ≠ ',') (behind : Balanced isList text) :
    Balanced isList (c :: text) :=
  .plain plain.1 (fun same => absurd same plain.2) behind

theorem of_plain (plain : ∀ c ∈ text, c ∉ Nesting.marks ∧ c ≠ ',') : Balanced isList text := by
  induction text with
  | nil => exact .nil
  | cons c text ih =>
    obtain ⟨first, others⟩ := List.forall_mem_cons.mp plain
    exact cons first (ih others)

theorem of_blank (blank : ∀ c ∈ text, isBlank c = true) : Balanced isList text := by
  refine of_plain fun c inside => ⟨Nesting.not_mem_marks_of_blank (blank c inside), ?_⟩
  rintro rfl
  exact absurd (blank _ inside) (by decide)

theorem of_dotted (dotted : ∀ c ∈ text, isDottedChar c = true) : Balanced isList text := by
  have undotted : ∀ mark ∈ ',' :: Nesting.marks, isDottedChar mark = false := by decide
  have differs {c mark : Char} (inside : c ∈ text) (outside : isDottedChar mark = false) :
      c ≠ mark := by
    rintro rfl
    rw [dotted c inside] at outside
    cases outside
  refine of_plain fun c inside => ⟨fun mark => ?_, differs inside (by decide)⟩
  exact differs inside (undotted c (List.mem_cons_of_mem _ mark)) rfl

theorem bracketed (bracket : Bracket) (within : Balanced true text) :
    Balanced isList (bracket.opener :: text ++ [bracket.closer]) :=
  .nested bracket within .nil

end Balanced

/-- No arrow can begin at the end of a balanced text. -/
theorem Balanced.unhyphened {isList : Bool} {text : Text} (balanced : Balanced isList text)
    {before : Option Char} (unhyphened : before ≠ some '-') : lastFrom before text ≠ some '-' := by
  have differs {c : Char} (unmarked : c ∉ Nesting.marks) : some c ≠ some '-' := by
    rintro ⟨⟩
    exact unmarked (by decide)
  induction balanced generalizing before with
  | nil => exact unhyphened
  | plain unmarked _ _ ih => exact ih (differs unmarked)
  | arrow _ ih =>
    have head : some '>' ≠ some '-' := by decide
    exact ih head
  | hyphen unmarked _ _ ih => exact ih (differs unmarked)
  | quoted _ _ ih =>
    have quote : some '"' ≠ some '-' := by decide
    rw [lastFrom_append]
    exact ih quote
  | nested bracket _ _ _ ih =>
    rw [lastFrom_append]
    exact ih bracket.closer_ne_hyphen

/-! The stack of open brackets -/

theorem BracketStack.after?_quoted {text : Text} (quoted : IsQuoted text) (before : Option Char)
    (brackets : List Bracket) :
    after? ⟨.inside, before, brackets⟩ (text ++ ['"']) = some ⟨.outside, some '"', brackets⟩ := by
  have within {quoting : Quoting} {before : Option Char} (inside : quoting ≠ .outside) (c : Char) :
      Step ⟨quoting, before, brackets⟩ c ⟨quoting.next c, some c, brackets⟩ :=
    .idle fun outside => absurd outside inside
  induction quoted generalizing before with
  | nil => exact (within (by simp) '"').cons rfl
  | @escaped c _ _ _ ih => exact (within (by simp) '\\').cons ((within (by decide) c).cons (ih _))
  | @plain c _ unquoted unescaping _ _ ih =>
    have step := @within .inside before (by simp) c
    rw [Quoting.next, if_neg unquoted, if_neg unescaping] at step
    exact step.cons (ih _)

/-- Behind a balanced text the same brackets are open as before it. -/
theorem Balanced.after? {isList : Bool} {text : Text} (balanced : Balanced isList text)
    (before : Option Char) (brackets : List Bracket) :
    BracketStack.after? ⟨.outside, before, brackets⟩ text =
      some ⟨.outside, lastFrom before text, brackets⟩ := by
  have hyphen {before brackets} :
      BracketStack.Step ⟨.outside, before, brackets⟩ '-' ⟨.outside, some '-', brackets⟩ :=
    .idle fun _ => by simp [Bracket.ofOpener?, closesAfter]
  have head {brackets} :
      BracketStack.Step ⟨.outside, some '-', brackets⟩ '>' ⟨.outside, some '>', brackets⟩ :=
    .idle fun _ => by simp [Bracket.ofOpener?, closesAfter]
  have quote {before brackets} :
      BracketStack.Step ⟨.outside, before, brackets⟩ '"' ⟨.inside, some '"', brackets⟩ :=
    .idle fun _ => by simp [Bracket.ofOpener?, closesAfter]
  induction balanced generalizing before brackets with
  | nil => rfl
  | plain unmarked _ _ ih => exact (BracketStack.Step.unmarked unmarked).cons (ih _ _)
  | arrow _ ih => exact hyphen.cons (head.cons (ih _ _))
  | hyphen unmarked _ _ ih =>
    exact hyphen.cons ((BracketStack.Step.unmarked unmarked).cons (ih _ _))
  | @quoted _ inner rest quoted _ ih =>
    rw [List.append_cons, lastFrom_append, lastFrom_append]
    exact BracketStack.after?_append (quote.cons (BracketStack.after?_quoted quoted _ brackets))
      (ih _ _)
  | @nested _ inner rest bracket within _ ihw ih =>
    have unhyphened : lastFrom (some bracket.opener) inner ≠ some '-' :=
      within.unhyphened bracket.opener_ne_hyphen
    have closing := bracket.closesAfter_closer unhyphened
    have inside : BracketStack.after? ⟨.outside, some bracket.opener, bracket :: brackets⟩
        (inner ++ [bracket.closer]) = some ⟨.outside, some bracket.closer, brackets⟩ :=
      BracketStack.after?_append (ihw _ _) ((BracketStack.Step.closes bracket closing).cons rfl)
    rw [List.append_cons, lastFrom_append, lastFrom_append]
    exact BracketStack.after?_append ((BracketStack.Step.opens bracket).cons inside) (ih _ _)

theorem Balanced.isNested {isList : Bool} {text : Text} (balanced : Balanced isList text) :
    IsNested text := by
  rw [IsNested, BracketStack.start, balanced.after?, lastFrom_none]

theorem Balanced.isEnclosed {isList : Bool} {text : Text} (balanced : Balanced isList text) :
    IsEnclosed text := by
  have unhyphened : lastFrom none text ≠ some '-' := balanced.unhyphened (by decide)
  rw [lastFrom_none] at unhyphened
  exact ⟨balanced.isNested, unhyphened⟩

/-- The partner of a bracket stands behind the balanced text that follows it. -/
theorem Balanced.inside {isList : Bool} {text : Text} (balanced : Balanced isList text)
    (bracket : Bracket) (rest : Text) :
    bracket.inside (text ++ bracket.closer :: rest) = some (text, rest) :=
  balanced.isEnclosed.inside bracket rest

/-! Passing over to the next comma -/

namespace Nesting

theorem Similar.refl (state : Nesting) : state.Similar state :=
  ⟨rfl, rfl, Iff.rfl⟩

theorem Similar.trans {first second third : Nesting} (left : first.Similar second)
    (right : second.Similar third) : first.Similar third :=
  ⟨left.quoting.trans right.quoting, left.depth.trans right.depth, left.hyphen.trans right.hyphen⟩

/-- Between two states the text is taken over in one piece. -/
structure Takes (state : Nesting) (text : Text) (next : Nesting) : Prop where
  whole : state.pieces text = [text]
  similar : (state.after text).Similar next

/-- Outside of literals and not behind what may begin an arrow. In a list some bracket is open. -/
structure IsOpen (isList : Bool) (state : Nesting) : Prop where
  outside : state.quoting = .outside
  unhyphened : state.before ≠ some '-'
  deep : isList = true → state.depth ≠ 0

variable {state next last : Nesting} {c : Char} {text other : Text} {isList : Bool}

theorem Takes.trans (first : state.Takes text next) (second : next.Takes other last) :
    state.Takes (text ++ other) last := by
  constructor
  · refine pieces_append_eq_singleton_iff.mpr ⟨first.whole, ?_⟩
    rw [first.similar.pieces]
    exact second.whole
  · rw [after_append]
    exact (first.similar.after other).trans second.similar

theorem Takes.cons (first : state.Takes [c] next) (second : next.Takes text last) :
    state.Takes (c :: text) last :=
  first.trans second

theorem takes_nil (state : Nesting) : state.Takes [] state :=
  ⟨rfl, .refl state⟩

theorem takes_single (comma : c = ',' → ¬state.IsTop) (similar : (state.next c).Similar next) :
    state.Takes [c] next :=
  ⟨pieces_cons_eq_singleton_iff.mpr ⟨fun top => comma top.1 top.2, rfl⟩, similar⟩

theorem IsOpen.takes_unmarked (opened : state.IsOpen isList) (unmarked : c ∉ marks)
    (comma : c = ',' → isList = true) : state.Takes [c] state := by
  have unquoted : c ≠ '"' := fun same => unmarked (by simp [marks, same])
  have unhyphened : c ≠ '-' := fun same => unmarked (by simp [marks, same])
  refine takes_single (fun same top => opened.deep (comma same) top.2) ⟨?_, ?_, ?_⟩
  · simp [Nesting.next, opened.outside, Quoting.next, unquoted]
  · simp [Nesting.next, depthAfter_of_not_mem_marks unmarked]
  · simp [Nesting.next, unhyphened, opened.unhyphened]

theorem IsOpen.takes_hyphen (opened : state.IsOpen isList) :
    state.Takes ['-'] ⟨.outside, some '-', state.depth⟩ := by
  refine takes_single (by simp) ⟨?_, ?_, ?_⟩ <;>
    simp [Nesting.next, opened.outside, Quoting.next, depthAfter, isOpener, Bracket.ofOpener?,
      closesAfter]

theorem IsOpen.takes_arrow (opened : state.IsOpen isList) : state.Takes ['-', '>'] state := by
  refine opened.takes_hyphen.cons (takes_single (by simp) ⟨?_, ?_, ?_⟩) <;>
    simp [Nesting.next, opened.outside, opened.unhyphened, Quoting.next, depthAfter, isOpener,
      Bracket.ofOpener?, closesAfter]

theorem IsOpen.takes_quote (opened : state.IsOpen isList) :
    state.Takes ['"'] ⟨.inside, some '"', state.depth⟩ := by
  refine takes_single (by simp) ⟨?_, ?_, ?_⟩ <;>
    simp [Nesting.next, opened.outside, Quoting.next, depthAfter, isOpener, Bracket.ofOpener?,
      closesAfter]

theorem IsOpen.takes_opener (opened : state.IsOpen isList) (bracket : Bracket) :
    state.Takes [bracket.opener] ⟨.outside, some bracket.opener, state.depth + 1⟩ := by
  refine takes_single (by cases bracket <;> simp [Bracket.opener]) ⟨?_, ?_, ?_⟩ <;>
    cases bracket <;>
    simp [Nesting.next, opened.outside, Quoting.next, depthAfter, isOpener, Bracket.ofOpener?,
      Bracket.opener]

theorem IsOpen.takes_closer (opened : state.IsOpen isList) (bracket : Bracket) :
    Takes ⟨.outside, some bracket.opener, state.depth + 1⟩ [bracket.closer] state := by
  refine takes_single (by cases bracket <;> simp [Bracket.closer]) ⟨?_, ?_, ?_⟩ <;>
    cases bracket <;>
    simp [Nesting.next, opened.outside, opened.unhyphened, Quoting.next, depthAfter, isOpener,
      Bracket.ofOpener?, Bracket.opener, Bracket.closer, closesAfter]

theorem takes_quoted {before : Option Char} {depth : Nat} (quoted : IsQuoted text) :
    Takes ⟨.inside, before, depth⟩ (text ++ ['"']) ⟨.outside, some '"', depth⟩ := by
  have single {quoting : Quoting} {before : Option Char} {c : Char} (within : quoting ≠ .outside) :
      Takes ⟨quoting, before, depth⟩ [c] ⟨quoting.next c, some c, depth⟩ :=
    takes_single (fun _ top => within top.1) (by simpa [Nesting.next, within] using .refl _)
  induction quoted generalizing before with
  | nil => exact single (by simp)
  | escaped _ _ ih => exact (single (by simp)).cons ((single (by simp [Quoting.next])).cons ih)
  | @plain c text unquoted unescaping _ _ ih =>
    have step : Takes ⟨.inside, before, depth⟩ [c] ⟨Quoting.inside.next c, some c, depth⟩ :=
      single (by simp)
    rw [Quoting.next, if_neg unquoted, if_neg unescaping] at step
    exact step.cons ih

end Nesting

/-- Looking for the next comma passes over a balanced text. -/
theorem Balanced.takes {isList : Bool} {text : Text} (balanced : Balanced isList text)
    {state : Nesting} (opened : state.IsOpen isList) : state.Takes text state := by
  induction balanced generalizing state with
  | nil => exact Nesting.takes_nil state
  | plain unmarked comma _ ih => exact (opened.takes_unmarked unmarked comma).cons (ih opened)
  | arrow _ ih => exact opened.takes_arrow.trans (ih opened)
  | @hyphen _ c _ unmarked comma _ ih =>
    have unquoted : c ≠ '"' := fun same => unmarked (by simp [Nesting.marks, same])
    have unhyphened : c ≠ '-' := fun same => unmarked (by simp [Nesting.marks, same])
    have behind : Nesting.Takes ⟨.outside, some '-', state.depth⟩ [c] state := by
      refine Nesting.takes_single (fun same => absurd same comma) ⟨?_, ?_, ?_⟩
      · simp [Nesting.next, opened.outside, Quoting.next, unquoted]
      · simp [Nesting.next, Nesting.depthAfter_of_not_mem_marks unmarked]
      · simp [Nesting.next, unhyphened, opened.unhyphened]
    exact opened.takes_hyphen.cons (behind.cons (ih opened))
  | @quoted _ inner rest quoted _ ih =>
    have literal := opened.takes_quote.cons (Nesting.takes_quoted quoted)
    have similar : Nesting.Similar ⟨.outside, some '"', state.depth⟩ state :=
      ⟨opened.outside.symm, rfl, by simp [opened.unhyphened]⟩
    rw [List.append_cons]
    exact Nesting.Takes.trans ⟨literal.whole, literal.similar.trans similar⟩ (ih opened)
  | @nested _ inner rest bracket _ _ ihw ih =>
    have deeper : Nesting.IsOpen true ⟨.outside, some bracket.opener, state.depth + 1⟩ :=
      ⟨rfl, by cases bracket <;> simp [Bracket.opener], by simp⟩
    rw [List.append_cons]
    refine Nesting.Takes.trans ?_ (ih opened)
    exact ((opened.takes_opener bracket).cons (ihw deeper)).trans (opened.takes_closer bracket)

/-- What is passed over from anywhere in the code closes what it opens. -/
theorem isSelfContained_of_takes {text : Text}
    (takes : ∀ state : Nesting, state.IsOpen false → state.Takes text state) :
    IsSelfContained text := by
  have taken := takes .start ⟨rfl, by decide, by simp⟩
  exact ⟨taken.whole, taken.similar.isTop.mpr Nesting.start_isTop⟩

theorem Balanced.isSelfContained {text : Text} (balanced : Balanced false text) :
    IsSelfContained text :=
  isSelfContained_of_takes fun _ => balanced.takes

/-! Stacks that are only counted -/

namespace BracketStack

/-- What is left of a stack where only the number of brackets counts, `depth` further ones being
open below it. -/
def flat (stack : BracketStack) (depth : Nat) : Nesting :=
  ⟨stack.quoting, stack.before, depth + stack.brackets.length⟩

variable {stack other : BracketStack} {c : Char} {text : Text}

theorem Step.next_flat (step : Step stack c other) (depth : Nat) :
    (stack.flat depth).next c = other.flat depth := by
  cases step with
  | opens bracket =>
    simp [flat, Nesting.next, bracket.next_opener, depthAfter, isOpener,
      bracket.ofOpener?_opener, Nat.add_assoc]
  | closes bracket closing =>
    simp [flat, Nesting.next, bracket.next_closer, depthAfter, isOpener,
      bracket.ofOpener?_closer, closing, ← Nat.add_assoc]
  | @idle quoting before brackets c same =>
    by_cases outside : quoting = .outside
    · obtain ⟨opens, closing⟩ := same outside
      simp [flat, Nesting.next, outside, depthAfter, isOpener, opens, closing]
    · simp [flat, Nesting.next, outside]

/-- Counting all kinds together keeps the size of the stack. -/
theorem after_flat (run : stack.after? text = some other) (depth : Nat) :
    (stack.flat depth).after text = other.flat depth := by
  induction text generalizing stack with
  | nil =>
    cases run
    rfl
  | cons c text ih =>
    obtain ⟨next, step, behind⟩ := Option.bind_eq_some_iff.mp run
    have first := (next?_eq_some_iff.mp step).next_flat depth
    rw [Nesting.after, List.foldl_cons, first]
    exact ih behind

/-- Inside of a bracket no comma separates. -/
theorem pieces_flat (run : stack.after? text = some other) (depth : Nat) :
    (stack.flat (depth + 1)).pieces text = [text] := by
  induction text generalizing stack with
  | nil => rfl
  | cons c text ih =>
    obtain ⟨next, step, behind⟩ := Option.bind_eq_some_iff.mp run
    have first := (next?_eq_some_iff.mp step).next_flat (depth + 1)
    have inside : ¬(c = ',' ∧ (stack.flat (depth + 1)).IsTop) := by
      rintro ⟨-, -, flat⟩
      simp only [BracketStack.flat] at flat
      omega
    rw [Nesting.pieces_cons_eq_singleton_iff, first]
    exact ⟨inside, ih behind⟩

end BracketStack

/-- Looking for the next comma passes over what stands between two brackets. -/
theorem IsEnclosed.takes {inner : Text} (enclosed : IsEnclosed inner) (bracket : Bracket)
    {isList : Bool} {state : Nesting} (opened : state.IsOpen isList) :
    state.Takes (bracket.opener :: inner ++ [bracket.closer]) state := by
  have run : BracketStack.start.after? inner = some _ := enclosed.nested
  have deeper : Nesting.Similar ⟨.outside, some bracket.opener, state.depth + 1⟩
      (BracketStack.start.flat (state.depth + 1)) :=
    ⟨rfl, rfl, by cases bracket <;> simp [Bracket.opener, BracketStack.flat, BracketStack.start]⟩
  have closing : Nesting.Similar
      (BracketStack.flat ⟨.outside, inner.getLast?, []⟩ (state.depth + 1))
      ⟨.outside, some bracket.opener, state.depth + 1⟩ :=
    ⟨rfl, rfl, by
      cases bracket <;> simp [Bracket.opener, BracketStack.flat, enclosed.unhyphened]⟩
  have within : Nesting.Takes ⟨.outside, some bracket.opener, state.depth + 1⟩ inner
      ⟨.outside, some bracket.opener, state.depth + 1⟩ := by
    constructor
    · rw [deeper.pieces, BracketStack.pieces_flat run]
    · have passed := deeper.after inner
      rw [BracketStack.after_flat run] at passed
      exact passed.trans closing
  exact ((opened.takes_opener bracket).cons within).trans (opened.takes_closer bracket)

/-! Lists -/

private theorem commaSpaced_cons (entry : Text) (entries : List Text) :
    commaSpaced (entry :: entries) = [','].intercalate (entry :: entries.map (' ' :: ·)) := by
  induction entries generalizing entry with
  | nil => rfl
  | cons next entries ih =>
    have behind := ih next
    rw [commaSpaced] at behind ⊢
    rw [List.intercalate_cons_cons, behind, List.map_cons, List.intercalate_cons_cons]
    cases entries <;> simp

theorem balanced_intercalate {mark : Text} (separator : Balanced true mark) {entries : List Text}
    (balanced : ∀ entry ∈ entries, Balanced false entry) :
    Balanced true (mark.intercalate entries) :=
  intercalate_induction .nil .append separator fun entry member => (balanced entry member).weaken

theorem balanced_commaSpaced {entries : List Text}
    (balanced : ∀ entry ∈ entries, Balanced false entry) :
    Balanced true (commaSpaced entries) :=
  balanced_intercalate (.plain (by decide) (fun _ => rfl) (.of_plain (by decide))) balanced

/-- A space in front of an entry changes nothing for those who look for commas. -/
theorem IsSelfContained.space {entry : Text} (selfContained : IsSelfContained entry) :
    IsSelfContained (' ' :: entry) := by
  have space := Nesting.start_isTop.next_similar (c := ' ') (by decide)
  constructor
  · refine Nesting.pieces_cons_eq_singleton_iff.mpr ⟨by decide, ?_⟩
    rw [space.pieces]
    exact selfContained.unsplit
  · exact (space.after entry).isTop.mpr selfContained.closed

/-- A list of entries that close what they open is cut where it was joined. -/
theorem splitTopLevel_commaSpaced {entries : List Text}
    (selfContained : ∀ entry ∈ entries, IsSelfContained entry)
    (trimmed : ∀ entry ∈ entries, IsTrimmed entry ∧ entry ≠ []) :
    splitTopLevel (commaSpaced entries) = entries := by
  cases entries with
  | nil => rfl
  | cons entry entries =>
    obtain ⟨first, others⟩ := List.forall_mem_cons.mp selfContained
    obtain ⟨firstTrimmed, restTrimmed⟩ := List.forall_mem_cons.mp trimmed
    have spaced : ∀ other ∈ entries.map (' ' :: ·), IsSelfContained other :=
      List.forall_mem_map.mpr fun other member => (others other member).space
    have separable : IsSeparable (entry :: entries.map (' ' :: ·)) :=
      isSeparable_of_isSelfContained (List.forall_mem_cons.mpr ⟨first, spaced⟩)
    have ink {other : Text} (whole : IsTrimmed other ∧ other ≠ []) : isBlankText other = false :=
      whole.1.isBlankText_eq_false whole.2
    have inked : ∀ other ∈ entry :: entries.map (' ' :: ·), isBlankText other = false := by
      refine List.forall_mem_cons.mpr ⟨ink firstTrimmed, List.forall_mem_map.mpr ?_⟩
      intro other member
      rw [isBlankText, List.all_cons, ← isBlankText, ink (restTrimmed other member),
        Bool.and_false]
    have back : (entry :: entries.map (' ' :: ·)).map trim = entry :: entries := by
      have same : entries.map (trim ∘ (' ' :: ·)) = entries.map id :=
        List.map_congr_left fun other member => (restTrimmed other member).1
      rw [List.map_cons, List.map_map, same, List.map_id, firstTrimmed.1]
    rw [commaSpaced_cons, splitTopLevel_intercalate (by simp) separable inked, back]

end DeclBridge.Kotlin
