import DeclBridge.Proofs.BalancedTexts

/-! Brackets and their partners. Whoever keeps a stack of all the brackets that are open knows the
partner of each and the commas outside of all of them. Counting one kind of brackets finds the same
partners, and counting all kinds together the same commas. -/

namespace DeclBridge.Kotlin

open Text

/-! Texts as words of brackets -/

/-- Behind the text no literal is open. -/
def IsOutside (text : Text) : Prop :=
  text.foldl Quoting.next .outside = .outside

instance (text : Text) : Decidable (IsOutside text) :=
  inferInstanceAs (Decidable (_ = _))

/-- A bracket of any kind, unless it is the head of an arrow. -/
def IsBracket (before : Option Char) (c : Char) : Prop :=
  c ∈ ['(', ')', '<', '>', '[', ']', '{', '}'] ∧ ¬(before = some '-' ∧ c = '>')

instance (before : Option Char) (c : Char) : Decidable (IsBracket before c) :=
  inferInstanceAs (Decidable (_ ∧ _))

/-- The brackets outside of literals. -/
def bracketsFrom (quoting : Quoting) (before : Option Char) : Text → Text
  | [] => []
  | c :: rest =>
    let behind := bracketsFrom (quoting.next c) (some c) rest
    if quoting = .outside ∧ IsBracket before c then c :: behind else behind

inductive Paired : Text → Prop where
  | nil : Paired []
  | pair {inner rest} (bracket : Bracket) (within : Paired inner) (behind : Paired rest) :
    Paired (bracket.opener :: (inner ++ bracket.closer :: rest))

/-- Every literal is closed, and what is left without literals and arrows is properly nested. -/
structure IsPaired (text : Text) : Prop where
  closed : IsOutside text
  paired : Paired (bracketsFrom .outside none text)

namespace BracketStack

variable {stack other last : BracketStack} {first second text : Text} {c : Char}
  {bracket : Bracket} {outer brackets : List Bracket} {before between : Option Char}
  {quoting : Quoting}

/-! Runs of the stack -/

/-- A text is read alike behind all characters but a hyphen. -/
theorem after?_before (run : after? ⟨quoting, before, brackets⟩ text = some other)
    (unhyphened : before ≠ some '-') (plain : between ≠ some '-') :
    after? ⟨quoting, between, brackets⟩ text =
      some ⟨other.quoting, lastFrom between text, other.brackets⟩ := by
  cases text with
  | nil =>
    cases run
    rfl
  | cons c text =>
    obtain ⟨next, step, behind⟩ := Option.bind_eq_some_iff.mp run
    have same : next? ⟨quoting, between, brackets⟩ c = some next := by
      rw [← step]
      simp [next?, bracketsAfter?, closesAfter, unhyphened, plain]
    have ending : lastFrom between (c :: text) = other.before := by
      rw [before_after? behind, (next?_eq_some_iff.mp step).before_eq, lastFrom]
    rw [after?, same, Option.bind_some, behind, ending]

/-- The stack with further brackets below. -/
def above (stack : BracketStack) (outer : List Bracket) : BracketStack :=
  { stack with brackets := stack.brackets ++ outer }

theorem Step.above (step : Step stack c other) (outer : List Bracket) :
    Step (stack.above outer) c (other.above outer) := by
  cases step with
  | opens bracket => exact .opens bracket
  | closes bracket closing => exact .closes bracket closing
  | idle same => exact .idle same

theorem after?_above (run : stack.after? text = some other) (outer : List Bracket) :
    (stack.above outer).after? text = some (other.above outer) := by
  induction text generalizing stack with
  | nil =>
    cases run
    rfl
  | cons c text ih =>
    obtain ⟨next, step, behind⟩ := Option.bind_eq_some_iff.mp run
    exact ((next?_eq_some_iff.mp step).above outer).cons (ih behind)

/-- A step takes nothing from below a bracket but that bracket itself. -/
theorem Step.of_above (step : Step (stack.above (bracket :: outer)) c other) :
    (∃ next, Step stack c next ∧ other = next.above (bracket :: outer)) ∨
      c = bracket.closer ∧ closesAfter stack.before c = true ∧
        stack = ⟨.outside, stack.before, []⟩ ∧ other = ⟨.outside, some c, outer⟩ := by
  obtain ⟨quoting, before, brackets⟩ := stack
  generalize whole : BracketStack.above ⟨quoting, before, brackets⟩ (bracket :: outer) = full
    at step
  cases step with
  | opens opened =>
    cases whole
    exact .inl ⟨_, .opens opened, rfl⟩
  | idle same =>
    cases whole
    exact .inl ⟨_, .idle same, rfl⟩
  | closes closed closing =>
    simp only [BracketStack.above, mk.injEq] at whole
    obtain ⟨rfl, rfl, same⟩ := whole
    cases brackets with
    | nil =>
      obtain ⟨rfl, rfl⟩ := List.cons.inj same
      exact .inr ⟨rfl, closing, rfl, rfl⟩
    | cons innermost brackets =>
      obtain ⟨rfl, rfl⟩ := List.cons.inj same
      exact .inl ⟨_, .closes _ closing, rfl⟩

/-- A step puts nothing below a bracket but opens that bracket itself. -/
theorem Step.to_above (step : Step stack c (other.above (bracket :: outer))) :
    (∃ next, Step next c other ∧ stack = next.above (bracket :: outer)) ∨
      c = bracket.opener ∧ stack = ⟨.outside, stack.before, outer⟩ ∧
        other = ⟨.outside, some c, []⟩ := by
  obtain ⟨quoting, before, brackets⟩ := other
  generalize whole : BracketStack.above ⟨quoting, before, brackets⟩ (bracket :: outer) = full
    at step
  cases step with
  | closes closed closing =>
    cases whole
    exact .inl ⟨_, .closes closed closing, rfl⟩
  | idle same =>
    cases whole
    exact .inl ⟨_, .idle same, rfl⟩
  | opens opened =>
    simp only [BracketStack.above, mk.injEq] at whole
    obtain ⟨rfl, rfl, same⟩ := whole
    cases brackets with
    | nil =>
      obtain ⟨rfl, rfl⟩ := List.cons.inj same
      exact .inr ⟨rfl, rfl, rfl⟩
    | cons innermost brackets =>
      obtain ⟨rfl, rfl⟩ := List.cons.inj same
      exact .inl ⟨_, .opens _, rfl⟩

/-- A bracket that does not stay open is closed in the text. -/
theorem exists_closer (stack : BracketStack)
    (run : (stack.above (bracket :: outer)).after? text = some last)
    (closed : last.brackets.length ≤ outer.length) :
    ∃ inner back before, text = inner ++ bracket.closer :: back ∧
      stack.after? inner = some ⟨.outside, before, []⟩ ∧
      closesAfter before bracket.closer = true ∧
      after? ⟨.outside, some bracket.closer, outer⟩ back = some last := by
  induction text generalizing stack with
  | nil =>
    cases run
    simp only [above, List.length_append, List.length_cons] at closed
    omega
  | cons c text ih =>
    obtain ⟨next, step, behind⟩ := Option.bind_eq_some_iff.mp run
    rcases (next?_eq_some_iff.mp step).of_above with
      ⟨inside, shallow, rfl⟩ | ⟨rfl, closing, same, rfl⟩
    · obtain ⟨inner, back, before, rfl, within, closing, after⟩ := ih inside behind
      exact ⟨c :: inner, back, before, rfl, shallow.cons within, closing, after⟩
    · exact ⟨[], text, stack.before, rfl, congrArg some same, closing, behind⟩

/-- A bracket that was not open before is opened in the text. -/
theorem exists_opener (other : BracketStack)
    (run : stack.after? text = some (other.above (bracket :: outer)))
    (new : stack.brackets.length ≤ outer.length) :
    ∃ front inner before, text = front ++ bracket.opener :: inner ∧
      stack.after? front = some ⟨.outside, before, outer⟩ ∧
      after? ⟨.outside, some bracket.opener, []⟩ inner = some other := by
  induction text using List.reverseRecOn generalizing other with
  | nil =>
    cases run
    simp only [above, List.length_append, List.length_cons] at new
    omega
  | append_singleton text c ih =>
    rw [after?_append_eq_bind] at run
    obtain ⟨mid, early, late⟩ := Option.bind_eq_some_iff.mp run
    obtain ⟨_, step, same⟩ := Option.bind_eq_some_iff.mp late
    cases same
    rcases (next?_eq_some_iff.mp step).to_above with ⟨inside, shallow, rfl⟩ | ⟨rfl, same, rfl⟩
    · obtain ⟨front, inner, before, rfl, front, within⟩ := ih inside early
      refine ⟨_, inner ++ [c], before, by simp, front, ?_⟩
      exact after?_append within (shallow.cons rfl)
    · exact ⟨text, [], mid.before, rfl, early.trans (congrArg some same), rfl⟩

end BracketStack

/-! The stack and the word of brackets -/

theorem bracketsFrom_cons {quoting : Quoting} {before : Option Char} {c : Char} {rest : Text} :
    bracketsFrom quoting before (c :: rest) =
      if quoting = .outside ∧ IsBracket before c then
        c :: bracketsFrom (quoting.next c) (some c) rest
      else bracketsFrom (quoting.next c) (some c) rest := rfl

/-- Brackets are what opens and what closes. -/
theorem isBracket_iff {before : Option Char} {c : Char} :
    IsBracket before c ↔ isOpener c ∨ closesAfter before c := by
  constructor
  · rintro ⟨member, headless⟩
    simp only [List.mem_cons, List.not_mem_nil, or_false] at member
    rcases member with rfl | rfl | rfl | rfl | rfl | rfl | rfl | rfl <;>
      simp_all [isOpener, Bracket.ofOpener?, closesAfter]
  · rintro (opens | closes)
    · obtain ⟨bracket, opens⟩ := Option.isSome_iff_exists.mp opens
      obtain rfl := Bracket.opener_of_ofOpener? opens
      cases bracket <;> simp [IsBracket, Bracket.opener]
    · simp only [closesAfter, Bool.and_eq_true, Bool.or_eq_true, decide_eq_true_eq] at closes
      obtain ⟨((rfl | rfl) | rfl) | rfl, headless⟩ := closes <;> simp_all [IsBracket]

namespace IsBracket

variable {before between : Option Char} {c : Char}

theorem behind (bracket : IsBracket before c) (unhyphened : between ≠ some '-') :
    IsBracket between c :=
  ⟨bracket.1, fun head => unhyphened head.1⟩

theorem ne (bracket : IsBracket before c) : c ≠ '"' ∧ c ≠ '-' := by
  constructor <;>
  · rintro rfl
    exact absurd bracket.1 (by decide)

end IsBracket

theorem isBracket_of_mem {quoting : Quoting} {before : Option Char} {text : Text} {c : Char}
    (member : c ∈ bracketsFrom quoting before text) : IsBracket none c := by
  induction text generalizing quoting before with
  | nil => cases member
  | cons d text ih =>
    rw [bracketsFrom_cons] at member
    split at member
    · next found =>
      rcases List.mem_cons.mp member with rfl | behind
      · exact found.2.behind (Option.some_ne_none '-').symm
      · exact ih behind
    · exact ih member

namespace BracketStack

variable {stack other last : BracketStack} {first second text : Text} {c : Char}
  {bracket : Bracket} {outer brackets : List Bracket} {before between : Option Char}
  {quoting : Quoting}

/-- The stack does the same on the brackets alone. -/
theorem brackets_bracketsFrom (unhyphened : between ≠ some '-') :
    (after? ⟨quoting, before, brackets⟩ text).map (·.brackets) =
      (after? ⟨.outside, between, brackets⟩ (bracketsFrom quoting before text)).map
        (·.brackets) := by
  induction text generalizing quoting before between brackets with
  | nil => rfl
  | cons c text ih =>
    rw [bracketsFrom_cons]
    split
    · next found =>
      obtain ⟨rfl, bracket⟩ := found
      obtain ⟨unquoted, plain⟩ := bracket.ne
      have same : bracketsAfter? ⟨.outside, between, brackets⟩ c =
          bracketsAfter? ⟨.outside, before, brackets⟩ c := by
        cases opens : Bracket.ofOpener? c with
        | some opened => simp [bracketsAfter?, opens]
        | none =>
          have closes {before : Option Char} (bracket : IsBracket before c) :
              closesAfter before c = true := by
            simpa [isOpener, opens] using isBracket_iff.mp bracket
          simp [bracketsAfter?, opens, closes bracket, closes (bracket.behind unhyphened)]
      rw [after?, after?, next?, next?, same]
      cases bracketsAfter? ⟨.outside, before, brackets⟩ c with
      | none => rfl
      | some behind => simpa [Quoting.next, unquoted] using ih (by simpa using plain)
    · next idle =>
      have step : Step ⟨quoting, before, brackets⟩ c ⟨quoting.next c, some c, brackets⟩ := by
        refine .idle fun outside => ?_
        rw [isBracket_iff] at idle
        simpa [outside, isOpener] using idle
      rw [after?, next?_eq_some_iff.mpr step, Option.bind_some, ih unhyphened]

end BracketStack

open BracketStack

theorem Paired.exists_after? {word : Text} (paired : Paired word) (brackets : List Bracket)
    {before : Option Char} (unhyphened : before ≠ some '-') :
    ∃ last, last ≠ some '-' ∧
      after? ⟨.outside, before, brackets⟩ word = some ⟨.outside, last, brackets⟩ := by
  induction paired generalizing before brackets with
  | nil => exact ⟨before, unhyphened, rfl⟩
  | pair bracket _ _ ihw ihb =>
    obtain ⟨between, plain, within⟩ := ihw (bracket :: brackets) bracket.opener_ne_hyphen
    obtain ⟨last, still, behind⟩ := ihb brackets bracket.closer_ne_hyphen
    have closing := bracket.closesAfter_closer plain
    exact ⟨last, still, (Step.opens bracket).cons
      (after?_append within ((Step.closes bracket closing).cons behind))⟩

theorem paired_of_after? {word : Text} (brackets : ∀ c ∈ word, IsBracket none c)
    {before : Option Char} (unhyphened : before ≠ some '-') {last : BracketStack}
    (run : after? ⟨.outside, before, []⟩ word = some last) (closed : last.brackets = []) :
    Paired word := by
  cases word with
  | nil => exact .nil
  | cons c rest =>
    obtain ⟨first, others⟩ := List.forall_mem_cons.mp brackets
    obtain ⟨next, step, behind⟩ := Option.bind_eq_some_iff.mp run
    cases next?_eq_some_iff.mp step with
    | opens bracket =>
      obtain ⟨inner, back, between, rfl, within, -, after⟩ :=
        exists_closer ⟨.outside, some bracket.opener, []⟩ behind (by simp [closed])
      have member (part : Text) (inside : part ⊆ inner ++ bracket.closer :: back) :
          ∀ c ∈ part, IsBracket none c :=
        fun c member => others c (inside member)
      exact .pair bracket
        (paired_of_after? (member inner (by simp)) bracket.opener_ne_hyphen within rfl)
        (paired_of_after? (member back (by simp)) bracket.closer_ne_hyphen after closed)
    | idle same =>
      obtain ⟨opens, closing⟩ := same rfl
      have bracket := isBracket_iff.mp (first.behind unhyphened)
      simp [isOpener, opens, closing] at bracket
termination_by word.length

/-- The stack ends up empty where what is left without literals and arrows is properly nested. -/
theorem isNested_iff_isPaired {text : Text} : IsNested text ↔ IsPaired text := by
  have words : (BracketStack.start.after? text).map (·.brackets) =
      (BracketStack.start.after? (bracketsFrom .outside none text)).map (·.brackets) :=
    brackets_bracketsFrom (by simp)
  constructor
  · intro nested
    refine ⟨(quoting_after? nested).symm, ?_⟩
    have run : BracketStack.start.after? text = some _ := nested
    rw [run] at words
    obtain ⟨last, ending, closed⟩ := Option.map_eq_some_iff.mp words.symm
    exact paired_of_after? (fun c => isBracket_of_mem) (by simp) ending closed
  · intro paired
    obtain ⟨last, -, ending⟩ := paired.paired.exists_after? [] (Option.some_ne_none '-').symm
    rw [BracketStack.start, ending] at words
    obtain ⟨⟨quoting, before, brackets⟩, run, rfl⟩ := Option.map_eq_some_iff.mp words
    have outside : quoting = .outside := (quoting_after? run).trans paired.closed
    have character : before = text.getLast? := (before_after? run).trans (lastFrom_none text)
    rw [IsNested, BracketStack.start, run, outside, character]

theorem IsPaired.run {text : Text} (paired : IsPaired text) :
    BracketStack.start.after? text = some ⟨.outside, text.getLast?, []⟩ :=
  isNested_iff_isPaired.mpr paired

instance (text : Text) : Decidable (IsPaired text) :=
  decidable_of_iff _ isNested_iff_isPaired

/-! Partners -/

/-- What stands between a bracket and its partner. A hyphen at its end would make an arrow of a
closing angle bracket. -/
structure IsBetween (bracket : Bracket) (inner : Text) : Prop where
  paired : IsPaired inner
  headless : bracket = .angle → inner.getLast? ≠ some '-'

/-- The bracket that opens at the first offset has its partner at the last. -/
def IsPair (text : Text) (first last : Nat) : Prop :=
  ∃ (front inner back : Text) (bracket : Bracket),
    text = front ++ bracket.opener :: (inner ++ bracket.closer :: back) ∧
    front.length = first ∧ first + 1 + inner.length = last ∧
    IsOutside front ∧ IsBetween bracket inner

/-- Counting one kind of brackets finds the partner. -/
theorem IsPair.closingOffset_eq {text : Text} {first last : Nat} (pair : IsPair text first last) :
    closingOffset text first = .ok (some last) := by
  obtain ⟨front, inner, back, bracket, rfl, rfl, rfl, -, between⟩ := pair
  have closing := Bracket.closesAfter_closer_iff.mpr between.headless
  have inside := (isNested_iff_isPaired.mpr between.paired).inside closing back
  simp [closingOffset, bracketed, bracket.ofOpener?_opener, inside, Except.map]

theorem IsPair.exists_closer {text : Text} {first last : Nat} (pair : IsPair text first last) :
    ∃ bracket : Bracket, text[last]? = some bracket.closer := by
  obtain ⟨front, inner, back, bracket, rfl, rfl, rfl, -⟩ := pair
  exact ⟨bracket, by simp [Nat.add_assoc, Nat.add_comm 1]⟩

/-- Text between partners is where the stack comes back to what it was. -/
theorem isBetween_iff {bracket : Bracket} {inner : Text} :
    IsBetween bracket inner ↔
      ∃ before, after? ⟨.outside, some bracket.opener, []⟩ inner = some ⟨.outside, before, []⟩ ∧
        closesAfter before bracket.closer = true := by
  have opener := bracket.opener_ne_hyphen
  have whole := lastFrom_none inner
  have closing : closesAfter (lastFrom (some bracket.opener) inner) bracket.closer = true ↔
      (bracket = .angle → inner.getLast? ≠ some '-') := by
    rw [Bracket.closesAfter_closer_iff, ← whole]
    cases inner with
    | nil => simp [lastFrom, opener]
    | cons c inner => rw [lastFrom, lastFrom]
  constructor
  · rintro ⟨paired, headless⟩
    exact ⟨_, after?_before (isNested_iff_isPaired.mpr paired) (by simp) opener,
      closing.mpr headless⟩
  · rintro ⟨before, run, closes⟩
    obtain rfl : before = lastFrom (some bracket.opener) inner := before_after? run
    refine ⟨isNested_iff_isPaired.mp ?_, closing.mp closes⟩
    rw [IsNested, BracketStack.start, after?_before run opener (by simp), whole]

section

variable {text front rest : Text} {stack : BracketStack}

/-- In a text where brackets pair up, each has its partner. -/
theorem IsPaired.exists_isPair (paired : IsPaired text) {bracket : Bracket}
    (whole : text = front ++ bracket.opener :: rest) (unquoted : IsOutside front) :
    ∃ last, IsPair text front.length last := by
  have nested := paired.run
  rw [whole, after?_append_eq_bind] at nested
  obtain ⟨⟨quoting, before, outer⟩, early, late⟩ := Option.bind_eq_some_iff.mp nested
  obtain rfl : quoting = .outside := (quoting_after? early).trans unquoted
  obtain ⟨next, step, behind⟩ := Option.bind_eq_some_iff.mp late
  cases step.symm.trans (next?_eq_some_iff.mpr (.opens bracket))
  obtain ⟨inner, back, between, rfl, within, closing, -⟩ :=
    exists_closer ⟨.outside, some bracket.opener, []⟩ behind (by simp)
  exact ⟨front.length + 1 + inner.length, front, inner, back, bracket, whole, rfl, rfl, unquoted,
    isBetween_iff.mpr ⟨between, within, closing⟩⟩

/-- Where brackets are open, the text stands between one and its partner. -/
theorem IsPaired.exists_around (paired : IsPaired (front ++ rest))
    (run : BracketStack.start.after? front = some stack) (deep : stack.brackets ≠ []) :
    ∃ first last, IsPair (front ++ rest) first last ∧ first < front.length ∧
      front.length ≤ last := by
  obtain ⟨quoting, before, brackets⟩ := stack
  obtain ⟨bracket, outer, rfl⟩ := List.exists_cons_of_ne_nil deep
  have nested := paired.run
  rw [after?_append_eq_bind, run, Option.bind_some] at nested
  obtain ⟨inner, back, between, rfl, closed, closing, -⟩ :=
    exists_closer ⟨quoting, before, []⟩ nested (by simp)
  obtain ⟨outside, opened, character, rfl, early, begun⟩ :=
    exists_opener ⟨quoting, before, []⟩ run (by simp [BracketStack.start])
  have whole := isBetween_iff.mpr ⟨between, after?_append begun closed, closing⟩
  refine ⟨outside.length, outside.length + 1 + (opened ++ inner).length,
    ⟨outside, opened ++ inner, back, bracket, by simp, rfl, rfl, (quoting_after? early).symm,
      whole⟩, ?_, ?_⟩ <;>
  · simp only [List.length_append, List.length_cons]
    omega

/-- Between a bracket and its partner some bracket is open. -/
theorem IsPair.brackets_ne_nil {first last : Nat} (pair : IsPair (front ++ rest) first last)
    (behind : first < front.length) (ahead : front.length ≤ last)
    (run : BracketStack.start.after? front = some stack) : stack.brackets ≠ [] := by
  obtain ⟨outside, inner, back, bracket, whole, rfl, rfl, unquoted, between⟩ := pair
  obtain ⟨size, length⟩ : ∃ size, front.length = outside.length + 1 + size :=
    Nat.exists_eq_add_of_lt behind |>.imp fun size same => by omega
  have same : front = outside ++ bracket.opener :: inner.take size := by
    have part := congrArg (List.take front.length) whole
    rw [List.take_left, length, Nat.add_assoc, List.take_length_add_append, Nat.add_comm 1,
      List.take_succ_cons, List.take_append_of_le_length (by omega)] at part
    exact part
  obtain ⟨before, within, -⟩ := isBetween_iff.mp between
  rw [← List.take_append_drop size inner, after?_append_eq_bind] at within
  obtain ⟨mid, opened, -⟩ := Option.bind_eq_some_iff.mp within
  rw [same, after?_append_eq_bind] at run
  obtain ⟨⟨quoting, character, outer⟩, early, late⟩ := Option.bind_eq_some_iff.mp run
  obtain rfl : quoting = .outside := (quoting_after? early).trans unquoted
  rw [(Step.opens bracket).cons (after?_above opened (bracket :: outer))] at late
  cases late
  simp [BracketStack.above]

end

/-! Commas -/

/-- The pieces of a text when it is cut at these offsets, whose characters are left out. -/
def cutAt (separates : Nat → Prop) [DecidablePred separates] (offset : Nat) : Text → List Text
  | [] => [[]]
  | c :: rest =>
    if separates offset then [] :: cutAt separates (offset + 1) rest
    else (cutAt separates (offset + 1) rest).modifyHead (c :: ·)

/-- A comma outside of literals and outside of every pair of brackets. -/
structure IsSeparator (text : Text) (offset : Nat) : Prop where
  comma : text[offset]? = some ','
  unquoted : IsOutside (text.take offset)
  outer : ∀ first last, IsPair text first last → ¬(first < offset ∧ offset < last)

/-- Counting all kinds of brackets together tells a comma outside of all pairs. -/
theorem IsPaired.isSeparator_iff {front rest : Text} {c : Char}
    (paired : IsPaired (front ++ c :: rest)) :
    IsSeparator (front ++ c :: rest) front.length ↔
      c = ',' ∧ (Nesting.start.after front).IsTop := by
  have nested := paired.run
  rw [after?_append_eq_bind] at nested
  obtain ⟨stack, run, -⟩ := Option.bind_eq_some_iff.mp nested
  have counted : (Nesting.start.after front) = stack.flat 0 := after_flat run 0
  have top : (stack.flat 0).IsTop ↔ stack.quoting = .outside ∧ stack.brackets = [] := by
    simp [Nesting.IsTop, flat]
  have unquoted : IsOutside front ↔ stack.quoting = .outside := by
    rw [IsOutside, quoting_after? run]
    rfl
  rw [counted, top, ← unquoted]
  constructor
  · intro separator
    have comma : c = ',' := by simpa using separator.comma
    refine ⟨comma, by simpa using separator.unquoted, ?_⟩
    by_contra deep
    obtain ⟨first, last, pair, behind, ahead⟩ := paired.exists_around run deep
    refine separator.outer first last pair ⟨behind, lt_of_le_of_ne ahead ?_⟩
    rintro rfl
    obtain ⟨bracket, closer⟩ := pair.exists_closer
    rw [separator.comma] at closer
    cases bracket <;> cases closer
  · rintro ⟨rfl, unquoted, flat⟩
    refine ⟨by simp, by simpa using unquoted, fun first last pair within => ?_⟩
    exact pair.brackets_ne_nil within.1 within.2.le run flat

/-- Cutting at commas that are found by counting. -/
theorem IsPaired.pieces_eq_cutAt {text : Text} (paired : IsPaired text)
    [DecidablePred (IsSeparator text)] {front rest : Text} (whole : text = front ++ rest) :
    (Nesting.start.after front).pieces rest = cutAt (IsSeparator text) front.length rest := by
  induction rest generalizing front with
  | nil => rfl
  | cons c rest ih =>
    have behind : (Nesting.start.after (front ++ [c])).pieces rest =
        cutAt (IsSeparator text) (front ++ [c]).length rest := ih (by simp [whole])
    rw [Nesting.after_append, List.length_append] at behind
    have separator : IsSeparator text front.length ↔
        c = ',' ∧ (Nesting.start.after front).IsTop := by
      rw [whole] at paired ⊢
      exact paired.isSeparator_iff
    rw [cutAt]
    split
    · next separates =>
      obtain ⟨rfl, top⟩ := separator.mp separates
      rw [Nesting.pieces_comma top]
      exact congrArg _ behind
    · next inside =>
      rw [Nesting.pieces_cons (mt separator.mpr inside)]
      exact congrArg _ behind

open Classical in
/-- Counting agrees with the stack. The search for a partner finds the partner, and a list is cut at
the commas outside of all pairs. -/
theorem IsPaired.counts_agree {text : Text} (paired : IsPaired text) :
    (∀ (opener : Nat) (bracket : Bracket), text[opener]? = some bracket.opener →
      IsOutside (text.take opener) →
      ∃ closer, (∀ other, IsPair text opener other ↔ other = closer) ∧
        closingOffset text opener = .ok (some closer)) ∧
    splitTopLevel text = ((cutAt (IsSeparator text) 0 text).map trim).filter (!·.isEmpty) := by
  constructor
  · intro opener bracket opens unquoted
    obtain ⟨inside, character⟩ := List.getElem?_eq_some_iff.mp opens
    have whole : text = text.take opener ++ bracket.opener :: text.drop (opener + 1) := by
      rw [← character, List.getElem_cons_drop, List.take_append_drop]
    have length : (text.take opener).length = opener := List.length_take_of_le inside.le
    obtain ⟨closer, pair⟩ := paired.exists_isPair whole unquoted
    rw [length] at pair
    refine ⟨closer, fun other => ⟨fun another => ?_, fun same => same ▸ pair⟩,
      pair.closingOffset_eq⟩
    have twice := another.closingOffset_eq.symm.trans pair.closingOffset_eq
    cases twice
    rfl
  · have pieces : Nesting.start.pieces text = cutAt (IsSeparator text) 0 text :=
      paired.pieces_eq_cutAt (List.nil_append text).symm
    rw [← pieces]
    rfl

open Classical in
theorem IsPaired.counts_agree_arrow :
    let text := "Map<Key, (a: \"x)\") -> List<Int>>, [b, c]".toList
    IsPaired text ∧
      (∃ closer, (∀ other, IsPair text 3 other ↔ other = closer) ∧
        closingOffset text 3 = .ok (some closer)) ∧
      ((cutAt (IsSeparator text) 0 text).map trim).filter (!·.isEmpty) =
        ["Map<Key, (a: \"x)\") -> List<Int>>", "[b, c]"].map String.toList := by
  intro text
  have nested : IsNested text := by decide +kernel
  have paired := isNested_iff_isPaired.mp nested
  obtain ⟨partners, pieces⟩ := IsPaired.counts_agree paired
  exact ⟨paired, partners 3 .angle rfl (by decide), pieces.symm.trans (by decide +kernel)⟩

end DeclBridge.Kotlin
