import DeclBridge.Proofs.ListSplitting

/-! Texts whose brackets pair up, told by the stack of those that are open. Whoever looks for the
partner of one bracket only counts those of its kind, and passes over such a text all the same: its
count is how often the kind is on the stack. -/

namespace DeclBridge.Kotlin

open Text

/-- The last character of a text that stands behind another character. -/
def lastFrom (before : Option Char) : Text → Option Char
  | [] => before
  | c :: rest => lastFrom (some c) rest

theorem lastFrom_append (before : Option Char) (first second : Text) :
    lastFrom before (first ++ second) = lastFrom (lastFrom before first) second := by
  induction first generalizing before with
  | nil => rfl
  | cons c first ih => exact ih (some c)

theorem lastFrom_getLast? (text more : Text) :
    lastFrom text.getLast? more = (text ++ more).getLast? := by
  induction more using List.reverseRecOn with
  | nil => rw [List.append_nil, lastFrom]
  | append_singleton more c ih =>
    rw [lastFrom_append, ← List.append_assoc, List.getLast?_concat]
    rfl

theorem lastFrom_none (text : Text) : lastFrom none text = text.getLast? :=
  lastFrom_getLast? [] text

/-! Looking for a partner -/

namespace Bracket

/-- Between two states the search for a partner takes the text over. -/
def Passes (bracket : Bracket) (state : Nesting) (text : Text) (next : Nesting) : Prop :=
  ∀ rest, bracket.splitAtPartner state.quoting state.before state.depth (text ++ rest) =
    (bracket.splitAtPartner next.quoting next.before next.depth rest).map
      fun (inner, after) => (text ++ inner, after)

variable {bracket : Bracket} {state next last : Nesting} {c : Char} {text other : Text}
  {before : Option Char} {depth : Nat}

theorem Passes.refl : bracket.Passes state [] state := by
  intro rest
  simp

theorem Passes.trans (first : bracket.Passes state text next)
    (second : bracket.Passes next other last) : bracket.Passes state (text ++ other) last := by
  intro rest
  rw [List.append_assoc, first, second, Option.map_map]
  simp [Function.comp_def]

theorem Passes.cons (first : bracket.Passes state [c] next)
    (second : bracket.Passes next text last) : bracket.Passes state (c :: text) last :=
  first.trans second

/-- A character inside of a literal, or one that neither opens nor closes the bracket. -/
theorem passes_single (same : state.quoting = .outside →
      c ≠ bracket.opener ∧ (c = bracket.closer → ¬closesAfter state.before c)) :
    bracket.Passes state [c] ⟨state.quoting.next c, some c, state.depth⟩ := by
  have closes : ¬(state.quoting = .outside ∧ c = bracket.closer ∧
      closesAfter state.before c = true) :=
    fun ⟨outside, closer, closing⟩ => (same outside).2 closer closing
  have opens : ¬(state.quoting = .outside ∧ c = bracket.opener) :=
    fun ⟨outside, opener⟩ => (same outside).1 opener
  intro rest
  rw [List.singleton_append, splitAtPartner]
  simp only [closes, opens, false_and, if_false, List.singleton_append]

/-- A quote, a hyphen, or a bracket of another kind. -/
theorem passes_mark (opener : c ≠ bracket.opener) (closer : c ≠ bracket.closer) :
    bracket.Passes ⟨.outside, before, depth⟩ [c] ⟨Quoting.outside.next c, some c, depth⟩ :=
  passes_single fun _ => ⟨opener, fun same => absurd same closer⟩

theorem passes_opener :
    bracket.Passes ⟨.outside, before, depth⟩ [bracket.opener]
      ⟨.outside, some bracket.opener, depth + 1⟩ := by
  intro rest
  cases bracket <;> simp [splitAtPartner, opener, closer, Quoting.next]

theorem passes_closer (closes : closesAfter before bracket.closer = true) :
    bracket.Passes ⟨.outside, before, depth + 1⟩ [bracket.closer]
      ⟨.outside, some bracket.closer, depth⟩ := by
  intro rest
  cases bracket <;> simp [splitAtPartner, closer, Quoting.next] at closes ⊢ <;> simp [closes]

theorem next_opener (bracket : Bracket) : Quoting.outside.next bracket.opener = .outside := by
  cases bracket <;> rfl

theorem next_closer (bracket : Bracket) : Quoting.outside.next bracket.closer = .outside := by
  cases bracket <;> rfl

theorem opener_inj {other : Bracket} (same : bracket.opener = other.opener) : bracket = other := by
  cases bracket <;> cases other <;> first | rfl | exact absurd same (by decide)

theorem opener_ne_closer (bracket other : Bracket) : bracket.opener ≠ other.closer := by
  cases bracket <;> cases other <;> decide

theorem closer_inj {other : Bracket} (same : bracket.closer = other.closer) : bracket = other := by
  cases bracket <;> cases other <;> first | rfl | exact absurd same (by decide)

theorem opener_ne_hyphen (bracket : Bracket) : some bracket.opener ≠ some '-' := by
  cases bracket <;> decide

theorem closer_ne_hyphen (bracket : Bracket) : some bracket.closer ≠ some '-' := by
  cases bracket <;> decide

/-- Behind a hyphen a closing angle bracket is the head of an arrow. -/
theorem closesAfter_closer_iff {bracket : Bracket} :
    closesAfter before bracket.closer = true ↔ (bracket = .angle → before ≠ some '-') := by
  cases bracket <;> simp [closesAfter, closer]

theorem closesAfter_closer (bracket : Bracket) (unhyphened : before ≠ some '-') :
    closesAfter before bracket.closer = true :=
  closesAfter_closer_iff.mpr fun _ => unhyphened

theorem opener_of_ofOpener? (opens : ofOpener? c = some bracket) : c = bracket.opener := by
  unfold ofOpener? at opens
  split at opens <;> cases opens <;> rfl

theorem ofOpener?_opener (bracket : Bracket) : ofOpener? bracket.opener = some bracket := by
  cases bracket <;> rfl

theorem ofOpener?_closer (bracket : Bracket) : ofOpener? bracket.closer = none := by
  cases bracket <;> rfl

end Bracket

/-! The stack of open brackets -/

/-- Where a text stands with respect to literals, the character passed last, and the brackets that
are open, the innermost first. -/
structure BracketStack where
  quoting : Quoting
  before : Option Char
  brackets : List Bracket
deriving DecidableEq

namespace BracketStack

def start : BracketStack := ⟨.outside, none, []⟩

/-- A bracket closes the innermost one that is open. Any other has no partner. -/
def bracketsAfter? (stack : BracketStack) (c : Char) : Option (List Bracket) :=
  if stack.quoting = .outside then
    match Bracket.ofOpener? c with
    | some bracket => some (bracket :: stack.brackets)
    | none =>
      if closesAfter stack.before c then
        match stack.brackets with
        | bracket :: outer => if c = bracket.closer then some outer else none
        | [] => none
      else some stack.brackets
  else some stack.brackets

def next? (stack : BracketStack) (c : Char) : Option BracketStack :=
  (stack.bracketsAfter? c).map fun brackets => ⟨stack.quoting.next c, some c, brackets⟩

def after? (stack : BracketStack) : Text → Option BracketStack
  | [] => some stack
  | c :: rest => (stack.next? c).bind (·.after? rest)

variable {stack other last : BracketStack} {first second text : Text} {c : Char}

theorem after?_append_eq_bind (stack : BracketStack) (first second : Text) :
    stack.after? (first ++ second) = (stack.after? first).bind (·.after? second) := by
  induction first generalizing stack with
  | nil => rfl
  | cons c first ih =>
    rw [List.cons_append, after?, after?, Option.bind_assoc]
    exact congrArg _ (funext fun next => ih next)

theorem after?_append (run : stack.after? first = some other)
    (more : other.after? second = some last) : stack.after? (first ++ second) = some last := by
  rw [after?_append_eq_bind, run, Option.bind_some, more]

/-- What one character can do to the stack. -/
inductive Step : BracketStack → Char → BracketStack → Prop where
  | opens {before brackets} (bracket : Bracket) :
    Step ⟨.outside, before, brackets⟩ bracket.opener
      ⟨.outside, some bracket.opener, bracket :: brackets⟩
  | closes {before brackets} (bracket : Bracket)
    (closing : closesAfter before bracket.closer = true) :
    Step ⟨.outside, before, bracket :: brackets⟩ bracket.closer
      ⟨.outside, some bracket.closer, brackets⟩
  | idle {quoting before brackets c}
    (same : quoting = .outside → Bracket.ofOpener? c = none ∧ ¬closesAfter before c) :
    Step ⟨quoting, before, brackets⟩ c ⟨quoting.next c, some c, brackets⟩

theorem next?_eq_some_iff : stack.next? c = some other ↔ Step stack c other := by
  constructor
  · intro step
    obtain ⟨quoting, before, brackets⟩ := stack
    obtain ⟨behind, found, rfl⟩ := Option.map_eq_some_iff.mp step
    unfold bracketsAfter? at found
    dsimp only at found ⊢
    split at found
    · next outside =>
      subst outside
      split at found
      · next bracket opens =>
        cases found
        obtain rfl := Bracket.opener_of_ofOpener? opens
        simpa [bracket.next_opener] using Step.opens bracket
      · next opens =>
        split at found
        · next closing =>
          split at found
          · next bracket outer =>
            split at found
            · next closer =>
              cases found
              subst closer
              simpa [bracket.next_closer] using Step.closes bracket closing
            · cases found
          · cases found
        · next closing =>
          cases found
          exact .idle fun _ => ⟨opens, closing⟩
    · next within =>
      cases found
      exact .idle fun outside => absurd outside within
  · rintro (bracket | ⟨bracket, closing⟩ | same)
    · simp [next?, bracketsAfter?, bracket.ofOpener?_opener, bracket.next_opener]
    · simp [next?, bracketsAfter?, bracket.ofOpener?_closer, bracket.next_closer, closing]
    · next quoting before brackets =>
      by_cases outside : quoting = .outside
      · simp [next?, bracketsAfter?, outside, same outside]
      · simp [next?, bracketsAfter?, outside]

theorem Step.cons (step : Step stack c other) (more : other.after? text = some last) :
    stack.after? (c :: text) = some last :=
  Option.bind_eq_some_iff.mpr ⟨other, next?_eq_some_iff.mpr step, more⟩

theorem Step.unmarked {before : Option Char} {brackets : List Bracket} (plain : c ∉ Nesting.marks) :
    Step ⟨.outside, before, brackets⟩ c ⟨.outside, some c, brackets⟩ := by
  have idle : Step ⟨.outside, before, brackets⟩ c ⟨Quoting.outside.next c, some c, brackets⟩ := by
    refine .idle fun _ => ⟨?_, ?_⟩
    · cases opens : Bracket.ofOpener? c with
      | none => rfl
      | some bracket =>
        obtain rfl := Bracket.opener_of_ofOpener? opens
        exact absurd (by cases bracket <;> decide) plain
    · simp_all [closesAfter, Nesting.marks]
  have unquoted : c ≠ '"' := fun same => plain (by simp [Nesting.marks, same])
  rwa [Quoting.next, if_neg unquoted] at idle

theorem Step.quoting_eq (step : Step stack c other) : other.quoting = stack.quoting.next c := by
  cases step with
  | opens bracket => exact bracket.next_opener.symm
  | closes bracket => exact bracket.next_closer.symm
  | idle => rfl

theorem Step.before_eq (step : Step stack c other) : other.before = some c := by
  cases step <;> rfl

theorem quoting_after? (run : stack.after? text = some other) :
    other.quoting = text.foldl Quoting.next stack.quoting := by
  induction text generalizing stack with
  | nil =>
    cases run
    rfl
  | cons c text ih =>
    obtain ⟨next, step, behind⟩ := Option.bind_eq_some_iff.mp run
    rw [ih behind, (next?_eq_some_iff.mp step).quoting_eq, List.foldl_cons]

theorem before_after? (run : stack.after? text = some other) :
    other.before = lastFrom stack.before text := by
  induction text generalizing stack with
  | nil =>
    cases run
    rfl
  | cons c text ih =>
    obtain ⟨next, step, behind⟩ := Option.bind_eq_some_iff.mp run
    rw [ih behind, (next?_eq_some_iff.mp step).before_eq, lastFrom]

/-! The search for one kind of bracket -/

/-- What a search for a bracket knows of the stack. -/
def toNesting (stack : BracketStack) (bracket : Bracket) (depth : Nat) : Nesting :=
  ⟨stack.quoting, stack.before, depth + stack.brackets.count bracket⟩

theorem Step.passes (step : Step stack c other) (bracket : Bracket) (depth : Nat) :
    bracket.Passes (stack.toNesting bracket depth) [c] (other.toNesting bracket depth) := by
  -- A bracket of another kind leaves the count as it was, like any character that is none.
  have aside {before : Option Char} {depth : Nat} {c : Char}
      (unquoted : Quoting.outside.next c = .outside) (opener : c ≠ bracket.opener)
      (closer : c ≠ bracket.closer) :
      bracket.Passes ⟨.outside, before, depth⟩ [c] ⟨.outside, some c, depth⟩ := by
    have mark : bracket.Passes ⟨.outside, before, depth⟩ [c] ⟨_, some c, depth⟩ :=
      Bracket.passes_mark opener closer
    rwa [unquoted] at mark
  cases step with
  | opens opened =>
    by_cases same : opened = bracket
    · subst same
      simpa [toNesting, ← Nat.add_assoc] using Bracket.passes_opener
    · simpa [toNesting, same] using aside opened.next_opener (mt Bracket.opener_inj same)
        (opened.opener_ne_closer bracket)
  | closes closed closing =>
    by_cases same : closed = bracket
    · subst same
      simpa [toNesting, ← Nat.add_assoc] using Bracket.passes_closer closing
    · simpa [toNesting, same] using aside closed.next_closer
        (bracket.opener_ne_closer closed).symm (mt Bracket.closer_inj same)
  | idle same =>
    refine Bracket.passes_single fun outside => ?_
    obtain ⟨opens, closing⟩ := same outside
    refine ⟨?_, fun _ => closing⟩
    rintro rfl
    simp [bracket.ofOpener?_opener] at opens

/-- Where brackets close in the order in which they were opened, a search for one kind of them that
only counts these comes out behind the text with as many as the stack says. -/
theorem passes_after? (run : stack.after? text = some other) (bracket : Bracket) (depth : Nat) :
    bracket.Passes (stack.toNesting bracket depth) text (other.toNesting bracket depth) := by
  induction text generalizing stack with
  | nil =>
    cases run
    exact .refl
  | cons c text ih =>
    obtain ⟨next, step, behind⟩ := Option.bind_eq_some_iff.mp run
    exact ((next?_eq_some_iff.mp step).passes bracket depth).cons (ih behind)

end BracketStack

/-! Texts with nothing left open -/

/-- Every literal is closed, and the brackets outside of literals pair up. -/
def IsNested (text : Text) : Prop :=
  BracketStack.start.after? text = some ⟨.outside, text.getLast?, []⟩

instance (text : Text) : Decidable (IsNested text) :=
  inferInstanceAs (Decidable (_ = _))

/-- A text that may stand between brackets of any kind: a hyphen at its end would make an arrow of a
closing bracket. -/
structure IsEnclosed (text : Text) : Prop where
  nested : IsNested text
  unhyphened : text.getLast? ≠ some '-'

/-- The partner of a bracket stands behind the nested text that follows it. -/
theorem IsNested.inside {text : Text} (nested : IsNested text) {bracket : Bracket}
    (closing : closesAfter text.getLast? bracket.closer = true) (rest : Text) :
    bracket.inside (text ++ bracket.closer :: rest) = some (text, rest) := by
  have start (text : Text) : bracket.inside text = bracket.splitAtPartner .outside none 0 text := by
    cases text <;> cases bracket <;>
      simp [Bracket.inside, Bracket.splitAtPartner, closesAfter, Bracket.opener]
  have passes := BracketStack.passes_after? nested bracket 0 (bracket.closer :: rest)
  simp only [BracketStack.toNesting, BracketStack.start, List.count_nil, Nat.add_zero] at passes
  rw [start, passes, Bracket.splitAtPartner]
  simp [closing]

theorem IsEnclosed.inside {text : Text} (enclosed : IsEnclosed text) (bracket : Bracket)
    (rest : Text) : bracket.inside (text ++ bracket.closer :: rest) = some (text, rest) :=
  enclosed.nested.inside (bracket.closesAfter_closer enclosed.unhyphened) rest

end DeclBridge.Kotlin
