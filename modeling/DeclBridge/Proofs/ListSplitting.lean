import DeclBridge.Kotlin.Bracket
import DeclBridge.Proofs.Readers

/-! Lists are cut at the commas outside of literals and brackets. Cutting undoes joining exactly
when no entry can be cut on its own and every entry but the last closes what it opens, and the
entries that cutting finds are always of this kind. -/

namespace DeclBridge.Kotlin

open Text

/-- Where a reader of a list stands: with respect to literals, the character it passed last, and the
number of open brackets. -/
structure Nesting where
  quoting : Quoting
  before : Option Char
  depth : Nat

namespace Nesting

def start : Nesting := ⟨.outside, none, 0⟩

def next (state : Nesting) (c : Char) : Nesting :=
  ⟨state.quoting.next c, some c,
    if state.quoting = .outside then depthAfter state.before state.depth c else state.depth⟩

def after (state : Nesting) (text : Text) : Nesting :=
  text.foldl next state

/-- Only here a comma separates. -/
def IsTop (state : Nesting) : Prop :=
  state.quoting = .outside ∧ state.depth = 0

instance (state : Nesting) : Decidable state.IsTop :=
  inferInstanceAs (Decidable (_ ∧ _))

def pieces (state : Nesting) (text : Text) : List Text :=
  Kotlin.pieces (· = ',') state.quoting state.before state.depth text

@[simp]
theorem after_append (state : Nesting) (first second : Text) :
    state.after (first ++ second) = (state.after first).after second :=
  List.foldl_append

/-! One step -/

@[simp]
theorem pieces_nil (state : Nesting) : state.pieces [] = [[]] := rfl

private theorem separatesAt_iff {state : Nesting} {c : Char} :
    separatesAt (· = ',') state.quoting state.before state.depth c = true ↔
      c = ',' ∧ state.IsTop := by
  constructor
  · intro separates
    simp only [separatesAt, Bool.and_eq_true, decide_eq_true_eq, beq_iff_eq] at separates
    obtain ⟨⟨⟨⟨⟨outside, flat⟩, comma⟩, -⟩, -⟩, -⟩ := separates
    exact ⟨comma, outside, flat⟩
  · rintro ⟨rfl, outside, flat⟩
    simp [separatesAt, closesAfter, outside, flat]
    decide

theorem pieces_ne_nil (state : Nesting) (text : Text) : state.pieces text ≠ [] := by
  cases text with
  | nil => simp
  | cons c rest =>
    unfold pieces Kotlin.pieces
    split
    · simp
    · dsimp only
      split <;> simp

theorem pieces_comma {state : Nesting} (top : state.IsTop) (rest : Text) :
    state.pieces (',' :: rest) = [] :: (state.next ',').pieces rest := by
  have separates := separatesAt_iff.mpr ⟨rfl, top⟩
  obtain ⟨outside, flat⟩ := top
  have step : state.next ',' = ⟨state.quoting, some ',', state.depth⟩ := by
    simp [next, outside, flat, depthAfter, closesAfter]
    decide
  rw [pieces, Kotlin.pieces, if_pos separates, step]
  rfl

theorem pieces_cons {state : Nesting} {c : Char} (inside : ¬(c = ',' ∧ state.IsTop)) (rest : Text) :
    state.pieces (c :: rest) = ((state.next c).pieces rest).modifyHead (c :: ·) := by
  have separates : ¬separatesAt (· = ',') state.quoting state.before state.depth c = true :=
    mt separatesAt_iff.mp inside
  cases found : (state.next c).pieces rest with
  | nil => exact absurd found (pieces_ne_nil (state.next c) rest)
  | cons first others =>
    have behind : Kotlin.pieces (· = ',') (state.quoting.next c) (some c)
        (if state.quoting = .outside then depthAfter state.before state.depth c else state.depth)
        rest = first :: others := found
    rw [pieces, Kotlin.pieces, if_neg separates]
    dsimp only
    rw [behind]
    rfl

/-! States that cannot be told apart -/

/-- The character before only matters when it may begin an arrow. -/
structure Similar (first second : Nesting) : Prop where
  quoting : first.quoting = second.quoting
  depth : first.depth = second.depth
  hyphen : first.before = some '-' ↔ second.before = some '-'

namespace Similar

variable {first second : Nesting} (similar : first.Similar second)
include similar

theorem isTop : first.IsTop ↔ second.IsTop := by
  rw [IsTop, IsTop, similar.quoting, similar.depth]

theorem next (c : Char) : (first.next c).Similar (second.next c) := by
  constructor <;>
    simp [Nesting.next, depthAfter, closesAfter, similar.quoting, similar.depth, similar.hyphen]

theorem after (text : Text) : (first.after text).Similar (second.after text) := by
  induction text generalizing first second with
  | nil => exact similar
  | cons c text ih => exact ih (similar.next c)

theorem pieces (text : Text) : first.pieces text = second.pieces text := by
  induction text generalizing first second with
  | nil => rfl
  | cons c text ih =>
    by_cases separates : c = ',' ∧ first.IsTop
    · obtain ⟨rfl, top⟩ := separates
      rw [pieces_comma top, pieces_comma (similar.isTop.mp top), ih (similar.next ',')]
    · have inside : ¬(c = ',' ∧ second.IsTop) := by rwa [← similar.isTop]
      rw [pieces_cons separates, pieces_cons inside, ih (similar.next c)]

end Similar

/-- The characters that change how the text behind them is read. -/
def marks : List Char :=
  ['"', '-', '(', ')', '<', '>', '[', ']', '{', '}']

theorem not_mem_marks_of_blank {c : Char} (blank : isBlank c = true) : c ∉ marks := by
  have inks : marks.all (!isBlank ·) = true := by decide
  intro member
  have ink := List.all_eq_true.mp inks c member
  simp [blank] at ink

theorem depthAfter_of_not_mem_marks {c : Char} (plain : c ∉ marks) (before : Option Char)
    (depth : Nat) : depthAfter before depth c = depth := by
  simp only [marks, List.mem_cons, List.not_mem_nil, or_false, not_or] at plain
  obtain ⟨-, -, roundOpen, roundClose, angleOpen, angleClose, squareOpen, squareClose, curlyOpen,
    curlyClose⟩ := plain
  have opens : isOpener c = false := by
    unfold isOpener Bracket.ofOpener?
    split <;> simp_all
  simp [depthAfter, opens, closesAfter, roundClose, angleClose, squareClose, curlyClose]

/-- At the top everything but a mark leads back to where a text starts. -/
theorem IsTop.next_similar {state : Nesting} (top : state.IsTop) {c : Char} (plain : c ∉ marks) :
    (state.next c).Similar start := by
  have unquoted : c ≠ '"' := fun same => plain (by simp [marks, same])
  have unhyphened : c ≠ '-' := fun same => plain (by simp [marks, same])
  obtain ⟨outside, flat⟩ := top
  refine ⟨?_, ?_, ?_⟩
  · simp [next, outside, Quoting.next, unquoted, start]
  · simp [next, outside, flat, depthAfter_of_not_mem_marks plain, start]
  · simp [next, unhyphened, start]

theorem start_isTop : start.IsTop := ⟨rfl, rfl⟩

/-- A blank that comes next is neither escaped nor behind what may begin an arrow. -/
structure IsSettled (state : Nesting) : Prop where
  unescaped : state.quoting ≠ .escaped
  unhyphened : state.before ≠ some '-'

theorem start_isSettled : start.IsSettled := ⟨by simp [start], by simp [start]⟩

/-- Marks and the backslash are not blank. -/
private theorem ne_of_blank {c : Char} (blank : isBlank c = true) :
    c ≠ '"' ∧ c ≠ '-' ∧ c ≠ '\\' := by
  refine ⟨?_, ?_, ?_⟩ <;>
  · rintro rfl
    exact absurd blank (by decide)

theorem IsSettled.next_blank {state : Nesting} (settled : state.IsSettled) {c : Char}
    (blank : isBlank c = true) : (state.next c).IsSettled ∧ (state.next c).Similar state := by
  obtain ⟨unquoted, unhyphened, unescaping⟩ := ne_of_blank blank
  have depth := depthAfter_of_not_mem_marks (not_mem_marks_of_blank blank)
  have quoting : state.quoting.next c = state.quoting := by
    cases same : state.quoting with
    | outside => simp [Quoting.next, unquoted]
    | inside => simp [Quoting.next, unquoted, unescaping]
    | escaped => exact absurd same settled.unescaped
  refine ⟨⟨?_, by simp [next, unhyphened]⟩, ⟨quoting, ?_, ?_⟩⟩
  · rw [next, quoting]
    exact settled.unescaped
  · simp [next, depth]
  · simp [next, unhyphened, settled.unhyphened]

/-- Blanks that come first make no difference. -/
theorem IsSettled.after_blanks_similar {state : Nesting} (settled : state.IsSettled)
    {blanks : Text} (blank : ∀ c ∈ blanks, isBlank c = true) :
    (state.after blanks).Similar state := by
  induction blanks generalizing state with
  | nil => exact ⟨rfl, rfl, Iff.rfl⟩
  | cons c blanks ih =>
    obtain ⟨first, others⟩ := List.forall_mem_cons.mp blank
    obtain ⟨still, step⟩ := settled.next_blank first
    have rest := ih still others
    exact ⟨rest.quoting.trans step.quoting, rest.depth.trans step.depth,
      rest.hyphen.trans step.hyphen⟩

/-- Nor do blanks before a character that is no mark. -/
theorem after_blanks_next {state : Nesting} {blanks : Text}
    (blank : ∀ c ∈ blanks, isBlank c = true) {c : Char} (plain : c ∉ marks)
    (unescaping : c ≠ '\\') : (state.after blanks).next c = state.next c := by
  have unquoted : c ≠ '"' := fun same => plain (by simp [marks, same])
  induction blanks generalizing state with
  | nil => rfl
  | cons b blanks ih =>
    obtain ⟨first, others⟩ := List.forall_mem_cons.mp blank
    obtain ⟨bUnquoted, -, bUnescaping⟩ := ne_of_blank first
    have depth := depthAfter_of_not_mem_marks plain
    have bDepth := depthAfter_of_not_mem_marks (not_mem_marks_of_blank first)
    refine (ih others).trans ?_
    cases quoting : state.quoting <;>
      simp [next, quoting, Quoting.next, unquoted, unescaping, bUnquoted, bUnescaping, depth,
        bDepth]

/-- Blanks do not lead out of a literal or a bracket. -/
theorem isTop_of_after_blanks {state : Nesting} {blanks : Text}
    (blank : ∀ c ∈ blanks, isBlank c = true) (top : (state.after blanks).IsTop) : state.IsTop := by
  induction blanks generalizing state with
  | nil => exact top
  | cons c blanks ih =>
    obtain ⟨first, others⟩ := List.forall_mem_cons.mp blank
    obtain ⟨outside, flat⟩ := ih others top
    have plain := not_mem_marks_of_blank first
    have unquoted : c ≠ '"' := fun same => plain (by simp [marks, same])
    cases quoting : state.quoting with
    | outside =>
      refine ⟨quoting, ?_⟩
      simpa [next, quoting, depthAfter_of_not_mem_marks plain] using flat
    | inside =>
      have stays : state.quoting.next c ≠ .outside := by
        simp only [quoting, Quoting.next, if_neg unquoted]
        split <;> simp
      exact absurd outside stays
    | escaped =>
      have stays : state.quoting.next c ≠ .outside := by simp [quoting, Quoting.next]
      exact absurd outside stays

/-! Texts in one piece -/

theorem pieces_cons_eq_singleton_iff {state : Nesting} {c : Char} {text : Text} :
    state.pieces (c :: text) = [c :: text] ↔
      ¬(c = ',' ∧ state.IsTop) ∧ (state.next c).pieces text = [text] := by
  by_cases separates : c = ',' ∧ state.IsTop
  · obtain ⟨rfl, top⟩ := separates
    simp [pieces_comma top, top]
  · rw [pieces_cons separates]
    have more := pieces_ne_nil (state.next c) text
    cases found : (state.next c).pieces text with
    | nil => exact absurd found more
    | cons first others => simp [separates]

theorem pieces_append_eq_singleton_iff {state : Nesting} {first second : Text} :
    state.pieces (first ++ second) = [first ++ second] ↔
      state.pieces first = [first] ∧ (state.after first).pieces second = [second] := by
  induction first generalizing state with
  | nil => simp [after]
  | cons c first ih =>
    rw [List.cons_append, pieces_cons_eq_singleton_iff, pieces_cons_eq_singleton_iff, ih, and_assoc]
    rfl

theorem pieces_append {state : Nesting} {text : Text} (whole : state.pieces text = [text])
    (rest : Text) :
    state.pieces (text ++ rest) = ((state.after text).pieces rest).modifyHead (text ++ ·) := by
  induction text generalizing state with
  | nil => cases found : state.pieces rest <;> simp [after, found]
  | cons c text ih =>
    obtain ⟨inside, whole⟩ := pieces_cons_eq_singleton_iff.mp whole
    rw [List.cons_append, pieces_cons inside, ih whole, List.modifyHead_modifyHead]
    rfl

/-- The first piece leads up to a comma at the top, or to the end. -/
theorem pieces_eq_cons {state : Nesting} {text first : Text} {others : List Text}
    (cutting : state.pieces text = first :: others) :
    state.pieces first = [first] ∧
      (text = first ∧ others = [] ∨
        ∃ rest, text = first ++ ',' :: rest ∧ (state.after first).IsTop ∧
          others = ((state.after first).next ',').pieces rest) := by
  induction text generalizing state first with
  | nil =>
    obtain ⟨rfl, rfl⟩ := List.cons.inj cutting
    simp
  | cons c text ih =>
    by_cases separates : c = ',' ∧ state.IsTop
    · obtain ⟨rfl, top⟩ := separates
      rw [pieces_comma top] at cutting
      obtain ⟨rfl, rfl⟩ := List.cons.inj cutting
      exact ⟨rfl, .inr ⟨text, rfl, top, rfl⟩⟩
    · rw [pieces_cons separates] at cutting
      cases found : (state.next c).pieces text with
      | nil => exact absurd found (pieces_ne_nil _ _)
      | cons piece more =>
        rw [found] at cutting
        obtain ⟨rfl, rfl⟩ := List.cons.inj cutting
        obtain ⟨whole, last | ⟨rest, same, top, behind⟩⟩ := ih found
        · refine ⟨pieces_cons_eq_singleton_iff.mpr ⟨separates, whole⟩, .inl ⟨?_, last.2⟩⟩
          rw [last.1]
        · refine ⟨pieces_cons_eq_singleton_iff.mpr ⟨separates, whole⟩, .inr ⟨rest, ?_, top, behind⟩⟩
          rw [same]
          rfl

end Nesting

/-! Entries -/

/-- Read alone, the text has no comma that separates. -/
def IsUnsplit (text : Text) : Prop :=
  Nesting.start.pieces text = [text]

/-- Behind the text no bracket and no literal is open. -/
def IsClosed (text : Text) : Prop :=
  (Nesting.start.after text).IsTop

structure IsSelfContained (text : Text) : Prop where
  unsplit : IsUnsplit text
  closed : IsClosed text

/-- No entry is cut on its own, and every entry but the last closes what it opens. -/
def IsSeparable : List Text → Prop
  | [] => True
  | entry :: rest => IsUnsplit entry ∧ (rest ≠ [] → IsClosed entry) ∧ IsSeparable rest

instance (text : Text) : Decidable (IsUnsplit text) :=
  inferInstanceAs (Decidable (_ = _))

instance (text : Text) : Decidable (IsClosed text) :=
  inferInstanceAs (Decidable (Nesting.IsTop _))

instance (text : Text) : Decidable (IsSelfContained text) :=
  decidable_of_iff (IsUnsplit text ∧ IsClosed text)
    ⟨fun ⟨unsplit, closed⟩ => ⟨unsplit, closed⟩, fun whole => ⟨whole.unsplit, whole.closed⟩⟩

instance : (entries : List Text) → Decidable (IsSeparable entries)
  | [] => isTrue trivial
  | entry :: rest =>
    have : Decidable (IsSeparable rest) := instDecidableIsSeparable rest
    inferInstanceAs (Decidable (IsUnsplit entry ∧ (rest ≠ [] → IsClosed entry) ∧ IsSeparable rest))

theorem isSeparable_of_isSelfContained {entries : List Text}
    (selfContained : ∀ entry ∈ entries, IsSelfContained entry) : IsSeparable entries := by
  induction entries with
  | nil => trivial
  | cons entry entries ih =>
    obtain ⟨first, others⟩ := List.forall_mem_cons.mp selfContained
    exact ⟨first.unsplit, fun _ => first.closed, ih others⟩

theorem IsSelfContained.pieces_append {entry : Text} (selfContained : IsSelfContained entry)
    (rest : Text) :
    Nesting.start.pieces (entry ++ ',' :: rest) = entry :: Nesting.start.pieces rest := by
  have comma := selfContained.closed.next_similar (c := ',') (by decide)
  rw [Nesting.pieces_append selfContained.unsplit, Nesting.pieces_comma selfContained.closed,
    comma.pieces]
  simp

theorem pieces_intercalate {entries : List Text} (nonempty : entries ≠ [])
    (separable : IsSeparable entries) :
    Nesting.start.pieces ([','].intercalate entries) = entries := by
  induction entries with
  | nil => exact absurd rfl nonempty
  | cons entry entries ih =>
    obtain ⟨unsplit, closed, others⟩ := separable
    cases entries with
    | nil =>
      rw [List.intercalate_singleton]
      exact unsplit
    | cons next more =>
      have selfContained : IsSelfContained entry := ⟨unsplit, closed (by simp)⟩
      rw [List.intercalate_cons_cons, List.append_assoc, List.singleton_append,
        selfContained.pieces_append, ih (by simp) others]

/-- Joining the pieces gives the text back, and cutting it again the pieces. -/
theorem isSeparable_pieces (text : Text) :
    IsSeparable (Nesting.start.pieces text) ∧
      [','].intercalate (Nesting.start.pieces text) = text := by
  cases cutting : Nesting.start.pieces text with
  | nil => exact absurd cutting (Nesting.pieces_ne_nil _ _)
  | cons first others =>
    obtain ⟨unsplit, ⟨rfl, rfl⟩ | ⟨rest, rfl, closed, rfl⟩⟩ := Nesting.pieces_eq_cons cutting
    · exact ⟨⟨unsplit, by simp, trivial⟩, by simp⟩
    · rw [(Nesting.IsTop.next_similar closed (c := ',') (by decide)).pieces]
      obtain ⟨separable, joined⟩ := isSeparable_pieces rest
      refine ⟨⟨unsplit, fun _ => closed, separable⟩, ?_⟩
      cases more : Nesting.start.pieces rest with
      | nil => exact absurd more (Nesting.pieces_ne_nil _ _)
      | cons next further =>
        rw [List.intercalate_cons_cons, ← more, joined, List.append_assoc, List.singleton_append]
termination_by text.length

/-! Trimming -/

namespace Nesting

variable {state : Nesting} (settled : state.IsSettled) (text : Text)
include settled

theorem IsSettled.pieces_trim (whole : state.pieces text = [text]) :
    state.pieces (trim text) = [trim text] := by
  obtain ⟨front, back, same, frontBlank, -⟩ := exists_trim text
  rw [same, pieces_append_eq_singleton_iff, pieces_append_eq_singleton_iff] at whole
  obtain ⟨⟨-, inner⟩, -⟩ := whole
  rwa [(settled.after_blanks_similar frontBlank).pieces] at inner

theorem IsSettled.isTop_trim (top : (state.after text).IsTop) :
    (state.after (trim text)).IsTop := by
  obtain ⟨front, back, same, frontBlank, backBlank⟩ := exists_trim text
  rw [same, after_append, after_append] at top
  have inner := isTop_of_after_blanks backBlank top
  exact ((settled.after_blanks_similar frontBlank).after (trim text)).isTop.mp inner

end Nesting

/-- What reads the entries of a list one by one may drop some of them and change the others as long
as these stay in one piece and close what they close. -/
theorem IsSeparable.filterMap {entries : List Text} (separable : IsSeparable entries)
    {change : Text → Option Text}
    (unsplit : ∀ entry ∈ entries, ∀ changed ∈ change entry, IsUnsplit entry → IsUnsplit changed)
    (closed : ∀ entry ∈ entries, ∀ changed ∈ change entry, IsClosed entry → IsClosed changed) :
    IsSeparable (entries.filterMap change) := by
  induction entries with
  | nil => trivial
  | cons entry entries ih =>
    obtain ⟨whole, closing, others⟩ := separable
    obtain ⟨firstUnsplit, restUnsplit⟩ := List.forall_mem_cons.mp unsplit
    obtain ⟨firstClosed, restClosed⟩ := List.forall_mem_cons.mp closed
    have rest := ih others restUnsplit restClosed
    cases same : change entry with
    | none => rwa [List.filterMap_cons_none same]
    | some changed =>
      rw [List.filterMap_cons_some same]
      refine ⟨firstUnsplit changed same whole, fun more => ?_, rest⟩
      apply firstClosed changed same
      apply closing
      rintro rfl
      exact more rfl

theorem isSeparable_splitTopLevel (text : Text) : IsSeparable (splitTopLevel text) := by
  have entries : splitTopLevel text = (Nesting.start.pieces text).filterMap
      fun piece => (some (trim piece)).filter (!·.isEmpty) := by
    change ((Nesting.start.pieces text).map trim).filter (!·.isEmpty) = _
    rw [← List.filterMap_eq_filter, List.filterMap_map]
    rfl
  rw [entries]
  refine (isSeparable_pieces text).1.filterMap (fun piece _ entry kept whole => ?_)
    (fun piece _ entry kept top => ?_)
  · cases (Option.filter_eq_some_iff.mp kept).1
    exact Nesting.start_isSettled.pieces_trim piece whole
  · cases (Option.filter_eq_some_iff.mp kept).1
    exact Nesting.start_isSettled.isTop_trim piece top

theorem isTrimmed_of_mem_splitTopLevel {text entry : Text} (found : entry ∈ splitTopLevel text) :
    IsTrimmed entry ∧ entry ≠ [] := by
  obtain ⟨trimmed, nonempty⟩ := List.mem_filter.mp found
  obtain ⟨piece, -, rfl⟩ := List.mem_map.mp trimmed
  exact ⟨isTrimmed_trim piece, by simpa using nonempty⟩

theorem subset_of_mem_splitTopLevel {text entry : Text} (found : entry ∈ splitTopLevel text) :
    entry ⊆ text := by
  obtain ⟨piece, isPiece, rfl⟩ := List.mem_map.mp (List.mem_filter.mp found).1
  have whole : piece ⊆ [','].intercalate (Nesting.start.pieces text) := subset_intercalate isPiece
  rw [(isSeparable_pieces text).2] at whole
  exact List.Subset.trans (trim_subset piece) whole

/-- Cutting undoes joining, and takes the blanks around the entries away. -/
theorem splitTopLevel_intercalate {entries : List Text} (nonempty : entries ≠ [])
    (separable : IsSeparable entries) (inked : ∀ entry ∈ entries, isBlankText entry = false) :
    splitTopLevel ([','].intercalate entries) = entries.map trim := by
  change ((Nesting.start.pieces _).map trim).filter (!·.isEmpty) = _
  rw [pieces_intercalate nonempty separable, List.filter_eq_self]
  refine List.forall_mem_map.mpr fun entry member => ?_
  simpa using trim_ne_nil (inked entry member)

/-- The lists that survive being joined and cut again. -/
theorem splitTopLevel_intercalate_eq_self_iff {entries : List Text} :
    splitTopLevel ([','].intercalate entries) = entries ↔
      (∀ entry ∈ entries, IsTrimmed entry ∧ entry ≠ []) ∧ IsSeparable entries := by
  constructor
  · intro same
    rw [← same]
    exact ⟨fun entry found => isTrimmed_of_mem_splitTopLevel found, isSeparable_splitTopLevel _⟩
  · rintro ⟨trimmed, separable⟩
    cases entries with
    | nil => rfl
    | cons entry entries =>
      have inked : ∀ other ∈ entry :: entries, isBlankText other = false :=
        fun other member => (trimmed other member).1.isBlankText_eq_false (trimmed other member).2
      have same : (entry :: entries).map trim = (entry :: entries).map id :=
        List.map_congr_left fun other member => (trimmed other member).1
      rw [splitTopLevel_intercalate (by simp) separable inked, same, List.map_id]

end DeclBridge.Kotlin
