import DeclBridge.Proofs.BalancedTexts
import DeclBridge.Proofs.LocalReaders
import DeclBridge.Proofs.RawStrings

/-! Readers that start in front of a raw string. They stop before it, or a bracket takes them over
it, and which of these happens does not depend on what the raw string holds. -/

namespace DeclBridge.Kotlin

open Text

/-- Contents that are blanked. -/
def IsBlanked (blank : Text) : Prop :=
  ∀ c ∈ blank, c = ' ' ∨ c = '\n'

theorem isBlanked_nil : IsBlanked [] :=
  List.forall_mem_nil _

theorem isBlanked_blankOut (content : Text) : IsBlanked (blankOut content) := by
  refine List.forall_mem_map.mpr fun c _ => ?_
  split
  · next same => exact .inr same
  · exact .inl rfl

variable {α β γ δ ε : Type}

theorem of_mem_rawString {blank : Text} (blanked : IsBlanked blank) {c : Char}
    (inside : c ∈ rawString blank) : c = '"' ∨ c = ' ' ∨ c = '\n' :=
  (mem_rawString.mp inside).imp id (blanked c)

theorem lastFrom_rawString (before : Option Char) (content : Text) :
    lastFrom before (rawString content) = some '"' := by
  rw [rawString, lastFrom_append]
  rfl

/-- What a reader answers with at one place in front of a raw string, first with these contents and
then with none. Only the outline of what it finds is the same when the raw string is part of it. -/
inductive Alike (front back blank : Text) (outline : α → β) :
    Option (α × Text) → Option (α × Text) → Prop where
  | refused : Alike front back blank outline none none
  | before {item : α} {rest : Text} (inside : rest <:+ front) :
    Alike front back blank outline (some (item, rest ++ (rawString blank ++ back)))
      (some (item, rest ++ (rawString [] ++ back)))
  | across {item other : α} {rest : Text} (same : outline item = outline other)
    (inside : rest <:+ back) :
    Alike front back blank outline (some (item, rest)) (some (other, rest))

structure Respects (front back blank : Text) (outline : α → β) (read : Text → Option (α × Text)) :
    Prop where
  alike : ∀ text, text <:+ front → Alike front back blank outline
    (read (text ++ (rawString blank ++ back))) (read (text ++ (rawString [] ++ back)))
  suffix : ∀ text found rest, read text = some (found, rest) → rest <:+ text

variable {front back blank : Text}

namespace Alike

variable {outline : α → β} {filled empty : Option (α × Text)}

theorem mono {other : Text} (alike : Alike front back blank outline filled empty)
    (suffix : front <:+ other) : Alike other back blank outline filled empty := by
  cases alike with
  | refused => exact .refused
  | before inside => exact .before (inside.trans suffix)
  | across same inside => exact .across same inside

theorem bind (alike : Alike front back blank outline filled empty)
    {next : α → Text → Option (γ × Text)} {last : γ → δ}
    (others : ∀ item, Respects front back blank last (next item))
    (uniform : ∀ item other rest, outline item = outline other →
      (next item rest).map (Prod.map last id) = (next other rest).map (Prod.map last id)) :
    Alike front back blank last (filled.bind fun (item, rest) => next item rest)
      (empty.bind fun (item, rest) => next item rest) := by
  cases alike with
  | refused => exact .refused
  | before inside => exact (others _).alike _ inside
  | @across item other rest same inside =>
    have both := uniform item other rest same
    rw [Option.bind_some, Option.bind_some]
    cases found : next item rest with
    | none =>
      rw [found, Option.map_none, eq_comm, Option.map_eq_none_iff] at both
      simp only [found, both]
      exact .refused
    | some answer =>
      rw [found, Option.map_some, eq_comm, Option.map_eq_some_iff] at both
      obtain ⟨⟨there, behind⟩, reached, same⟩ := both
      obtain ⟨outlines, rfl⟩ := Prod.mk.inj same
      simp only [found, reached]
      exact .across outlines.symm (((others _).suffix _ _ _ reached).trans inside)

theorem map (alike : Alike front back blank outline filled empty) {last : γ → δ} (f : α → γ)
    (uniform : ∀ item other, outline item = outline other → last (f item) = last (f other)) :
    Alike front back blank last (filled.map (Prod.map f id)) (empty.map (Prod.map f id)) := by
  cases alike with
  | refused => exact .refused
  | before inside => exact .before inside
  | across same inside => exact .across (uniform _ _ same) inside

end Alike

namespace Respects

theorem of_stopsAt {read : Text → Option (α × Text)} (stops : StopsAt '"' read)
    (unquoted : '"' ∉ front) (outline : α → β) : Respects front back blank outline read where
  alike text inside := by
    have absent : '"' ∉ text := fun member => unquoted (inside.subset member)
    have here (content : Text) : read (text ++ (rawString content ++ back)) =
        (read text).map fun (found, rest) => (found, rest ++ (rawString content ++ back)) :=
      stops.append text _ absent
    rw [here, here]
    cases found : read text with
    | none => exact .refused
    | some answer =>
      obtain ⟨item, rest⟩ := answer
      exact .before ((stops.suffix _ _ _ found).trans inside)
  suffix := stops.suffix

/-- What is read next may depend on what was found, its outline only on the outline of that. -/
theorem bind {first : Text → Option (α × Text)} {next : α → Text → Option (γ × Text)}
    {outline : α → β} {last : γ → δ} (respects : Respects front back blank outline first)
    (others : ∀ item, Respects front back blank last (next item))
    (uniform : ∀ item other rest, outline item = outline other →
      (next item rest).map (Prod.map last id) = (next other rest).map (Prod.map last id)) :
    Respects front back blank last
      fun text => (first text).bind fun (item, rest) => next item rest where
  alike text inside := (respects.alike text inside).bind others uniform
  suffix text found rest read := by
    obtain ⟨⟨item, middle⟩, begun, read⟩ := Option.bind_eq_some_iff.mp read
    exact ((others item).suffix _ _ _ read).trans (respects.suffix _ _ _ begun)

theorem after {first : Text → Option (α × Text)} {next : α → Text → Option (β × Text)}
    {outline : β → γ} (stops : StopsAt '"' first) (unquoted : '"' ∉ front)
    (others : ∀ item, Respects front back blank outline (next item)) :
    Respects front back blank outline
      fun text => (first text).bind fun (item, rest) => next item rest := by
  refine (of_stopsAt stops unquoted id).bind others ?_
  rintro item _ rest rfl
  rfl

theorem behind {skip : Text → Option Text} {read : Text → Option (α × Text)} {outline : α → β}
    {known : Unit → γ} (respects : Respects front back blank known (passing skip))
    (others : Respects front back blank outline read) :
    Respects front back blank outline fun text => (skip text).bind read := by
  have whole := respects.bind (fun _ => others) fun _ _ _ _ => rfl
  have same : (fun text => (passing skip text).bind fun (_, rest) => read rest) =
      fun text => (skip text).bind read :=
    funext fun text => by cases found : skip text <;> simp [passing, found]
  rwa [same] at whole

theorem map {read : Text → Option (α × Text)} {outline : α → β} (f : α → γ) (last : γ → δ)
    (respects : Respects front back blank outline read)
    (uniform : ∀ item other, outline item = outline other → last (f item) = last (f other)) :
    Respects front back blank last fun text => (read text).map (Prod.map f id) where
  alike text inside := (respects.alike text inside).map f uniform
  suffix text found rest read := by
    obtain ⟨⟨item, behind⟩, begun, same⟩ := Option.map_eq_some_iff.mp read
    obtain ⟨-, rfl⟩ := Prod.mk.inj same
    exact respects.suffix _ _ _ begun

/-- What two readers find is put together. -/
theorem pair {first : Text → Option (α × Text)} {second : Text → Option (β × Text)}
    {outline : α → γ} (combine : α → β → ε) (last : ε → δ)
    (respects : Respects front back blank outline first) (stops : StopsAt '"' second)
    (unquoted : '"' ∉ front)
    (uniform : ∀ item other found, outline item = outline other →
      last (combine item found) = last (combine other found)) :
    Respects front back blank last fun text => (first text).bind fun (item, rest) =>
      (second rest).bind fun (found, rest) => some (combine item found, rest) := by
  have others (item : α) : Respects front back blank last fun text =>
      (second text).bind fun (found, rest) => some (combine item found, rest) :=
    of_stopsAt (stops.bind fun found => .pure (combine item found)) unquoted last
  refine respects.bind others fun item other rest same => ?_
  cases second rest with
  | none => rfl
  | some answer => exact congrArg (fun found => some (found, answer.2)) (uniform _ _ _ same)

theorem or {first second : Text → Option (α × Text)} {outline : α → β}
    (respects : Respects front back blank outline first)
    (others : Respects front back blank outline second) :
    Respects front back blank outline fun text => (first text).or (second text) where
  alike text inside := by
    have here := respects.alike text inside
    have there := others.alike text inside
    revert here
    generalize first (text ++ (rawString blank ++ back)) = filled
    generalize first (text ++ (rawString [] ++ back)) = empty
    rintro (_ | ⟨inside⟩ | ⟨same, inside⟩)
    · exact there
    · exact .before inside
    · exact .across same inside
  suffix text found rest read := by
    rcases Option.or_eq_some_iff.mp read with read | ⟨-, read⟩
    · exact respects.suffix _ _ _ read
    · exact others.suffix _ _ _ read

/-- What may be missing is read if it is there. -/
theorem optional {read : Text → Option (α × Text)} {outline : α → β}
    (respects : Respects front back blank outline read) (missing : α) :
    Respects front back blank outline fun text => some ((read text).getD (missing, text)) where
  alike text inside := by
    have here := respects.alike text inside
    revert here
    generalize read (text ++ (rawString blank ++ back)) = filled
    generalize read (text ++ (rawString [] ++ back)) = empty
    rintro (_ | ⟨inside⟩ | ⟨same, inside⟩)
    · exact .before inside
    · exact .before inside
    · exact .across same inside
  suffix text found rest answer := by
    cases begun : read text with
    | none =>
      rw [begun] at answer
      obtain ⟨-, rfl⟩ := Prod.mk.inj (Option.some.inj answer)
      exact List.suffix_rfl
    | some last =>
      rw [begun] at answer
      obtain rfl : last = (found, rest) := Option.some.inj answer
      exact respects.suffix _ _ _ begun

/-- One of two readers is chosen by the mark that comes next. -/
theorem choose (mark : Char) (differs : mark ≠ '"') {marked unmarked : Text → Option (α × Text)}
    {outline : α → β} (respects : Respects front back blank outline marked)
    (others : Respects front back blank outline unmarked) :
    Respects front back blank outline fun text =>
      if text.head? = some mark then marked text.tail else unmarked text where
  alike text inside := by
    cases text with
    | nil => simpa [rawString, Ne.symm differs] using others.alike [] inside
    | cons c text =>
      by_cases same : c = mark
      · simpa [same] using respects.alike text ((List.suffix_cons c text).trans inside)
      · simpa [same] using others.alike (c :: text) inside
  suffix text found rest read := by
    split at read
    · exact (respects.suffix _ _ _ read).trans (List.tail_suffix text)
    · exact others.suffix _ _ _ read

/-- The three ways in which a place to read on from is found. -/
theorem passing_alike {skip : Text → Option Text} {outline : Unit → γ}
    (respects : Respects front back blank outline (passing skip)) {text : Text}
    (inside : text <:+ front) :
    (skip (text ++ (rawString blank ++ back)) = none ∧
        skip (text ++ (rawString [] ++ back)) = none) ∨
      (∃ rest, rest <:+ front ∧
        skip (text ++ (rawString blank ++ back)) = some (rest ++ (rawString blank ++ back)) ∧
        skip (text ++ (rawString [] ++ back)) = some (rest ++ (rawString [] ++ back))) ∨
      ∃ rest, rest <:+ back ∧ skip (text ++ (rawString blank ++ back)) = some rest ∧
        skip (text ++ (rawString [] ++ back)) = some rest := by
  have here := respects.alike text inside
  rw [passing, passing] at here
  revert here
  generalize skip (text ++ (rawString blank ++ back)) = filled
  generalize skip (text ++ (rawString [] ++ back)) = empty
  intro here
  cases filled <;> cases empty <;> cases here
  · exact .inl ⟨rfl, rfl⟩
  · next inside => exact .inr (.inl ⟨_, inside, rfl, rfl⟩)
  · next inside same => exact .inr (.inr ⟨_, inside, rfl, rfl⟩)

end Respects

/-! Brackets -/

theorem suffix_of_cut {mark : Char} {text before after : Text}
    (found : cut mark text = some (before, after)) : after <:+ text := by
  obtain ⟨rfl, -⟩ := of_cut_eq_some found
  exact (List.suffix_cons mark after).trans (List.suffix_append before (mark :: after))

theorem cut_append_of_absent {mark : Char} {text : Text} (absent : mark ∉ text) (rest : Text) :
    cut mark (text ++ rest) =
      (cut mark rest).map fun (before, after) => (text ++ before, after) := by
  induction text with
  | nil => simp
  | cons c text ih =>
    rw [List.mem_cons, not_or] at absent
    simp [cut, Ne.symm absent.1, ih absent.2, Function.comp_def]

theorem respects_cut {mark : Char} (absent : mark ∉ rawString blank) :
    Respects front back blank (fun _ => ()) (cut mark) where
  alike text inside := by
    have none : mark ∉ rawString [] := fun member =>
      absent (mem_rawString.mpr ((mem_rawString.mp member).imp id fun inside => by cases inside))
    by_cases member : mark ∈ text
    · obtain ⟨before, after, rfl, first⟩ := List.eq_append_cons_of_mem member
      have suffix : after <:+ front :=
        (List.suffix_cons mark after).trans ((List.suffix_append before _).trans inside)
      simp only [List.append_assoc, List.cons_append, cut_append first]
      exact .before suffix
    · rw [cut_append_of_absent member, cut_append_of_absent member, cut_append_of_absent absent,
        cut_append_of_absent none]
      cases found : cut mark back with
      | none => exact .refused
      | some answer => exact .across rfl (suffix_of_cut found)
  suffix _ _ _ found := suffix_of_cut found

namespace Bracket

variable {bracket : Bracket} {depth : Nat} {before : Option Char}

theorem suffix_of_splitAtPartner {quoting : Quoting} {text inner after : Text}
    (found : bracket.splitAtPartner quoting before depth text = some (inner, after)) :
    after <:+ text := by
  induction text generalizing quoting before depth inner with
  | nil => cases found
  | cons c text ih =>
    rw [splitAtPartner] at found
    split at found
    · obtain ⟨-, rfl⟩ := Prod.mk.inj (Option.some.inj found)
      exact List.suffix_cons c text
    · obtain ⟨⟨more, last⟩, read, same⟩ := Option.map_eq_some_iff.mp found
      obtain ⟨-, rfl⟩ := Prod.mk.inj same
      exact (ih read).trans (List.suffix_cons c text)

/-- Outside of literals the search goes on unless the bracket closes. -/
theorem passes_step {c : Char} (unquoted : c ≠ '"')
    (goesOn : ¬((c = bracket.closer ∧ closesAfter before c) ∧ depth = 0)) :
    ∃ deeper, bracket.Passes ⟨.outside, before, depth⟩ [c] ⟨.outside, some c, deeper⟩ := by
  refine ⟨if c = bracket.closer ∧ closesAfter before c then depth - 1
    else if c = bracket.opener then depth + 1 else depth, fun rest => ?_⟩
  rw [List.singleton_append, splitAtPartner]
  simp only [true_and, if_neg goesOn, Quoting.next, if_neg unquoted, List.singleton_append]

/-- Without quotes the partner is found within a text, or the search goes on behind it. -/
theorem partner_or_passes {text : Text} (unquoted : '"' ∉ text) :
    (∃ inner after, after <:+ text ∧ ∀ rest,
      bracket.splitAtPartner .outside before depth (text ++ rest) = some (inner, after ++ rest)) ∨
      ∃ last deeper, bracket.Passes ⟨.outside, before, depth⟩ text ⟨.outside, last, deeper⟩ := by
  induction text generalizing before depth with
  | nil => exact .inr ⟨before, depth, .refl⟩
  | cons c text ih =>
    rw [List.mem_cons, not_or] at unquoted
    by_cases closes : (c = bracket.closer ∧ closesAfter before c) ∧ depth = 0
    · refine .inl ⟨[], text, List.suffix_cons c text, fun rest => ?_⟩
      rw [List.cons_append, splitAtPartner]
      simp only [true_and, if_pos closes]
    · obtain ⟨deeper, step⟩ := passes_step (Ne.symm unquoted.1) closes
      rcases @ih deeper (some c) unquoted.2 with
        ⟨inner, after, suffix, found⟩ | ⟨last, deepest, passes⟩
      · refine .inl ⟨c :: inner, after, suffix.trans (List.suffix_cons c text), fun rest => ?_⟩
        have here := step (text ++ rest)
        rw [found rest] at here
        exact here
      · exact .inr ⟨last, deepest, step.cons passes⟩

theorem passes_within {text : Text} (plain : ∀ c ∈ text, c ≠ '"' ∧ c ≠ '\\') :
    bracket.Passes ⟨.inside, before, depth⟩ text ⟨.inside, lastFrom before text, depth⟩ := by
  induction text generalizing before with
  | nil => exact .refl
  | cons c text ih =>
    obtain ⟨⟨unquoted, unescaping⟩, others⟩ := List.forall_mem_cons.mp plain
    have step : bracket.Passes ⟨.inside, before, depth⟩ [c] ⟨.inside, some c, depth⟩ := by
      have single : bracket.Passes ⟨.inside, before, depth⟩ [c]
          ⟨Quoting.inside.next c, some c, depth⟩ := passes_single (by simp)
      simpa [Quoting.next, unquoted, unescaping] using single
    exact step.cons (ih others)

/-- A raw string reads as three strings. -/
theorem passes_rawString (blanked : IsBlanked blank) :
    bracket.Passes ⟨.outside, before, depth⟩ (rawString blank) ⟨.outside, some '"', depth⟩ := by
  have opening {before : Option Char} :
      bracket.Passes ⟨.outside, before, depth⟩ ['"'] ⟨.inside, some '"', depth⟩ := by
    cases bracket <;> exact passes_mark (by decide) (by decide)
  have closing {before : Option Char} :
      bracket.Passes ⟨.inside, before, depth⟩ ['"'] ⟨.outside, some '"', depth⟩ :=
    passes_single (by simp)
  have within : bracket.Passes ⟨.inside, some '"', depth⟩ blank
      ⟨.inside, lastFrom (some '"') blank, depth⟩ := by
    refine passes_within fun c inside => ?_
    rcases blanked c inside with rfl | rfl <;> decide
  exact opening.cons (closing.cons (opening.cons
    (within.trans (closing.cons (opening.cons closing)))))

end Bracket

theorem isBlankText_quoted (text rest : Text) (content : Text) :
    isBlankText (text ++ (rawString content ++ rest)) = false := by
  rw [isBlankText, List.all_append, rawString]
  simp [show isBlank '"' = false from rfl]

theorem respects_inside (back : Text) (bracket : Bracket) (unquoted : '"' ∉ front)
    (blanked : IsBlanked blank) :
    Respects front back blank isBlankText bracket.inside where
  alike text inside := by
    have absent : '"' ∉ text := fun member => unquoted (inside.subset member)
    rcases Bracket.partner_or_passes absent with
      ⟨inner, after, suffix, found⟩ | ⟨last, deeper, passes⟩
    · rw [Bracket.inside, Bracket.inside, found, found]
      exact .before (suffix.trans inside)
    · have filled := passes.trans (Bracket.passes_rawString blanked) back
      have empty := passes.trans (Bracket.passes_rawString isBlanked_nil) back
      rw [List.append_assoc] at filled empty
      rw [Bracket.inside, Bracket.inside, filled, empty]
      cases read : bracket.splitAtPartner .outside (some '"') deeper back with
      | none => exact .refused
      | some answer =>
        obtain ⟨inner, after⟩ := answer
        refine .across ?_ (Bracket.suffix_of_splitAtPartner read)
        simp only [List.append_assoc, isBlankText_quoted]
  suffix _ _ _ found := Bracket.suffix_of_splitAtPartner found

end DeclBridge.Kotlin
