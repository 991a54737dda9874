import DeclBridge.Proofs.MaskedLists

/-! Readers that go through a text and its blank copy in step: they find the same in both, and stop
between the same segments. All readers that quotes stop are of this kind. -/

namespace DeclBridge.Kotlin

open Text

variable {α β : Type} {list : List Segment}

/-- In both copies the reader finds the same, and it stops between the same segments. -/
def ReadsInStep (read : Text → Option (α × Text)) (list : List Segment) : Prop :=
  ∃ answer : Option (α × List Segment),
    (∀ item behind, answer = some (item, behind) → behind <:+ list) ∧
      ∀ blank, read (joined blank list) =
        answer.map fun (item, behind) => (item, joined blank behind)

/-- Up to the first quote both copies are the same. -/
theorem exists_unquoted (list : List Segment) :
    ∃ (front : Text) (behind : List Segment), list = front.map .plain ++ behind ∧
      (∀ quote ∈ literalQuotes, quote ∉ front) ∧
        (behind = [] ∨ ∃ quote ∈ literalQuotes, ∀ blank, ∃ rest,
          joined blank behind = quote :: rest) := by
  induction list with
  | nil => exact ⟨[], [], rfl, by simp, .inl rfl⟩
  | cons segment list ih =>
    cases segment with
    | plain c =>
      by_cases quote : c ∈ literalQuotes
      · exact ⟨[], .plain c :: list, rfl, by simp, .inr ⟨c, quote, fun blank => ⟨_, rfl⟩⟩⟩
      · obtain ⟨front, behind, rfl, unquoted, stops⟩ := ih
        refine ⟨c :: front, behind, rfl, fun mark member => ?_, stops⟩
        rw [List.mem_cons, not_or]
        refine ⟨?_, unquoted mark member⟩
        rintro rfl
        exact quote member
    | quoted literal =>
      refine ⟨[], .quoted literal :: list, rfl, by simp, .inr ?_⟩
      refine ⟨literal.enclosure.quote, literal.enclosure.quote_mem, fun blank => ?_⟩
      obtain ⟨filled, same⟩ := literal.exists_text
      obtain ⟨empty, alike⟩ := literal.blank.exists_text
      cases blank with
      | false => exact ⟨filled ++ joined false list, congrArg (· ++ joined false list) same⟩
      | true => exact ⟨empty ++ joined true list, congrArg (· ++ joined true list) alike⟩

theorem joined_plain (blank : Bool) (text : Text) : joined blank (text.map .plain) = text := by
  induction text with
  | nil => rfl
  | cons c text ih => exact congrArg (c :: ·) ih

namespace ReadsInStep

/-- Readers that quotes stop. -/
theorem of_stopsAt {read : Text → Option (α × Text)}
    (stops : ∀ quote ∈ literalQuotes, StopsAt quote read) (list : List Segment) :
    ReadsInStep read list := by
  obtain ⟨front, behind, rfl, unquoted, rest⟩ := exists_unquoted list
  refine ⟨(read front).map (Prod.map id (·.map .plain ++ behind)), ?_, ?_⟩
  · intro item rest answered
    obtain ⟨⟨_, left⟩, found, same⟩ := Option.map_eq_some_iff.mp answered
    cases same
    obtain ⟨before, rfl⟩ := (stops '"' (by decide)).suffix _ _ _ found
    exact ⟨before.map .plain, by simp⟩
  · intro blank
    rw [joined_append, joined_plain, Option.map_map]
    rcases rest with rfl | ⟨quote, member, ends⟩
    · cases found : read front <;> simp [found, joined_plain]
    · obtain ⟨more, same⟩ := ends blank
      rw [same, (stops quote member).append _ _ (unquoted quote member)]
      simp [Function.comp_def, joined_plain, same]

theorem pure (item : α) : ReadsInStep (fun text => some (item, text)) list :=
  ⟨some (item, list), by rintro _ _ ⟨⟩; exact List.suffix_rfl, fun blank => rfl⟩

theorem bind {first : Text → Option (α × Text)} {next : α → Text → Option (β × Text)}
    (reads : ReadsInStep first list)
    (others : ∀ item behind, behind <:+ list →
      first (joined false list) = some (item, joined false behind) →
        ReadsInStep (next item) behind) :
    ReadsInStep (fun text => (first text).bind fun (item, rest) => next item rest) list := by
  obtain ⟨answer, suffix, same⟩ := reads
  cases answer with
  | none => exact ⟨none, by simp, fun blank => by simp [same]⟩
  | some found =>
    obtain ⟨item, middle⟩ := found
    have within := suffix item middle rfl
    obtain ⟨last, further, alike⟩ := others item middle within (same false)
    refine ⟨last, fun found behind read => (further found behind read).trans within, ?_⟩
    exact fun blank => by simp [same, alike]

/-- Reading on from where another reader stops. -/
theorem behind {skip : Text → Option Text} {read : Text → Option (α × Text)}
    (skips : ReadsInStep (passing skip) list)
    (reads : ∀ behind, behind <:+ list → skip (joined false list) = some (joined false behind) →
      ReadsInStep read behind) :
    ReadsInStep (fun text => (skip text).bind read) list := by
  have whole := skips.bind fun _ behind within skipped =>
    reads behind within (by simpa [passing] using skipped)
  refine (congrArg (ReadsInStep · list) (funext fun text => ?_)).mp whole
  cases found : skip text <;> simp [passing, found]

/-- Passing over what may be missing. -/
theorem optional {skip : Text → Option Text} (reads : ReadsInStep (passing skip) list) :
    ReadsInStep (passing fun text => some ((skip text).getD text)) list := by
  obtain ⟨answer, suffix, same⟩ := reads
  refine ⟨some ((), (answer.map (·.2)).getD list), ?_, fun blank => ?_⟩
  · rintro item behind ⟨⟩
    cases answer with
    | none => exact List.suffix_rfl
    | some found => exact suffix found.1 found.2 rfl
  · have alike := same blank
    cases answer with
    | none =>
      have refused : skip (joined blank list) = none := by simpa [passing] using alike
      simp [passing, refused]
    | some found =>
      have read : skip (joined blank list) = some (joined blank found.2) := by
        simpa [passing] using alike
      simp [passing, read]

private theorem length_joined_lt {behind : List Segment} (within : behind <:+ list)
    (differs : behind ≠ list) (blank : Bool) :
    (joined blank behind).length < (joined blank list).length := by
  obtain ⟨front, rfl⟩ := within
  have nonempty : front.isEmpty = false := by
    cases front with
    | nil => exact absurd rfl differs
    | cons segment front => rfl
  rw [← isEmpty_joined blank] at nonempty
  rw [joined_append, List.length_append]
  have := List.length_pos_iff.mpr (List.isEmpty_eq_false_iff.mp nonempty)
  omega

theorem many {read : Text → Option (α × Text)} {list : List Segment}
    (reads : ∀ behind, behind <:+ list → ReadsInStep read behind) :
    ReadsInStep (fun text => some (Text.many read text)) list := by
  obtain ⟨answer, suffix, same⟩ := reads list List.suffix_rfl
  have stay (idle : ∀ blank, Text.many read (joined blank list) = ([], joined blank list)) :
      ReadsInStep (fun text => some (Text.many read text)) list :=
    ⟨some ([], list), by rintro _ _ ⟨⟩; exact List.suffix_rfl, fun blank => by simp [idle]⟩
  cases answer with
  | none => exact stay fun blank => many_of_refused (same blank)
  | some found =>
    obtain ⟨item, behind⟩ := found
    have within := suffix item behind rfl
    have found (blank : Bool) :
        read (joined blank list) = some (item, joined blank behind) := same blank
    by_cases idle : behind = list
    · subst idle
      refine stay fun blank => ?_
      rw [Text.many, found]
      simp
    · have shorter : behind.length < list.length :=
        within.length_le.lt_of_ne fun length => idle (within.eq_of_length length)
      obtain ⟨last, further, alike⟩ := many fun rest inside => reads rest (inside.trans within)
      refine ⟨last.map (Prod.map (item :: ·) id), ?_, fun blank => ?_⟩
      · intro more rest answered
        obtain ⟨⟨_, _⟩, rfl, same⟩ := Option.map_eq_some_iff.mp answered
        cases same
        exact (further _ _ rfl).trans within
      · have rest := alike blank
        dsimp only at rest ⊢
        rw [Text.many, found]
        cases last with
        | none => cases rest
        | some last =>
          simp only [Option.map_some, Option.some.injEq] at rest
          simp [rest, length_joined_lt within idle blank]
termination_by list.length

end ReadsInStep

/-! Up to a mark outside of literals -/

/-- The segment is no literal that holds the character. -/
def Segment.Lacks (c : Char) : Segment → Prop
  | plain _ => True
  | quoted literal => c ∉ literal.inner

instance (c : Char) : (segment : Segment) → Decidable (segment.Lacks c)
  | .plain _ => isTrue trivial
  | .quoted literal => inferInstanceAs (Decidable (c ∉ literal.inner))

theorem Segment.Lacks.not_mem {literal : Quoted} {c : Char} (lacks : (quoted literal).Lacks c)
    (visible : c ≠ ' ' ∧ c ≠ '\n') (unquoted : c ∉ literalQuotes) (blank : Bool) :
    c ∉ (quoted literal).text blank := by
  intro inside
  cases blank with
  | false => exact (Quoted.mem_text inside).elim unquoted lacks
  | true =>
    refine (Quoted.mem_text inside).elim unquoted fun blank => ?_
    exact (isBlanked_blankOut _ _ blank).elim visible.1 visible.2

namespace ReadsInStep

theorem cut (mark : Char) (visible : mark ≠ ' ' ∧ mark ≠ '\n') (unquoted : mark ∉ literalQuotes)
    (lacks : ∀ segment ∈ list, segment.Lacks mark) :
    ReadsInStep (passing fun text => (Text.cut mark text).map (·.2)) list := by
  induction list with
  | nil => exact ⟨none, by simp, fun blank => rfl⟩
  | cons segment list ih =>
    obtain ⟨first, others⟩ := List.forall_mem_cons.mp lacks
    obtain ⟨answer, suffix, same⟩ := ih others
    have skip (skipped : ∀ blank, (Text.cut mark (joined blank (segment :: list))).map (·.2) =
        (Text.cut mark (joined blank list)).map (·.2)) :
        ReadsInStep (passing fun text => (Text.cut mark text).map (·.2)) (segment :: list) := by
      refine ⟨answer, fun item behind found => ?_, fun blank => ?_⟩
      · exact (suffix item behind found).trans (List.suffix_cons _ _)
      · rw [← same blank, passing, passing, skipped]
    cases segment with
    | plain c =>
      by_cases here : c = mark
      · refine ⟨some ((), list), ?_, fun blank => ?_⟩
        · rintro _ _ ⟨⟩
          exact List.suffix_cons _ _
        · simp [passing, Segment.text, Text.cut, here]
      · exact skip fun blank => by simp [Segment.text, Text.cut, here, Function.comp_def]
    | quoted literal =>
      refine skip fun blank => ?_
      rw [joined_cons, cut_append_of_absent (first.not_mem visible unquoted blank), Option.map_map]
      rfl

end ReadsInStep

end DeclBridge.Kotlin
