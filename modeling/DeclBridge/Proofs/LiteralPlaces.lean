import DeclBridge.Proofs.CrossingReaders
import DeclBridge.Proofs.QuietTexts
import Mathlib.Data.List.Forall2

/-! What is found in a text around a raw string. With and without the contents of the raw string the
same places are found in the same order, and behind the raw string all offsets are shifted by the
length of the contents. -/

namespace DeclBridge.Kotlin

open Text Syntax

variable {α β : Type} {front back blank : Text}

/-- Where an offset lies when the raw string behind the front is filled. -/
def shift (front blank : Text) (offset : Nat) : Nat :=
  if offset ≤ front.length then offset else offset + blank.length

/-- One finding with the contents of the raw string and without them. -/
inductive Matches (front back blank : Text) (outline : α → β) :
    Occurrence α → Occurrence α → Prop where
  | before {start stop : Nat} {item : α} {rest : Text} (inside : rest <:+ front)
    (order : start < stop) (ends : stop + rest.length = front.length) :
    Matches front back blank outline ⟨start, stop, item, rest ++ (rawString blank ++ back)⟩
      ⟨start, stop, item, rest ++ (rawString [] ++ back)⟩
  | across {start stop : Nat} {item other : α} {rest : Text} (same : outline item = outline other)
    (inside : rest <:+ back) (early : start < front.length)
    (ends : stop + rest.length = front.length + 6 + back.length) :
    Matches front back blank outline ⟨start, stop + blank.length, item, rest⟩
      ⟨start, stop, other, rest⟩
  | behind {start stop : Nat} {item : α} {rest : Text} (inside : rest <:+ back)
    (late : front.length + 6 ≤ start) (order : start < stop)
    (ends : stop + rest.length = front.length + 6 + back.length) :
    Matches front back blank outline ⟨start + blank.length, stop + blank.length, item, rest⟩
      ⟨start, stop, item, rest⟩

namespace Matches

variable {outline : α → β} {filled empty : Occurrence α}
  (found : Matches front back blank outline filled empty)
include found

theorem start_eq : filled.start = shift front blank empty.start := by
  cases found with
  | before _ order ends => exact (if_pos (by dsimp only; omega)).symm
  | across _ _ early _ => exact (if_pos (by dsimp only; omega)).symm
  | behind _ late _ _ => exact (if_neg (by dsimp only; omega)).symm

theorem outline_eq : outline filled.found = outline empty.found := by
  cases found with
  | before | behind => rfl
  | across same => exact same

end Matches

theorem filterMap_eq_of_forall₂ {γ : Type} {relation : α → β → Prop} {f : α → Option γ}
    {g : β → Option γ} {first : List α} {second : List β}
    (related : List.Forall₂ relation first second)
    (same : ∀ other ∈ second, ∀ item, relation item other → f item = g other) :
    first.filterMap f = second.filterMap g := by
  induction related with
  | nil => rfl
  | @cons item other first second here _ ih =>
    obtain ⟨head, others⟩ := List.forall_mem_cons.mp same
    rw [List.filterMap_cons, List.filterMap_cons, head item here, ih others]

theorem forall₂_map {γ δ : Type} {relation : α → β → Prop} {last : γ → δ → Prop} {f : α → γ}
    {g : β → δ} {first : List α} {second : List β} (related : List.Forall₂ relation first second)
    (same : ∀ other ∈ second, ∀ item, relation item other → last (f item) (g other)) :
    List.Forall₂ last (first.map f) (second.map g) := by
  induction related with
  | nil => exact .nil
  | @cons item other first second here _ ih =>
    obtain ⟨head, others⟩ := List.forall_mem_cons.mp same
    exact .cons (head item here) (ih others)

theorem forall₂_filter {relation : α → β → Prop} {p : α → Bool} {q : β → Bool}
    {first : List α} {second : List β} (related : List.Forall₂ relation first second)
    (same : ∀ other ∈ second, ∀ item, relation item other → p item = q other) :
    List.Forall₂ relation (first.filter p) (second.filter q) := by
  induction related with
  | nil => exact .nil
  | @cons item other first second here _ ih =>
    obtain ⟨head, others⟩ := List.forall_mem_cons.mp same
    rw [List.filter_cons, List.filter_cons, head item here]
    split
    · exact .cons here (ih others)
    · exact ih others

/-! Searching -/

theorem occurrencesFrom_refused {read : Lookbehind α} {before : Option Char} {c : Char}
    {text : Text} (refused : read before (c :: text) = none) (offset : Nat) :
    occurrencesFrom read offset before (c :: text) =
      occurrencesFrom read (offset + 1) (some c) text := by
  rw [occurrencesFrom, refused]

/-- What makes the text no shorter is not found. -/
theorem occurrencesFrom_idle {read : Lookbehind α} {before : Option Char} {c : Char} {text : Text}
    {item : α} (idle : read before (c :: text) = some (item, c :: text)) (offset : Nat) :
    occurrencesFrom read offset before (c :: text) =
      occurrencesFrom read (offset + 1) (some c) text := by
  rw [occurrencesFrom, idle]
  exact if_neg (by simp)

def Occurrence.move (distance : Nat) (place : Occurrence α) : Occurrence α :=
  ⟨place.start + distance, place.stop + distance, place.found, place.rest⟩

theorem occurrencesFrom_move (read : Lookbehind α) (distance offset : Nat) (before : Option Char)
    (text : Text) :
    occurrencesFrom read (offset + distance) before text =
      (occurrencesFrom read offset before text).map (Occurrence.move distance) := by
  fun_induction occurrencesFrom read offset before text with
  | case1 => simp [occurrencesFrom]
  | case2 offset before c text refused ih =>
    rw [occurrencesFrom_refused refused, Nat.add_right_comm, ih]
  | case3 offset before c text item rest found bound used ih =>
    rw [occurrencesFrom, found]
    simp only [if_pos bound, List.map_cons]
    rw [Nat.add_right_comm, ih]
    rfl
  | case4 offset before c text item rest found longer ih =>
    rw [occurrencesFrom, found]
    simp only [if_neg longer]
    rw [Nat.add_right_comm, ih]

/-- Where in a text something was read. -/
theorem exists_read_of_mem_occurrencesFrom {read : Lookbehind α} {offset : Nat}
    {before : Option Char} {text : Text} {place : Occurrence α}
    (suffix : ∀ before text found rest, read before text = some (found, rest) → rest <:+ text)
    (member : place ∈ occurrencesFrom read offset before text) :
    ∃ before here, read before here = some (place.found, place.rest) ∧ here <:+ text ∧
      place.start < place.stop ∧ place.start + here.length = offset + text.length ∧
      place.stop + place.rest.length = offset + text.length := by
  fun_induction occurrencesFrom read offset before text with
  | case1 => cases member
  | case2 offset before c text refused ih | case4 offset before c text item rest found longer ih =>
    obtain ⟨last, here, read, inside, order, start, stop⟩ := ih member
    refine ⟨last, here, read, inside.trans (List.suffix_cons c text), order, ?_, ?_⟩ <;>
      rw [List.length_cons] <;> omega
  | case3 offset before c text item rest found bound used ih =>
    have length : used.length = text.length + 1 - rest.length := by simp [used]
    rcases List.mem_cons.mp member with rfl | member
    · refine ⟨before, c :: text, found, List.suffix_rfl, ?_, rfl, ?_⟩ <;>
        simp only [List.length_cons] <;> omega
    · obtain ⟨last, here, read, inside, order, start, stop⟩ := ih member
      refine ⟨last, here, read, inside.trans (suffix _ _ _ _ found), order, ?_, ?_⟩ <;>
        rw [List.length_cons] <;> omega

/-- What is found in front of a mark is found without the mark. -/
theorem exists_mem_occurrencesFrom_front {read : Lookbehind α} {mark : Char}
    (stops : ∀ before, StopsAt mark (read before)) {text rest : Text} (absent : mark ∉ text)
    {offset : Nat} {before : Option Char} {place : Occurrence α}
    (member : place ∈ occurrencesFrom read offset before (text ++ mark :: rest))
    (early : place.start < offset + text.length) :
    ∃ other ∈ occurrencesFrom read offset before text, other.stop = place.stop := by
  induction length : text.length using Nat.strongRecOn generalizing text offset before with
  | _ _ ih =>
    cases text with
    | nil =>
      obtain ⟨_, here, _, inside, _, start, _⟩ :=
        exists_read_of_mem_occurrencesFrom (fun before => (stops before).suffix) member
      have bound := inside.length_le
      simp only [List.nil_append, List.length_nil] at bound start early
      omega
    | cons c text =>
      have next
          (member : place ∈ occurrencesFrom read (offset + 1) (some c) (text ++ mark :: rest)) :
          ∃ other ∈ occurrencesFrom read (offset + 1) (some c) text, other.stop = place.stop := by
        refine ih text.length ?_ (List.not_mem_of_not_mem_cons absent) member ?_ rfl
        · simp [← length]
        · rw [List.length_cons] at early
          omega
      have here := (stops before).append (c :: text) rest absent
      cases found : read before (c :: text) with
      | none =>
        rw [found, Option.map_none, List.cons_append] at here
        rw [List.cons_append, occurrencesFrom_refused here] at member
        rw [occurrencesFrom_refused found]
        exact next member
      | some answer =>
        obtain ⟨item, behind⟩ := answer
        obtain ⟨lead, same⟩ := (stops before).suffix _ _ _ found
        rw [found, Option.map_some] at here
        cases lead with
        | nil =>
          obtain rfl : behind = c :: text := same
          rw [List.cons_append] at here member
          rw [occurrencesFrom_idle here] at member
          rw [occurrencesFrom_idle found]
          exact next member
        | cons d lead =>
          have size : lead.length + behind.length = text.length := by
            simpa using congrArg List.length same
          have inside : mark ∉ behind := fun member => absent (by simp [← same, member])
          rw [← same, List.append_assoc] at here member
          rw [← same] at found
          rw [occurrencesFrom_found (by simp) here] at member
          rw [← same, occurrencesFrom_found (by simp) found]
          rcases List.mem_cons.mp member with rfl | member
          · exact ⟨_, List.mem_cons_self, rfl⟩
          · simp only [List.length_cons] at length early
            obtain ⟨other, inner, stop⟩ := ih behind.length (by omega) inside member
              (by simp only [List.length_cons]; omega) rfl
            exact ⟨other, List.mem_cons_of_mem _ inner, stop⟩

/-- What goes on over the raw string ends farther behind by the length of the contents. -/
theorem occurrencesFrom_across {read : Lookbehind α} {before : Option Char} {c : Char}
    {text content lead rest : Text} {item : α} {offset : Nat}
    (found : read before (c :: text ++ (rawString content ++ (lead ++ rest))) = some (item, rest)) :
    occurrencesFrom read offset before (c :: text ++ (rawString content ++ (lead ++ rest))) =
      let stop := offset + (text.length + lead.length + 7) + content.length
      ⟨offset, stop, item, rest⟩ :: occurrencesFrom read stop ('"' :: lead).getLast? rest := by
  have whole : c :: text ++ (rawString content ++ (lead ++ rest)) =
      c :: text ++ (rawString content ++ lead) ++ rest := by simp
  have size : offset + (c :: text ++ (rawString content ++ lead)).length =
      offset + (text.length + lead.length + 7) + content.length := by
    rw [List.length_append, List.length_append, List.length_cons, length_rawString]
    omega
  rw [whole] at found ⊢
  rw [occurrencesFrom_found (by simp) found, getLast?_rawString, size]

section

variable {words : List String} {read : Lookbehind α} {outline : α → β}
  (keywords : ∀ word ∈ words, IsWord word.toList) (refuses : Refuses words read)
  (respects : ∀ before, Respects front back blank outline (read before))

include respects in
/-- Behind the raw string there is one text, read at two offsets. -/
theorem matches_behind {rest : Text} (inside : rest <:+ back) {offset : Nat}
    (late : front.length + 6 ≤ offset)
    (ends : offset + rest.length = front.length + 6 + back.length) (before : Option Char) :
    List.Forall₂ (Matches front back blank outline)
      (occurrencesFrom read (offset + blank.length) before rest)
      (occurrencesFrom read offset before rest) := by
  rw [occurrencesFrom_move, List.forall₂_map_left_iff, List.forall₂_same]
  intro place member
  obtain ⟨last, here, read, suffix, order, start, stop⟩ :=
    exists_read_of_mem_occurrencesFrom (fun before => (respects before).suffix) member
  have behind := (respects last).suffix _ _ _ read
  have longer := suffix.length_le
  exact .behind (behind.trans (suffix.trans inside)) (by omega) order (by omega)

include keywords refuses respects

/-- Nothing is found in the raw string itself. -/
theorem matches_rawString (blanked : IsBlanked blank) (before : Option Char) :
    List.Forall₂ (Matches front back blank outline)
      (occurrencesFrom read front.length before (rawString blank ++ back))
      (occurrencesFrom read front.length before (rawString [] ++ back)) := by
  have passed {content : Text} (blanked : IsBlanked content) :
      occurrencesFrom read front.length before (rawString content ++ back) =
        occurrencesFrom read (front.length + 6 + content.length) (some '"') back := by
    have quiet : IsQuiet words back (rawString content) := by
      refine isQuiet_of_marks keywords fun c inside => ?_
      have mark := of_mem_rawString blanked inside
      rcases mark with rfl | rfl | rfl <;> decide
    rw [occurrencesFrom_quiet refuses quiet, lastFrom_rawString, length_rawString,
      Nat.add_comm content.length, ← Nat.add_assoc]
  rw [passed blanked, passed isBlanked_nil]
  exact matches_behind respects List.suffix_rfl (by omega) rfl (some '"')

theorem matches_occurrencesFrom (blanked : IsBlanked blank) {text : Text} (inside : text <:+ front)
    {offset : Nat} (place : offset + text.length = front.length) (before : Option Char) :
    List.Forall₂ (Matches front back blank outline)
      (occurrencesFrom read offset before (text ++ (rawString blank ++ back)))
      (occurrencesFrom read offset before (text ++ (rawString [] ++ back))) := by
  -- What a reader leaves of the text is shorter, and the search goes on from there.
  induction length : text.length using Nat.strongRecOn generalizing text offset before with
  | _ _ ih =>
    cases text with
    | nil =>
      obtain rfl : offset = front.length := place
      exact matches_rawString keywords refuses respects blanked before
    | cons c text =>
      have next : List.Forall₂ (Matches front back blank outline)
          (occurrencesFrom read (offset + 1) (some c) (text ++ (rawString blank ++ back)))
          (occurrencesFrom read (offset + 1) (some c) (text ++ (rawString [] ++ back))) := by
        refine ih text.length ?_ ((List.suffix_cons c text).trans inside) ?_ (some c) rfl
        · simp [← length]
        · rw [← place, List.length_cons, Nat.add_right_comm]
          rfl
      have here := (respects before).alike (c :: text) inside
      generalize filled : read before (c :: text ++ (rawString blank ++ back)) = first at here
      generalize empty : read before (c :: text ++ (rawString [] ++ back)) = second at here
      cases here with
      | refused =>
        rw [List.cons_append] at filled empty ⊢
        rw [List.cons_append, occurrencesFrom_refused filled, occurrencesFrom_refused empty]
        exact next
      | @before item rest suffix =>
        obtain ⟨lead, same⟩ := (respects before).suffix _ _ _ empty
        rw [← List.append_assoc, List.append_left_inj] at same
        cases lead with
        | nil =>
          obtain rfl : rest = c :: text := same
          rw [List.cons_append] at filled empty ⊢
          rw [List.cons_append, occurrencesFrom_idle filled, occurrencesFrom_idle empty]
          exact next
        | cons d lead =>
          have size : lead.length + rest.length = text.length := by
            simpa using congrArg List.length same
          rw [← same, List.append_assoc] at filled empty
          rw [← same, List.append_assoc, List.append_assoc,
            occurrencesFrom_found (by simp) filled, occurrencesFrom_found (by simp) empty]
          simp only [List.length_cons] at place length ⊢
          refine .cons (.before suffix (by omega) (by omega)) ?_
          exact ih rest.length (by omega) suffix (by omega) _ rfl
      | @across item other rest outlines suffix =>
        obtain ⟨lead, rfl⟩ := suffix
        have suffix : rest <:+ lead ++ rest := List.suffix_append lead rest
        have ends : offset + (text.length + lead.length + 7) + rest.length =
            front.length + 6 + (lead ++ rest).length := by
          rw [List.length_append, ← place, List.length_cons]
          omega
        rw [occurrencesFrom_across filled, occurrencesFrom_across empty, List.length_nil,
          Nat.add_zero]
        rw [List.length_cons] at place
        refine .cons (.across outlines suffix (by omega) ends) ?_
        exact matches_behind respects suffix (by omega) ends _

end

end DeclBridge.Kotlin
