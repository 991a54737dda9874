import DeclBridge.Proofs.EnclosedSources

/-! The types of a source within another one. A type header between a lead and a tail has the body
that it has alone, and braces that are nested leave the types around them as they are. -/

namespace DeclBridge.Kotlin

open Text Syntax

variable {lead tail : Text}

/-! Bodies -/

section

variable {rounds angles offset : Nat} {before ink : Option Char}

theorem eq_of_bodyStep_opens {continues : Bool} {c : Char}
    (opens : bodyStep rounds angles before continues c = .opens) : c = '{' := by
  unfold bodyStep at opens
  grind

/-- Only line breaks look at the text behind them. -/
theorem bodyStep_congr {c : Char} (visible : c ≠ '\n') (continues other : Bool) :
    bodyStep rounds angles before continues c = bodyStep rounds angles before other c := by
  simp [bodyStep, visible]

theorem bodyFrom_eq_none {text : Text} (unopened : '{' ∉ text) :
    bodyFrom rounds angles before ink offset text = none := by
  induction text generalizing rounds angles offset before ink with
  | nil => rfl
  | cons c text ih =>
    rw [List.mem_cons, not_or] at unopened
    rw [bodyFrom_cons]
    cases step : bodyStep rounds angles before (continuesHeader ink text) c with
    | ends => rfl
    | opens => exact absurd (eq_of_bodyStep_opens step).symm unopened.1
    | goesOn rounds angles => exact ih unopened.2

/-- Unless nothing but blanks is left, the tail does not tell whether a header goes on. -/
theorem continuesHeader_tail (outer : IsOuterTail tail) (ink : Option Char) {text : Text}
    (visible : skipBlanks text ≠ []) :
    continuesHeader ink (text ++ tail) = continuesHeader ink text := by
  have skipped : skipBlanks (text ++ tail) = skipBlanks text ++ tail :=
    Option.some.inj (outer.skipBlanks.skip text)
  have named : KeepsTail tail (passing (literal? "where")) :=
    .of_stopsAt outer fun mark isOuter => stopsAt_literal?
      ((by decide : IsWord "where".toList).not_mem isOuter.outside)
  rw [continuesHeader, continuesHeader, skipped]
  obtain ⟨c, more, same⟩ := List.exists_cons_of_ne_nil visible
  have here := congrArg Option.isSome (named.skip (c :: more))
  rw [Option.isSome_map, List.cons_append] at here
  rw [same, List.cons_append]
  simp only [here]

/-- A body does not begin in a text without opening braces. -/
theorem bodyFrom_tail (outer : IsOuterTail tail) (unopened : '{' ∉ tail) (text : Text) :
    bodyFrom rounds angles before ink offset (text ++ tail) =
      bodyFrom rounds angles before ink offset text := by
  induction text generalizing rounds angles offset before ink with
  | nil => exact bodyFrom_eq_none unopened
  | cons c text ih =>
    by_cases last : c = '\n' ∧ skipBlanks text = []
    · -- whether or not the header goes on over the tail, no body follows
      obtain ⟨rfl, blank⟩ := last
      have blanks : ∀ d ∈ text, isBlank d = true := List.dropWhile_eq_nil_iff.mp blank
      have absent : '{' ∉ '\n' :: text := by
        rw [List.mem_cons, not_or]
        refine ⟨by decide, fun inside => ?_⟩
        exact absurd (blanks _ inside) (by decide)
      rw [bodyFrom_eq_none absent, bodyFrom_eq_none]
      rw [List.mem_append, not_or]
      exact ⟨absent, unopened⟩
    · have step : bodyStep rounds angles before (continuesHeader ink (text ++ tail)) c =
          bodyStep rounds angles before (continuesHeader ink text) c := by
        by_cases visible : c = '\n'
        · rw [continuesHeader_tail outer ink fun blank => last ⟨visible, blank⟩]
        · exact bodyStep_congr visible _ _
      rw [List.cons_append, bodyFrom_cons, bodyFrom_cons, step]
      cases bodyStep rounds angles before (continuesHeader ink text) c with
      | ends | opens => rfl
      | goesOn rounds angles => exact ih

end

/-! Type headers -/

/-- The place of a name in a text, with what stands behind it. -/
structure IsNamedPlace (masked : Text) (place : Occurrence Text) : Prop where
  isWord : IsWord place.found
  inside : place.found ++ place.rest <:+ masked
  ends : place.stop + place.rest.length = masked.length

theorem isNamedPlace_of_mem {masked text : Text} {offset : Nat} {before : Option Char}
    {place : Occurrence Text} (inside : text <:+ masked)
    (ends : offset + text.length = masked.length)
    (member : place ∈ occurrencesFrom typeHeader? offset before text) :
    IsNamedPlace masked place := by
  obtain ⟨_, here, read, suffix, -, -, stop⟩ := exists_read_of_mem_occurrencesFrom
    (fun before => (isOuter_quote.stopsAt_typeHeader? before).suffix) member
  exact ⟨isWord_of_typeHeader? read, (suffix_of_typeHeader? read).trans (suffix.trans inside),
    stop.trans ends⟩

theorem bodyOffset_enclose (outer : IsOuterTail tail) (unopened : '{' ∉ tail) {masked : Text}
    {place : Occurrence Text} (named : IsNamedPlace masked place) :
    bodyOffset (lead ++ (masked ++ tail)) (place.stop + lead.length) =
      (bodyOffset masked place.stop).map (· + lead.length) := by
  obtain ⟨isWord, ⟨front, rfl⟩, ends⟩ := named
  have stop : place.stop = (front ++ place.found).length := by
    simp only [List.length_append] at ends ⊢
    omega
  have nonempty : front ++ place.found ≠ [] := by simp [isWord.nonempty]
  have visible : (front ++ place.found).filter (!isBlank ·) ≠ [] := by
    obtain ⟨c, more, same⟩ := List.exists_cons_of_ne_nil isWord.nonempty
    have ink := isBlank_of_isWordChar (isWord.wordChars c (by simp [same]))
    simp [same, ink]
  have last {text : Text} (front : Text) (nonempty : text ≠ []) :
      (front ++ text).getLast? = text.getLast? := by
    rw [List.getLast?_append, List.getLast?_eq_some_getLast nonempty, Option.some_or]
  have whole : lead ++ (front ++ (place.found ++ place.rest) ++ tail) =
      lead ++ (front ++ place.found) ++ (place.rest ++ tail) := by simp
  have length : place.stop + lead.length = (lead ++ (front ++ place.found)).length := by
    rw [List.length_append, stop, Nat.add_comm]
  rw [whole, length, bodyOffset_split, ← length, List.filter_append, last lead nonempty,
    last _ visible, bodyFrom_tail outer unopened, bodyFrom_move, stop, ← List.append_assoc,
    bodyOffset_split]

/-- The type whose header stands at a place, if it has a body. -/
def typeHeaderAt (masked : Text) (place : Occurrence Text) : Option TypeHeader :=
  (bodyOffset masked place.stop).map fun body =>
    ⟨place.found, place.start, place.stop - place.found.length, body⟩

theorem typeHeaders_eq (masked : Text) :
    typeHeaders masked = (occurrences typeHeader? masked).filterMap (typeHeaderAt masked) :=
  rfl

theorem typeHeaderAt_enclose (outer : IsOuterTail tail) (unopened : '{' ∉ tail) {masked : Text}
    {place : Occurrence Text} (named : IsNamedPlace masked place) :
    typeHeaderAt (lead ++ (masked ++ tail)) (place.enclose lead.length tail) =
      (typeHeaderAt masked place).map (·.place (· + lead.length)) := by
  have nameStart : place.stop + lead.length - place.found.length =
      place.stop - place.found.length + lead.length := by
    have bound := named.inside.length_le
    have ends := named.ends
    rw [List.length_append] at bound
    omega
  rw [typeHeaderAt, Occurrence.enclose, bodyOffset_enclose outer unopened named, Option.map_map,
    typeHeaderAt, Option.map_map]
  dsimp only
  rw [nameStart]
  rfl

theorem filterMap_typeHeaderAt_enclose (outer : IsOuterTail tail) (unopened : '{' ∉ tail)
    {masked text : Text} {offset : Nat} {before : Option Char} (inside : text <:+ masked)
    (ends : offset + text.length = masked.length) :
    (occurrencesFrom typeHeader? (offset + lead.length) before (text ++ tail)).filterMap
        (typeHeaderAt (lead ++ (masked ++ tail))) =
      ((occurrencesFrom typeHeader? offset before text).filterMap (typeHeaderAt masked)).map
        (·.place (· + lead.length)) := by
  have keeps (before : Option Char) : KeepsTail tail (typeHeader? before) :=
    .of_stopsAt outer fun _ mark => mark.stopsAt_typeHeader? before
  have quiet := occurrencesFrom_marks (by decide) refuses_type outer.marks
  rw [occurrencesFrom_enclose keeps quiet, List.filterMap_map, List.map_filterMap]
  refine List.filterMap_congr fun place member => ?_
  exact typeHeaderAt_enclose outer unopened (isNamedPlace_of_mem inside ends member)

/-! Scopes -/

theorem strictMono_add (distance : Nat) : StrictMono (· + distance) :=
  fun _ _ less => Nat.add_lt_add_right less distance

theorem scopesFrom_move (headers : List TypeHeader) (distance offset : Nat)
    (stack : List (Option TypeHeader)) (text : Text) :
    scopesFrom (headers.map (·.place (· + distance))) (offset + distance)
        (stack.map (Option.map (·.place (· + distance)))) text =
      (scopesFrom headers offset stack text).place (· + distance) := by
  have moved : scopesFrom (headers.map (·.place (· + distance))) (offset + distance)
        (stack.map (Option.map (·.place (· + distance)))) (text ++ []) =
      (scopesFrom headers offset stack (text ++ [])).place (· + distance) := by
    refine scopesFrom_place (strictMono_add distance) (fun _ _ => Nat.add_right_comm _ _ _) ?_ stack
    intro stack
    exact @scopesFrom_nil_place (· + distance) headers _ stack _
  rwa [List.append_nil] at moved

end DeclBridge.Kotlin
