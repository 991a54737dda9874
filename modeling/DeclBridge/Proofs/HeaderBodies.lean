import DeclBridge.Proofs.EnclosedScopes
import DeclBridge.Proofs.SourceOrder

/-! Where the bodies of types begin. A header holds no brace, and its body begins at one. A header
that stands before the body of another one leads to a body that begins no later, since the marks
that are open where it stands can only keep the other one from its body. -/

namespace DeclBridge.Text

/-- What a reader takes away holds no mark at which it stops. -/
theorem StopsAt.exists_append {mark : Char} {read : Text → Option (α × Text)}
    (stops : StopsAt mark read) {text rest : Text} {found : α}
    (taken : read text = some (found, rest)) : ∃ used, text = used ++ rest ∧ mark ∉ used := by
  obtain ⟨used, rfl⟩ := stops.suffix text found rest taken
  refine ⟨used, rfl, fun inside => ?_⟩
  obtain ⟨front, back, rfl, absent⟩ := List.eq_append_cons_of_mem inside
  rw [List.append_assoc, List.cons_append, stops.append _ _ absent] at taken
  obtain ⟨⟨other, behind⟩, -, same⟩ := Option.map_eq_some_iff.mp taken
  have size := congrArg List.length (Prod.mk.inj same).2
  simp only [List.length_append, List.length_cons] at size
  omega

end DeclBridge.Text

namespace DeclBridge.Kotlin

open Text

/-! The search for a body -/

section

variable {rounds angles offset body : Nat} {before ink : Option Char} {text : Text}

/-- The body of a type begins at a brace. -/
theorem getElem?_of_bodyFrom
    (found : bodyFrom rounds angles before ink offset text = some body) :
    text[body - offset]? = some '{' := by
  induction text generalizing rounds angles offset before ink with
  | nil => cases found
  | cons c text ih =>
    rw [bodyFrom_cons] at found
    cases step : bodyStep rounds angles before (continuesHeader ink text) c with
    | ends =>
      rw [step] at found
      cases found
    | opens =>
      rw [step] at found
      obtain rfl : offset = body := Option.some.inj found
      rw [Nat.sub_self, List.getElem?_cons_zero, eq_of_bodyStep_opens step]
    | goesOn rounds angles =>
      rw [step] at found
      have later : offset + 1 ≤ body := le_of_bodyFrom found
      rw [show body - offset = body - (offset + 1) + 1 by omega, List.getElem?_cons_succ]
      exact ih found

/-- Behind a part of the text the search goes on, with the marks that this part leaves open. -/
theorem exists_bodyFrom_append {front : Text}
    (found : bodyFrom rounds angles before ink offset (front ++ text) = some body)
    (late : offset + front.length ≤ body) :
    ∃ rounds angles, bodyFrom rounds angles (lastFrom before front)
      (lastFrom ink (front.filter (!isBlank ·))) (offset + front.length) text = some body := by
  induction front generalizing rounds angles offset before ink with
  | nil => exact ⟨rounds, angles, found⟩
  | cons c front ih =>
    rw [List.length_cons] at late
    rw [List.cons_append, bodyFrom_cons] at found
    cases step : bodyStep rounds angles before (continuesHeader ink (front ++ text)) c with
    | ends =>
      rw [step] at found
      cases found
    | opens =>
      rw [step] at found
      obtain rfl : offset = body := Option.some.inj found
      omega
    | goesOn rounds angles =>
      rw [step] at found
      obtain ⟨rounds, angles, behind⟩ := ih found (by omega)
      refine ⟨rounds, angles, ?_⟩
      rw [List.length_cons, show offset + (front.length + 1) = offset + 1 + front.length by omega,
        lastFrom]
      by_cases blank : isBlank c = true
      · simpa [List.filter_cons, blank] using behind
      · simpa [List.filter_cons, blank, lastFrom] using behind

/-- Where a search with more marks open ends at a brace, so does one with fewer. -/
theorem bodyStep_opens_le {fewer less : Nat} (fewer_le : fewer ≤ rounds) (less_le : less ≤ angles)
    {continues : Bool} {c : Char} (opens : bodyStep rounds angles before continues c = .opens) :
    bodyStep fewer less before continues c = .opens := by
  unfold bodyStep at opens ⊢
  grind

/-- One character leaves no more marks open when fewer were open before it. -/
theorem bodyStep_le {fewer less : Nat} (fewer_le : fewer ≤ rounds) (less_le : less ≤ angles)
    {continues : Bool} {c : Char} {nextRounds nextAngles nextFewer nextLess : Nat}
    (more : bodyStep rounds angles before continues c = .goesOn nextRounds nextAngles)
    (some : bodyStep fewer less before continues c = .goesOn nextFewer nextLess) :
    nextFewer ≤ nextRounds ∧ nextLess ≤ nextAngles := by
  unfold bodyStep at more some
  split at more
  · grind
  split at more
  · grind
  split at more
  · grind
  · grind

/-- A search with fewer marks open ends no later. -/
theorem bodyFrom_le {fewer less earlier : Nat} (fewer_le : fewer ≤ rounds) (less_le : less ≤ angles)
    (found : bodyFrom rounds angles before ink offset text = some body)
    (first : bodyFrom fewer less before ink offset text = some earlier) : earlier ≤ body := by
  induction text generalizing rounds angles fewer less offset before ink with
  | nil => cases found
  | cons c text ih =>
    have late := le_of_bodyFrom found
    rw [bodyFrom_cons] at found first
    cases step : bodyStep rounds angles before (continuesHeader ink text) c with
    | ends =>
      rw [step] at found
      cases found
    | opens =>
      rw [bodyStep_opens_le fewer_le less_le step] at first
      obtain rfl : offset = earlier := Option.some.inj first
      exact late
    | goesOn nextRounds nextAngles =>
      rw [step] at found
      cases other : bodyStep fewer less before (continuesHeader ink text) c with
      | ends =>
        rw [other] at first
        cases first
      | opens =>
        rw [other] at first
        obtain rfl : offset = earlier := Option.some.inj first
        exact late
      | goesOn nextFewer nextLess =>
        rw [other] at first
        obtain ⟨rounds_le, angles_le⟩ := bodyStep_le fewer_le less_le step other
        exact ih rounds_le angles_le found first

end

/-! Headers with bodies -/

theorem isOuter_opener : IsOuter '{' :=
  ⟨rfl, rfl, by decide⟩

/-- A type whose header stands in a text and leads to a body. -/
structure TypeHeader.IsIn (masked : Text) (header : TypeHeader) : Prop where
  named : header.name ≠ []
  keyword : header.start ≤ header.nameStart
  body : bodyOffset masked (header.nameStart + header.name.length) = some header.body
  unopened : ∀ offset, header.start ≤ offset → offset < header.nameStart + header.name.length →
    masked[offset]? ≠ some '{'

section

variable {masked : Text} {header : TypeHeader}

theorem exists_place_of_mem_typeHeaders (member : header ∈ typeHeaders masked) :
    ∃ place ∈ occurrences typeHeader? masked, place.found = header.name ∧
      place.start = header.start ∧ place.stop = header.nameStart + header.name.length ∧
      bodyOffset masked place.stop = some header.body := by
  obtain ⟨place, located, read⟩ := List.mem_filterMap.mp member
  obtain ⟨body, found, rfl⟩ := Option.map_eq_some_iff.mp read
  refine ⟨place, located, rfl, rfl, ?_, found⟩
  have named := isNamedPlace_of_mem List.suffix_rfl (Nat.zero_add masked.length) located
  have inside := named.inside.length_le
  rw [List.length_append, ← named.ends] at inside
  dsimp only
  omega

theorem isIn_of_mem_typeHeaders (member : header ∈ typeHeaders masked) : header.IsIn masked := by
  obtain ⟨place, located, found, start, stop, body⟩ := exists_place_of_mem_typeHeaders member
  obtain ⟨before, here, read, ⟨front, rfl⟩, order, begun, ended⟩ :=
    exists_read_of_mem_occurrencesFrom
      (fun before => (isOuter_quote.stopsAt_typeHeader? before).suffix) located
  have name := (suffix_of_typeHeader? read).length_le
  obtain ⟨used, rfl, absent⟩ := (isOuter_opener.stopsAt_typeHeader? before).exists_append read
  refine ⟨?_, ?_, stop ▸ body, ?_⟩
  · rw [← found]
    exact (isWord_of_typeHeader? read).nonempty
  · rw [List.length_append, found] at name
    omega
  · intro offset late early opens
    simp only [List.length_append] at begun ended
    apply absent
    rw [List.getElem?_append_right (by omega), List.getElem?_append_left (by omega)] at opens
    exact List.mem_of_getElem? opens

/-- Each header stands behind the one before it. -/
theorem pairwise_typeHeaders (masked : Text) :
    (typeHeaders masked).Pairwise fun first second =>
      first.nameStart + first.name.length ≤ second.start := by
  refine List.Pairwise.filterMap _ ?_ (List.Pairwise.and_mem.mp
    (pairwise_occurrencesFrom typeHeader? 0 none masked))
  rintro first second ⟨located, -, apart⟩ header read other behind
  obtain ⟨_, -, rfl⟩ := Option.map_eq_some_iff.mp read
  obtain ⟨_, -, rfl⟩ := Option.map_eq_some_iff.mp behind
  have named := isNamedPlace_of_mem List.suffix_rfl (Nat.zero_add masked.length) located
  have inside := named.inside.length_le
  rw [List.length_append, ← named.ends] at inside
  dsimp only
  omega

namespace TypeHeader.IsIn

variable (isIn : header.IsIn masked)
include isIn

/-- The body begins at a brace. -/
theorem opens : masked[header.body]? = some '{' := by
  have here := getElem?_of_bodyFrom isIn.body
  have late := le_of_bodyFrom isIn.body
  rw [List.getElem?_drop] at here
  rwa [show header.nameStart + header.name.length +
    (header.body - (header.nameStart + header.name.length)) = header.body by omega] at here

theorem begins : header.start < header.nameStart + header.name.length := by
  have nonempty := List.length_pos_iff.mpr isIn.named
  have keyword := isIn.keyword
  omega

theorem stop_le_body : header.nameStart + header.name.length ≤ header.body :=
  le_of_bodyFrom isIn.body

theorem start_lt_body : header.start < header.body :=
  Nat.lt_of_lt_of_le isIn.begins isIn.stop_le_body

theorem body_lt_length : header.body < masked.length := by
  obtain ⟨inside, -⟩ := List.getElem?_eq_some_iff.mp isIn.opens
  exact inside

end TypeHeader.IsIn

/-- A brace before which a header begins stands behind the header. -/
theorem TypeHeader.IsIn.stop_le (isIn : header.IsIn masked) {offset : Nat}
    (late : header.start ≤ offset) (opens : masked[offset]? = some '{') :
    header.nameStart + header.name.length ≤ offset := by
  by_contra early
  exact isIn.unopened offset late (Nat.lt_of_not_le early) opens

/-- The header that starts first ends before the other one starts. -/
theorem stop_le_start {first second : TypeHeader} (isFirst : first ∈ typeHeaders masked)
    (isSecond : second ∈ typeHeaders masked) (early : first.start < second.start) :
    first.nameStart + first.name.length ≤ second.start := by
  have apart := List.pairwise_iff_getElem.mp (pairwise_typeHeaders masked)
  have begins := (isIn_of_mem_typeHeaders isSecond).begins
  obtain ⟨place, inside, rfl⟩ := List.getElem_of_mem isFirst
  obtain ⟨other, otherInside, rfl⟩ := List.getElem_of_mem isSecond
  rcases Nat.lt_trichotomy place other with before | rfl | behind
  · exact apart place other inside otherInside before
  · exact absurd early (Nat.lt_irrefl _)
  · have reversed := apart other place otherInside inside behind
    omega

/-- A text from an offset on is what stands before a later offset, and the text from there on. -/
theorem drop_eq_append (text : Text) {offset later : Nat} (offset_le : offset ≤ later) :
    text.drop offset = (text.take later).drop offset ++ text.drop later := by
  rw [List.drop_take]
  nth_rewrite 1 [← List.take_append_drop (later - offset) (text.drop offset)]
  rw [List.drop_drop, Nat.add_sub_cancel' offset_le]

/-- A header in front of the body of an earlier one leads to a body that begins no later. -/
theorem body_le_body {first second : TypeHeader} (isFirst : first.IsIn masked)
    (isSecond : second.IsIn masked)
    (behind : first.nameStart + first.name.length ≤ second.start)
    (inside : second.start < first.body) : second.body ≤ first.body := by
  have stop_le := isSecond.stop_le (Nat.le_of_lt inside) isFirst.opens
  have begins := isSecond.begins
  obtain ⟨lead, front, rest, rfl, isLead, isFront⟩ : ∃ lead front rest,
      masked = lead ++ (front ++ rest) ∧
      first.nameStart + first.name.length = lead.length ∧
      second.nameStart + second.name.length = (lead ++ front).length := by
    have short := isFirst.body_lt_length
    have between := @drop_eq_append masked (first.nameStart + first.name.length)
      (second.nameStart + second.name.length) (by omega)
    have whole := List.take_append_drop (first.nameStart + first.name.length) masked
    rw [between] at whole
    refine ⟨_, _, _, whole.symm, ?_, ?_⟩
    · rw [List.length_take]
      omega
    · rw [List.length_append, List.length_take, List.length_drop, List.length_take]
      omega
  have found := isFirst.body
  have other := isSecond.body
  rw [isLead, bodyOffset_split] at found
  rw [isFront, ← List.append_assoc, bodyOffset_split, List.filter_append] at other
  rw [isFront, List.length_append] at stop_le
  obtain ⟨rounds, angles, later⟩ := exists_bodyFrom_append found stop_le
  rw [lastFrom_getLast?, lastFrom_getLast?, ← List.length_append] at later
  exact bodyFrom_le (Nat.zero_le rounds) (Nat.zero_le angles) later other

end

end DeclBridge.Kotlin
