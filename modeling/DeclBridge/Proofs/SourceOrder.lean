import DeclBridge.Proofs.DeclarationReadings

/-! The order of what the scanner answers with. Headers of one kind are found in one pass over the
text, so their declarations come in the order of their headers. Streams are found in two passes, the
functions before the properties, and are in order only when all functions stand first. -/

namespace DeclBridge.Text

variable {α β : Type}

/-- Reading on keeps what was found and where. -/
theorem Occurrence.readOn_eq {read : Text → Option (β × Text)} {place : Occurrence α}
    {reading : Occurrence (Reading α β)} (found : place.readOn read = some reading) :
    reading.start = place.start ∧ reading.found.header = place.found := by
  obtain ⟨_, -, rfl⟩ := Option.map_eq_some_iff.mp found
  exact ⟨rfl, rfl⟩

/-- The search goes on behind what was found. -/
theorem pairwise_occurrencesFrom (read : Lookbehind α) (offset : Nat) (before : Option Char)
    (text : Text) :
    (occurrencesFrom read offset before text).Pairwise fun first second =>
      first.stop ≤ second.start := by
  fun_induction occurrencesFrom read offset before text with
  | case1 => exact .nil
  | case2 offset before c text refused ih | case4 offset before c text item rest found longer ih =>
    exact ih
  | case3 offset before c text item rest found bound used ih =>
    refine .cons ?_ ih
    intro place member
    exact le_start_of_mem_occurrencesFrom member

theorem stop_le_start_of_mem_occurrencesFrom {read : Lookbehind α} {offset : Nat}
    {before : Option Char} {text : Text} {first second : Occurrence α}
    (isFirst : first ∈ occurrencesFrom read offset before text)
    (isSecond : second ∈ occurrencesFrom read offset before text)
    (early : first.start < second.start) : first.stop ≤ second.start := by
  fun_induction occurrencesFrom read offset before text with
  | case1 => cases isFirst
  | case2 offset before c text refused ih | case4 offset before c text item rest found longer ih =>
    exact ih isFirst isSecond
  | case3 offset before c text item rest found bound used ih =>
    rcases List.mem_cons.mp isFirst with rfl | isFirst
    · rcases List.mem_cons.mp isSecond with rfl | isSecond
      · exact absurd early (Nat.lt_irrefl _)
      · exact le_start_of_mem_occurrencesFrom isSecond
    · rcases List.mem_cons.mp isSecond with rfl | isSecond
      · have late := le_start_of_mem_occurrencesFrom isFirst
        dsimp only at early
        omega
      · exact ih isFirst isSecond

end DeclBridge.Text

namespace DeclBridge.Kotlin

open Text

variable {α β γ : Type}

/-- What is taken away in front of the rest of a text. -/
theorem exists_taken {c : Char} {text rest : Text} (suffix : rest <:+ c :: text)
    (bound : rest.length ≤ text.length) :
    ∃ used, (c :: text).take (text.length + 1 - rest.length) = used ∧ used ≠ [] ∧
      c :: text = used ++ rest := by
  obtain ⟨used, whole⟩ := suffix
  have length := congrArg List.length whole
  rw [List.length_append, List.length_cons] at length
  refine ⟨used, ?_, ?_, whole.symm⟩
  · rw [← whole, show text.length + 1 - rest.length = used.length by omega, List.take_left]
  · rintro rfl
    rw [List.length_nil] at length
    omega

/-- What can be read at a place is found there, unless something found earlier reaches over it. -/
theorem found_or_covered {read : Lookbehind α}
    (suffix : ∀ before text found rest, read before text = some (found, rest) → rest <:+ text)
    {offset : Nat} {before : Option Char} {whole front text rest : Text} {found : α}
    (same : whole = front ++ text) (reads : read (lastFrom before front) text = some (found, rest))
    (shorter : rest.length < text.length) :
    (∃ place ∈ occurrencesFrom read offset before whole,
        place.start = offset + front.length ∧ place.found = found ∧ place.rest = rest) ∨
      ∃ place ∈ occurrencesFrom read offset before whole,
        place.start < offset + front.length ∧ offset + front.length < place.stop := by
  fun_induction occurrencesFrom read offset before whole generalizing front with
  | case1 =>
    obtain ⟨-, rfl⟩ := List.append_eq_nil_iff.mp same.symm
    cases shorter
  | case2 offset before c cs refused ih =>
    cases front with
    | nil =>
      obtain rfl : c :: cs = text := same
      cases refused.symm.trans reads
    | cons d front =>
      obtain ⟨rfl, rfl⟩ := List.cons.inj same
      rw [List.length_cons, Nat.add_comm front.length, ← Nat.add_assoc]
      exact ih rfl reads
  | case3 offset before c cs item behind taken bound used =>
    rename_i ih
    obtain ⟨lead, isUsed, nonempty, whole⟩ := exists_taken (suffix _ _ _ _ taken) bound
    obtain rfl : lead = used := isUsed.symm
    clear_value used
    -- The place lies in what is found here, or it is one for the search behind it.
    by_cases early : front.length < used.length
    · cases front with
      | nil =>
        obtain rfl : c :: cs = text := same
        obtain ⟨rfl, rfl⟩ := Prod.mk.inj (Option.some.inj (taken.symm.trans reads))
        exact .inl ⟨_, List.mem_cons_self, by simp, rfl, rfl⟩
      | cons d front =>
        right
        refine ⟨_, List.mem_cons_self, ?_, ?_⟩ <;> simp only [List.length_cons] at early ⊢ <;> omega
    · obtain ⟨more, rfl⟩ : used <+: front :=
        List.prefix_of_prefix_length_le ⟨behind, whole.symm⟩ ⟨text, same.symm⟩
          (Nat.le_of_not_lt early)
      have behind_eq : behind = more ++ text := by
        rw [whole, List.append_assoc] at same
        exact List.append_cancel_left same
      have last : lastFrom before used = used.getLast? := by
        obtain ⟨d, others, equal⟩ := List.exists_cons_of_ne_nil nonempty
        rw [equal]
        exact lastFrom_getLast? [d] others
      rw [lastFrom_append, last] at reads
      rw [List.length_append, ← Nat.add_assoc]
      rcases ih behind_eq reads with ⟨place, member, found⟩ | ⟨place, member, found⟩
      · exact .inl ⟨place, List.mem_cons_of_mem _ member, found⟩
      · exact .inr ⟨place, List.mem_cons_of_mem _ member, found⟩
  | case4 offset before c cs item behind taken longer ih =>
    cases front with
    | nil =>
      obtain rfl : c :: cs = text := same
      obtain ⟨rfl, rfl⟩ := Prod.mk.inj (Option.some.inj (taken.symm.trans reads))
      exact absurd (Nat.le_of_lt_succ shorter) longer
    | cons d front =>
      obtain ⟨rfl, rfl⟩ := List.cons.inj same
      rw [List.length_cons, Nat.add_comm front.length, ← Nat.add_assoc]
      exact ih rfl reads

/-- Readings in the order of a text, each at the offset of its header. -/
structure IsInOrder (header? : Text → Option (α × Text)) (text : Text)
    (readings : List (Occurrence (Reading α β))) : Prop where
  increasing : readings.Pairwise fun first second => first.start < second.start
  headers : ∀ reading ∈ readings, ∃ rest,
    header? (text.drop reading.start) = some (reading.found.header, rest)

namespace IsInOrder

variable {header? : Text → Option (α × Text)} {text : Text}

theorem sublist {readings fewer : List (Occurrence (Reading α β))}
    (order : IsInOrder header? text readings) (part : fewer.Sublist readings) :
    IsInOrder header? text fewer where
  increasing := order.increasing.sublist part
  headers reading member := order.headers reading (part.subset member)

/-- What is read behind the headers that one pass finds. -/
theorem of_occurrences
    (suffix : ∀ text found rest, header? text = some (found, rest) → rest <:+ text)
    (read : Text → Option (β × Text)) :
    IsInOrder header? text
      ((occurrences (fun _ => header?) text).filterMap (·.readOn read)) where
  increasing := by
    refine List.Pairwise.filterMap _ ?_ (List.Pairwise.and_mem.mp
      (pairwise_occurrencesFrom (fun _ => header?) 0 none text))
    rintro first second ⟨member, -, apart⟩ reading found other located
    rw [(Occurrence.readOn_eq found).1, (Occurrence.readOn_eq located).1]
    exact Nat.lt_of_lt_of_le (start_lt_stop_of_mem_occurrencesFrom member) apart
  headers reading member := by
    obtain ⟨place, located, found⟩ := List.mem_filterMap.mp member
    obtain ⟨start, header⟩ := Occurrence.readOn_eq found
    obtain ⟨_, here, begun, ⟨front, rfl⟩, -, offset, -⟩ :=
      exists_read_of_mem_occurrencesFrom (fun _ => suffix) located
    have size : front.length = reading.start := by
      rw [List.length_append] at offset
      omega
    refine ⟨place.rest, ?_⟩
    rw [← size, List.drop_left, header]
    exact begun

end IsInOrder

namespace Source

variable (source : Source)

theorem isInOrder_places {names : List String} (unquoted : ∀ name ∈ names, '"' ∉ name.toList)
    {header? : Text → Option (α × Text)} {outline : α → γ}
    (respects : Respects [] [] [] outline header?) (read : Text → Option (β × Text)) :
    IsInOrder (marked? names header?) source.masked
      ((source.places fun _ => marked? names header?).filterMap (·.readOn read)) := by
  have marker := respects_marked? [] List.not_mem_nil isBlanked_nil unquoted respects
  exact (IsInOrder.of_occurrences marker.suffix read).sublist (List.filter_sublist.filterMap _)

theorem isInOrder_sumReadings :
    IsInOrder (marked? ["SwiftEnum"] sealedHeader?) source.masked source.sumReadings := by
  have header : Respects [] [] [] id sealedHeader? :=
    .of_stopsAt isOuter_quote.stopsAt_sealedHeader? List.not_mem_nil id
  exact (source.isInOrder_places (by decide) header typeClause?).sublist
    (List.filter_sublist.filterMap _)

theorem isInOrder_asyncReadings :
    IsInOrder (marked? ["SwiftAsync", "SwiftDefaults"] suspendHeader?) source.masked
      source.asyncReadings :=
  source.isInOrder_places (by decide)
    (respects_suspendHeader? [] List.not_mem_nil isBlanked_nil) (behindRound? returnType?)

theorem isInOrder_flowReadings :
    IsInOrder (marked? ["SwiftFlow"] anyFunctionHeader?) source.masked source.flowReadings :=
  (source.isInOrder_places (by decide)
    (respects_anyFunctionHeader? [] List.not_mem_nil isBlanked_nil)
    (behindRound? flowElement?)).sublist List.filter_sublist

theorem isInOrder_propertyReadings :
    IsInOrder (marked? ["SwiftFlow"] flowPropertyHeader?) source.masked
      source.propertyReadings := by
  have header : Respects [] [] [] id flowPropertyHeader? :=
    .of_stopsAt isOuter_quote.stopsAt_flowPropertyHeader? List.not_mem_nil id
  exact (source.isInOrder_places (by decide) header Bracket.angle.inside).sublist
    List.filter_sublist

/-- The offsets of the headers of the streams, as they are answered with. -/
def streamStarts : List Nat :=
  source.flowReadings.map (·.start) ++ source.propertyReadings.map (·.start)

theorem pairwise_streamStarts_iff :
    source.streamStarts.Pairwise (· < ·) ↔
      ∀ function ∈ source.flowReadings, ∀ property ∈ source.propertyReadings,
        function.start < property.start := by
  have functions := source.isInOrder_flowReadings.increasing
  have properties := source.isInOrder_propertyReadings.increasing
  rw [streamStarts, List.pairwise_append, List.pairwise_map, List.pairwise_map]
  constructor
  · rintro ⟨-, -, order⟩ function inside property member
    exact order _ (List.mem_map_of_mem inside) _ (List.mem_map_of_mem member)
  · intro order
    refine ⟨functions, properties, ?_⟩
    intro start first other second
    obtain ⟨function, inside, rfl⟩ := List.mem_map.mp first
    obtain ⟨property, member, rfl⟩ := List.mem_map.mp second
    exact order function inside property member

end Source

/-- The scanner answers with the sum types, then the suspending functions, then the streams. The
first two groups are in the order of their headers in the text. So are the functions among the
streams and the properties among them, but the group as a whole only when no property stands in
front of a function. -/
theorem scan_inOrder (text : Text) :
    let source := Source.ofText text
    scan text = source.sumReadings.map (fun reading => .sum (source.sumOf reading)) ++
      source.asyncReadings.map (fun reading => .async (source.asyncOf reading)) ++
      (source.flowReadings.map (fun reading => .stream (source.flowOf reading)) ++
        source.propertyReadings.map (fun reading => .stream (source.propertyOf reading))) ∧
    IsInOrder (marked? ["SwiftEnum"] sealedHeader?) source.masked source.sumReadings ∧
    IsInOrder (marked? ["SwiftAsync", "SwiftDefaults"] suspendHeader?) source.masked
      source.asyncReadings ∧
    IsInOrder (marked? ["SwiftFlow"] anyFunctionHeader?) source.masked source.flowReadings ∧
    IsInOrder (marked? ["SwiftFlow"] flowPropertyHeader?) source.masked source.propertyReadings ∧
    (source.streamStarts.Pairwise (· < ·) ↔
      ∀ function ∈ source.flowReadings, ∀ property ∈ source.propertyReadings,
        function.start < property.start) := by
  intro source
  refine ⟨?_, source.isInOrder_sumReadings, source.isInOrder_asyncReadings,
    source.isInOrder_flowReadings, source.isInOrder_propertyReadings,
    source.pairwise_streamStarts_iff⟩
  rw [← Source.map_placed, Source.placed]
  simp only [List.map_append, List.map_map, List.append_assoc]
  rfl

/-- A property in front of a function is answered with behind it. -/
theorem not_pairwise_streamStarts :
    let source := Source.ofText "val p: Flow<Int>\nfun f(): Flow<Int>".toList
    source.streamStarts = [17, 0] ∧ ¬source.streamStarts.Pairwise (· < ·) := by
  decide +kernel

end DeclBridge.Kotlin
