import DeclBridge.Proofs.CaseAttribution
import DeclBridge.Proofs.HeaderKeywords
import DeclBridge.Proofs.TypeExtents

/-! Types that are never closed. From the keyword of such a type on, no header counts. A sealed type
that is never closed does not count even where its own header begins earlier, with a marker or with
modifiers, unless it is another type, in the arguments of the marker, that has its body. -/

namespace DeclBridge.Kotlin

open Text Syntax

variable {α : Type}

/-! Headers of sealed types -/

def typeWords : List String :=
  ["class", "interface", "object"]

theorem isWord_of_mem_typeWords : ∀ word ∈ typeWords, IsWord word.toList := by
  decide

/-- The header of a sealed type is that of a type behind a text in which no type header begins. -/
theorem exists_of_sealedHeader? {text name rest : Text}
    (read : sealedHeader? text = some (name, rest)) :
    ∃ lead blanks here, IsGap blanks ∧ text = lead ++ "sealed".toList ++ blanks ++ here ∧
      IsQuiet typeWords here (lead ++ "sealed".toList ++ blanks) ∧
      ∀ before, atBoundary before = true → typeHeader? before here = some (name, rest) := by
  obtain ⟨behind, isSealed, read⟩ := Option.bind_eq_some_iff.mp read
  obtain ⟨⟨keyword, after⟩, found, named⟩ := Option.bind_eq_some_iff.mp read
  obtain ⟨lead, modified, whole⟩ := exists_skipModifiers text
  have quiet : IsQuiet typeWords (skipModifiers text) lead :=
    modified.isQuiet isWord_of_mem_typeWords (by decide) _
  obtain ⟨blanks, gap, same⟩ := exists_gap_of_keyword? isSealed
  refine ⟨lead, blanks, behind, gap, ?_, ?_, ?_⟩
  · rw [List.append_assoc, List.append_assoc, ← same]
    exact whole
  · rw [same, ← List.append_assoc] at quiet
    rw [List.append_assoc]
    exact quiet.append (isQuiet_keyword isWord_of_mem_typeWords (by decide) (by decide) gap behind)
  · intro before boundary
    have either : oneKeyword? ["class", "interface", "object"] behind = some (keyword, after) := by
      unfold oneKeyword? at found ⊢
      have parts : ["class", "interface", "object"] = ["class", "interface"] ++ ["object"] := rfl
      rw [parts, List.findSome?_append, found]
      rfl
    rw [typeHeader?, if_pos boundary, either]
    exact named

/-- The header of a type is its keyword, blanks and its name. -/
theorem exists_of_typeHeader? {before : Option Char} {text name rest : Text}
    (read : typeHeader? before text = some (name, rest)) :
    ∃ keyword ∈ typeWords, ∃ blanks, IsGap blanks ∧ IsWord name ∧
      text = keyword.toList ++ blanks ++ name ++ rest := by
  have isWord := isWord_of_typeHeader? read
  unfold typeHeader? at read
  split at read
  · obtain ⟨⟨keyword, behind⟩, found, named⟩ := Option.bind_eq_some_iff.mp read
    obtain ⟨member, found⟩ := exists_of_oneKeyword? found
    obtain ⟨blanks, gap, rfl⟩ := exists_gap_of_keyword? found
    refine ⟨keyword, member, blanks, gap, isWord, ?_⟩
    rw [List.append_assoc, List.append_assoc, append_of_word? named]
  · cases read

theorem isTrimmedEnd_append_word {word : Text} (isWord : IsWord word) (front : Text) :
    IsTrimmedEnd (front ++ word) := by
  refine IsTrimmedEnd.append_left (isTrimmedEnd_iff.mpr fun c last => ?_) isWord.nonempty front
  exact isBlank_of_isWordChar (isWord.wordChars c (List.mem_of_getLast? last))

/-- What a part of a type header ends with a blank is its keyword with blanks. -/
theorem exists_of_part {keyword blanks name part more : Text} {c : Char}
    (isKeyword : IsWord keyword) (isName : IsWord name) (gap : ∀ c ∈ blanks, isBlank c = true)
    (same : keyword ++ blanks ++ name = part ++ more) (last : part.getLast? = some c)
    (blank : isBlank c = true) :
    ∃ taken, part = keyword ++ taken ∧ ∀ c ∈ taken, isBlank c = true := by
  have inside (word : Text) (isWord : IsWord word) : c ∉ word := by
    intro member
    rw [isBlank_of_isWordChar (isWord.wordChars c member)] at blank
    cases blank
  rw [List.append_assoc] at same
  rcases List.append_eq_append_iff.mp same with ⟨taken, rfl, back⟩ | ⟨beyond, split, -⟩
  · refine ⟨taken, rfl, ?_⟩
    rcases List.append_eq_append_iff.mp back with ⟨begun, rfl, named⟩ | ⟨left, rfl, -⟩
    · cases begun with
      | nil => simpa using gap
      | cons d begun =>
        have member : c ∈ d :: begun := by
          rw [← List.append_assoc,
            List.getLast?_append_of_ne_nil _ (List.cons_ne_nil d begun)] at last
          exact List.mem_of_getLast? last
        refine absurd ?_ (inside name isName)
        rw [named]
        exact List.mem_append_left more member
    · exact (List.forall_mem_append.mp gap).1
  · exact absurd (by simp [split, List.mem_of_getLast? last]) (inside keyword isKeyword)

/-- The word before blanks is not `sealed` and the keyword of a type at once. -/
theorem sealed_append_ne {lead blanks front taken : Text} {keyword : String}
    (isType : keyword ∈ typeWords) (gap : IsGap blanks) (blank : ∀ c ∈ taken, isBlank c = true) :
    lead ++ "sealed".toList ++ blanks ≠ front ++ (keyword.toList ++ taken) := by
  intro same
  have isKeyword := isWord_of_mem_typeWords keyword isType
  have words := congrArg trimEnd same
  rw [trimEnd_append_blanks (isTrimmedEnd_append_word (by decide) lead) gap.blank,
    ← List.append_assoc,
    trimEnd_append_blanks (isTrimmedEnd_append_word isKeyword front) blank] at words
  have ends := congrArg List.getLast? words
  rw [List.getLast?_append_of_ne_nil _ (by decide),
    List.getLast?_append_of_ne_nil _ isKeyword.nonempty] at ends
  have differs : ∀ keyword ∈ typeWords, "sealed".toList.getLast? ≠ keyword.toList.getLast? := by
    decide
  exact differs keyword isType ends

/-- No type header reaches from the blanks behind `sealed` on. -/
theorem stop_le_of_sealed {masked lead blanks here : Text} (gap : IsGap blanks)
    (whole : masked = lead ++ "sealed".toList ++ blanks ++ here) {place : Occurrence Text}
    (member : place ∈ occurrences typeHeader? masked)
    (early : place.start < (lead ++ "sealed".toList ++ blanks).length) :
    place.stop ≤ (lead ++ "sealed".toList ++ blanks).length := by
  by_contra late
  obtain ⟨before, text, read, ⟨front, rfl⟩, -, begins, ends⟩ := exists_read_of_mem_occurrencesFrom
    (fun before => (isOuter_quote.stopsAt_typeHeader? before).suffix) member
  obtain ⟨keyword, isType, others, otherGap, isName, rfl⟩ := exists_of_typeHeader? read
  have isKeyword := isWord_of_mem_typeWords keyword isType
  obtain ⟨part, lead_eq, split⟩ : ∃ part, lead ++ "sealed".toList ++ blanks = front ++ part ∧
      keyword.toList ++ others ++ place.found ++ place.rest = part ++ here := by
    rcases List.append_eq_append_iff.mp whole with ⟨part, same, back⟩ | ⟨beyond, same, -⟩
    · exact ⟨part, same, back⟩
    · have length := congrArg List.length same
      simp only [List.length_append] at length begins early
      omega
  obtain ⟨more, used⟩ : ∃ more, keyword.toList ++ others ++ place.found = part ++ more := by
    rcases List.append_eq_append_iff.mp split with ⟨beyond, same, -⟩ | ⟨more, same, -⟩
    · have length := congrArg List.length same
      have size := congrArg List.length lead_eq
      simp only [List.length_append] at length size begins ends early late
      omega
    · exact ⟨more, same⟩
  obtain ⟨c, last⟩ : ∃ c, blanks.getLast? = some c :=
    ⟨_, List.getLast?_eq_some_getLast gap.nonempty⟩
  have blank : isBlank c = true := gap.blank c (List.mem_of_getLast? last)
  have nonempty : part ≠ [] := by
    rintro rfl
    rw [lead_eq, List.append_nil] at early
    simp only [List.length_append] at begins
    omega
  have partLast : part.getLast? = some c := by
    have both := congrArg List.getLast? lead_eq
    rwa [List.getLast?_append_of_ne_nil _ gap.nonempty,
      List.getLast?_append_of_ne_nil _ nonempty, last, eq_comm] at both
  obtain ⟨taken, rfl, allBlank⟩ :=
    exists_of_part isKeyword isName otherGap.blank used partLast blank
  exact sealed_append_ne isType gap allBlank lead_eq

theorem isQuietAt_drop {words : List String} {text rest : Text}
    (quiet : IsQuiet words rest text) {offset : Nat} (inside : offset < text.length) :
    IsQuietAt words ((text ++ rest).drop offset) := by
  induction text generalizing offset with
  | nil => cases inside
  | cons c text ih =>
    cases offset with
    | zero => exact quiet.1
    | succ offset =>
      rw [List.cons_append, List.drop_succ_cons]
      exact ih quiet.2 (Nat.lt_of_succ_lt_succ inside)

/-- No type begins in front of the keyword of a sealed type, from its own header on. -/
theorem not_start_in_lead {masked front lead here : Text} (whole : masked = front ++ (lead ++ here))
    (quiet : IsQuiet typeWords here lead) {place : Occurrence Text}
    (member : place ∈ occurrences typeHeader? masked) (late : front.length ≤ place.start) :
    front.length + lead.length ≤ place.start := by
  by_contra early
  obtain ⟨before, text, read, ⟨other, same⟩, -, begins, -⟩ := exists_read_of_mem_occurrencesFrom
    (fun before => (isOuter_quote.stopsAt_typeHeader? before).suffix) member
  have here_eq : text = (lead ++ here).drop (place.start - front.length) := by
    have length := congrArg List.length same
    rw [List.length_append] at length
    have dropped : masked.drop place.start = text := by
      rw [← same, show place.start = other.length by omega, List.drop_left]
    rw [← dropped, whole, List.drop_append, List.drop_eq_nil_of_le late, List.nil_append]
  have inside : place.start - front.length < lead.length := by omega
  have quietHere := isQuietAt_drop quiet inside
  rw [← here_eq] at quietHere
  rw [refuses_type before text quietHere] at read
  cases read

/-- The keyword of a sealed type is found, so the type is known with the body that it has. -/
theorem mem_typeHeaders_of_sealed {masked front lead blanks here name rest : Text}
    (gap : IsGap blanks) (whole : masked = front ++ (lead ++ "sealed".toList ++ blanks ++ here))
    (typed : ∀ before, atBoundary before = true → typeHeader? before here = some (name, rest))
    {stop body : Nat} (ends : stop + rest.length = masked.length)
    (own : bodyOffset masked stop = some body) :
    ⟨name, front.length + (lead ++ "sealed".toList ++ blanks).length, stop - name.length, body⟩ ∈
      typeHeaders masked := by
  have suffix (before : Option Char) := (isOuter_quote.stopsAt_typeHeader? before).suffix
  have parts : masked = front ++ lead ++ "sealed".toList ++ blanks ++ here := by
    rw [whole]
    simp only [List.append_assoc]
  have size : front.length + (lead ++ "sealed".toList ++ blanks).length =
      (front ++ lead ++ "sealed".toList ++ blanks).length := by
    simp only [List.length_append]
    omega
  have boundary :
      atBoundary (lastFrom none (front ++ lead ++ "sealed".toList ++ blanks)) = true := by
    obtain ⟨c, last⟩ : ∃ c, blanks.getLast? = some c :=
      ⟨_, List.getLast?_eq_some_getLast gap.nonempty⟩
    have blank := gap.blank c (List.mem_of_getLast? last)
    have lastFrom_eq := lastFrom_getLast? [] (front ++ lead ++ "sealed".toList ++ blanks)
    rw [List.nil_append, List.getLast?_append_of_ne_nil _ gap.nonempty, last] at lastFrom_eq
    rw [show (none : Option Char) = ([] : Text).getLast? from rfl, lastFrom_eq]
    simp [atBoundary, isWordChar_of_isBlank blank]
  have reads := typed _ boundary
  have shorter : rest.length < here.length := by
    obtain ⟨keyword, isType, _, _, isName, same⟩ := exists_of_typeHeader? reads
    have nonempty := List.length_pos_iff.mpr isName.nonempty
    have length := congrArg List.length same
    simp only [List.length_append] at length
    omega
  rw [size]
  rcases @found_or_covered _ _ suffix 0 none _ _ _ _ _ parts reads shorter with
    ⟨place, located, start, rfl, rfl⟩ | ⟨place, located, early, late⟩
  · obtain ⟨-, -, -, -, -, -, placeEnds⟩ := exists_read_of_mem_occurrencesFrom suffix located
    obtain rfl : place.stop = stop := by omega
    rw [Nat.zero_add] at start
    refine List.mem_filterMap.mpr ⟨place, located, ?_⟩
    rw [own, Option.map_some, start]
  · rw [Nat.zero_add] at early late
    exact absurd (stop_le_of_sealed gap parts located early) (Nat.not_le_of_lt late)

/-! What counts next to a type that is never closed -/

/-- The type is the first that leads to its body brace, which has no partner. -/
structure TypeHeader.IsNeverClosed (masked : Text) (header : TypeHeader) : Prop where
  member : header ∈ typeHeaders masked
  unpaired : ∀ stop, ¬IsPartner masked header.body stop
  first : ∀ other ∈ typeHeaders masked, other.body = header.body → header.start ≤ other.start

theorem TypeHeader.IsNeverClosed.mem_unterminated {masked : Text} {header : TypeHeader}
    (never : header.IsNeverClosed masked) :
    header.scope masked.length ∈ (scopesFrom (typeHeaders masked) 0 [] masked).unterminated := by
  have unpaired := partner?_eq_none_iff.mpr never.unpaired
  refine (unterminated_perm masked).mem_iff.mpr (List.mem_map_of_mem (List.mem_filter.mpr ⟨?_, ?_⟩))
  · exact mem_bodyOwners_of_first never.member never.first
  · rw [unpaired]
    rfl

theorem start_lt_of_mem_occurrencesFrom {read : Lookbehind α} {offset : Nat}
    {before : Option Char} {text : Text} {place : Occurrence α}
    (member : place ∈ occurrencesFrom read offset before text) :
    place.start < offset + text.length := by
  fun_induction occurrencesFrom read offset before text with
  | case1 => cases member
  | case2 offset before c text refused ih | case4 offset before c text item rest found longer ih =>
    have bound := ih member
    rw [List.length_cons]
    omega
  | case3 offset before c text item rest found bound used ih =>
    rw [List.length_cons]
    rcases List.mem_cons.mp member with rfl | member
    · exact Nat.lt_add_of_pos_right (Nat.succ_pos _)
    · have later := ih member
      have length : used.length = text.length + 1 - rest.length := by simp [used]
      omega

section

variable {text : Text} {header : TypeHeader}
  (never : header.IsNeverClosed (Source.ofText text).masked)
include never

/-- From the keyword of the type on no place counts. -/
theorem start_lt_of_mem_places {header? : Lookbehind α} {place : Occurrence α}
    (member : place ∈ (Source.ofText text).places header?) : place.start < header.start := by
  obtain ⟨located, counts⟩ := List.mem_filter.mp member
  have inside := start_lt_of_mem_occurrencesFrom located
  rw [Nat.zero_add] at inside
  by_contra late
  have covered : (Source.ofText text).scopes.isUnterminated place.start = true := by
    refine List.any_eq_true.mpr ⟨_, never.mem_unterminated, ?_⟩
    rw [Scope.covers, Bool.and_eq_true]
    exact ⟨decide_eq_true (Nat.le_of_not_lt late), decide_eq_true inside⟩
  rw [covered] at counts
  cases counts

theorem start_lt_of_mem_filterMap {β : Type} {header? : Lookbehind α}
    {read : Text → Option (β × Text)} {reading : Occurrence (Reading α β)}
    (member : reading ∈ ((Source.ofText text).places header?).filterMap (·.readOn read)) :
    reading.start < header.start := by
  obtain ⟨place, located, found⟩ := List.mem_filterMap.mp member
  rw [(Occurrence.readOn_eq found).1]
  exact start_lt_of_mem_places never located

theorem start_lt_of_mem_cases {case : Case} (member : case ∈ (Source.ofText text).cases) :
    case.start < header.start := by
  have perm := List.mergeSort_perm
    ((Source.ofText text).caseReadings.map (Source.ofText text).dataCase ++
      ((Source.ofText text).places objectHeader?).map Source.objectCase) (·.start ≤ ·.start)
  rcases List.mem_append.mp (perm.mem_iff.mp member) with data | object
  · obtain ⟨reading, found, rfl⟩ := List.mem_map.mp data
    exact start_lt_of_mem_filterMap never found
  · obtain ⟨place, found, rfl⟩ := List.mem_map.mp object
    exact start_lt_of_mem_places never found

/-- The body of the type is that of a sealed type that counts only where the type stands in the
marker of the sealed type. -/
theorem start_lt_marker {reading : Occurrence (Reading (Marked Text) Text)}
    (member : reading ∈ (Source.ofText text).sumReadings)
    (own : bodyOffset (Source.ofText text).masked (reading.start + reading.found.length) =
      some header.body) :
    header.start < reading.start + reading.found.header.marker := by
  obtain ⟨place, found, read⟩ := List.mem_filterMap.mp member
  obtain ⟨located, closed⟩ := List.mem_filter.mp found
  obtain ⟨begins, same⟩ := Occurrence.readOn_eq read
  have order := Source.start_lt_stop_of_mem_places located
  have length : reading.found.length = place.stop - place.start := by
    obtain ⟨_, -, rfl⟩ := Option.map_eq_some_iff.mp read
    rfl
  rw [begins, length, Nat.add_sub_of_le (Nat.le_of_lt order)] at own
  rw [begins, same]
  by_contra late
  have sealedHeader : Respects [] [] [] id sealedHeader? :=
    .of_stopsAt isOuter_quote.stopsAt_sealedHeader? List.not_mem_nil id
  have unquoted : ∀ name ∈ ["SwiftEnum"], '"' ∉ name.toList := by decide
  have marker := respects_marked? [] List.not_mem_nil isBlanked_nil unquoted sealedHeader
  obtain ⟨-, here, marked, inside, -, start, stop⟩ := exists_read_of_mem_occurrencesFrom
    (fun _ => marker.suffix) (List.mem_filter.mp located).1
  obtain ⟨unmarked, suffix, size, headed⟩ := exists_suffix_of_marked? marked
  obtain ⟨lead, blanks, behind, gap, rfl, quiet, typed⟩ := exists_of_sealedHeader? headed
  obtain ⟨front, whole⟩ := suffix.trans inside
  have whole := whole.symm
  have frontSize : front.length = place.start + place.found.marker := by
    have total := congrArg List.length whole
    rw [List.length_append] at total
    omega
  obtain ⟨first, firstLocated, -, firstStart, -, -⟩ := exists_place_of_mem_typeHeaders never.member
  have behindLead := not_start_in_lead whole quiet firstLocated (by omega)
  rw [Nat.zero_add] at stop
  have known := mem_typeHeaders_of_sealed gap whole typed stop own
  have atMost := never.first _ known rfl
  have equal := eq_of_start never.member known (by dsimp only at atMost ⊢; omega)
  have unterminated : (Source.ofText text).scopes.isUnterminatedHeader
      (place.stop - place.found.header.length) = true := by
    refine List.any_eq_true.mpr ⟨_, never.mem_unterminated, ?_⟩
    rw [equal]
    exact decide_eq_true rfl
  rw [unterminated] at closed
  cases closed

end

/-- Nothing counts from the keyword of a type on that is the first with its body and is never
closed: every declaration of the answer and every case of its sum types has a header that starts
before the keyword. A sealed type with the same body is only reported when the keyword stands in the
marker of the sealed type, never when it is the keyword of the sealed type itself. -/
theorem scan_neverClosed {text : Text} {header : TypeHeader}
    (never : header.IsNeverClosed (Source.ofText text).masked) :
    let source := Source.ofText text
    scan text = source.sumReadings.map (fun reading => .sum (source.sumOf reading)) ++
      source.asyncReadings.map (fun reading => .async (source.asyncOf reading)) ++
      (source.flowReadings.map (fun reading => .stream (source.flowOf reading)) ++
        source.propertyReadings.map (fun reading => .stream (source.propertyOf reading))) ∧
    (∀ reading ∈ source.sumReadings, reading.start < header.start ∧
      (source.sumOf reading).variants =
        (source.cases.filter (·.isOf reading.found.header.header)).map (·.variant) ∧
      (bodyOffset source.masked (reading.start + reading.found.length) = some header.body →
        header.start < reading.start + reading.found.header.marker)) ∧
    (∀ case ∈ source.cases, case.start < header.start) ∧
    (∀ reading ∈ source.asyncReadings, reading.start < header.start) ∧
    (∀ reading ∈ source.flowReadings, reading.start < header.start) ∧
    (∀ reading ∈ source.propertyReadings, reading.start < header.start) := by
  intro source
  refine ⟨?_, ?_, ?_, ?_, ?_, ?_⟩
  · rw [← Source.map_placed, Source.placed]
    simp only [List.map_append, List.map_map, List.append_assoc]
    rfl
  · intro reading member
    refine ⟨?_, Source.variants_eq _, start_lt_marker never member⟩
    exact start_lt_of_mem_filterMap never (Source.mem_filterMap_of_mem_sumReadings member)
  · intro case member
    exact start_lt_of_mem_cases never member
  · intro reading member
    exact start_lt_of_mem_filterMap never member
  · intro reading member
    exact start_lt_of_mem_filterMap never (List.mem_filter.mp member).1
  · intro reading member
    exact start_lt_of_mem_filterMap never (List.mem_filter.mp member).1

/-- Of a class that is never closed neither the function in it nor the class within it counts. -/
theorem scan_neverClosed_class :
    let source := Source.ofText
      ("suspend fun f()\nclass C \x7b\n suspend fun g()\n".toList ++
        " sealed class D \x7b\n object E : D\n \x7d\n".toList)
    let header : TypeHeader := ⟨"C".toList, 16, 22, 24⟩
    header.IsNeverClosed source.masked ∧
    (∀ reading ∈ source.sumReadings, reading.start < 16) ∧
    (∀ case ∈ source.cases, case.start < 16) ∧
    (∀ reading ∈ source.asyncReadings, reading.start < 16) ∧
    source.asyncReadings.map (·.start) = [0] := by
  intro source header
  have member : header ∈ typeHeaders source.masked := by decide +kernel
  have unpaired : partner? source.masked header.body = none := by decide +kernel
  have first : ∀ other ∈ typeHeaders source.masked, other.body = header.body →
      header.start ≤ other.start := by decide +kernel
  have never : header.IsNeverClosed source.masked :=
    ⟨member, partner?_eq_none_iff.mp unpaired, first⟩
  obtain ⟨-, sums, cases, functions, -⟩ := scan_neverClosed never
  exact ⟨never, fun reading found => (sums reading found).1, cases, functions, by decide +kernel⟩

/-- A sealed class that is never closed is reported when a type stands in its marker that has its
body. -/
theorem scan_neverClosed_marker :
    let text := "@SwiftEnum(class Foo() sealed class Bar \x7b".toList
    let source := Source.ofText text
    typeHeaders source.masked =
      [⟨"Foo".toList, 11, 17, 40⟩, ⟨"Bar".toList, 30, 36, 40⟩] ∧
    partner? source.masked 40 = none ∧
    (source.sumReadings.map fun reading =>
      (reading.start, bodyOffset source.masked (reading.start + reading.found.length))) =
      [(0, some 40)] ∧
    (scan text).map (·.identity.name) = ["Bar".toList] := by
  decide +kernel

end DeclBridge.Kotlin
