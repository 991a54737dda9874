import DeclBridge.Proofs.DeclarationReadings
import DeclBridge.Proofs.HierarchyHeaders
import DeclBridge.Proofs.ShiftedScopes

/-! What the scanner reads in a text around a raw string. With and without the contents of the raw
string the same declarations are read, and away from the raw string nothing else is. -/

namespace DeclBridge.Kotlin

open Text Syntax

variable {α β γ δ : Type} {front back blank content : Text}

/-! The readings of two sources -/

/-- What a header and its tail have in common with and without the contents. -/
def Reading.outline (outline : α → γ) (last : β → δ) (reading : Reading α β) : γ × δ :=
  (outline reading.header, last reading.tail)

namespace Matches

variable {outline : α → γ} {last : β → δ} {filled empty : Occurrence α}

theorem readOn {read : Text → Option (β × Text)}
    (found : Matches front back blank outline filled empty)
    (respects : Respects front back blank last read) :
    Option.Rel (Matches front back blank (Reading.outline outline last)) (filled.readOn read)
      (empty.readOn read) := by
  unfold Occurrence.readOn
  -- A header before the raw string may have its tail before it or across it. The tail of any other
  -- header is read from one text.
  cases found with
  | @before start stop item rest inside order ends =>
    have here := respects.alike rest inside
    generalize first : read (rest ++ (rawString blank ++ back)) = filled at here
    generalize read (rest ++ (rawString [] ++ back)) = empty at here
    cases here with
    | refused => exact .none
    | @before tail behind within =>
      have shorter := (respects.suffix _ _ _ first).length_le
      have size (content : Text) : (rest ++ (rawString content ++ back)).length -
          (behind ++ (rawString content ++ back)).length = rest.length - behind.length := by
        simp only [List.length_append, Nat.add_sub_add_right]
      simp only [List.length_append, Nat.add_le_add_iff_right] at shorter
      rw [Option.map_some, Option.map_some]
      dsimp only
      rw [size, size]
      exact .some (.before within (by omega) (by omega))
    | @across tail other behind same within =>
      have shorter := within.length_le
      have size (content : Text) : (rest ++ (rawString content ++ back)).length - behind.length =
          rest.length + 6 + back.length - behind.length + content.length := by
        rw [List.length_append, List.length_append, length_rawString]
        omega
      rw [Option.map_some, Option.map_some]
      dsimp only
      rw [size, size, List.length_nil, Nat.add_zero, ← Nat.add_assoc]
      exact .some (.across (congrArg (outline item, ·) same) within (by omega) (by omega))
  | @across start stop item other rest same inside early ends =>
    dsimp only
    cases begun : read rest with
    | none => exact .none
    | some answer =>
      have suffix := respects.suffix _ _ _ begun
      have shorter := suffix.length_le
      simp only [Option.map_some]
      rw [Nat.add_right_comm]
      exact .some (.across (congrArg (·, _) same) (suffix.trans inside) early (by omega))
  | @behind start stop item rest inside late order ends =>
    dsimp only
    cases begun : read rest with
    | none => exact .none
    | some answer =>
      have suffix := respects.suffix _ _ _ begun
      have shorter := suffix.length_le
      simp only [Option.map_some]
      rw [Nat.add_right_comm, Nat.add_sub_add_right]
      exact .some (.behind (suffix.trans inside) late (by omega) (by omega))

/-- What does not go on over the raw string is cut from the same text. -/
theorem slice_eq {filled empty : Occurrence α}
    (found : Matches front back (blankOut content) outline filled empty)
    (apart : ¬(empty.start < front.length ∧ front.length < empty.stop)) {skip length : Nat}
    (fits : empty.start + skip + length ≤ empty.stop) :
    (literalSource front back content).slice (filled.start + skip) length =
      (literalSource front back []).slice (empty.start + skip) length := by
  have behind (content : Text) {offset : Nat} (late : front.length + 6 ≤ offset) :
      (literalSource front back content).slice (offset + content.length) length =
        (back.drop (offset - front.length - 6)).take length := by
    rw [Source.slice, literalSource]
    dsimp only
    have whole : front ++ (rawString content ++ back) = front ++ rawString content ++ back :=
      (List.append_assoc _ _ _).symm
    have size : (front ++ rawString content).length = front.length + 6 + content.length := by
      rw [List.length_append, length_rawString]
      omega
    have place : offset + content.length =
        (front ++ rawString content).length + (offset - front.length - 6) := by omega
    rw [whole, place, List.drop_length_add_append]
  cases found with
  | @before start stop item rest inside order ends =>
    have here (content : Text) : (literalSource front back content).slice (start + skip) length =
        (front.drop (start + skip)).take length := by
      dsimp only at fits
      rw [Source.slice, literalSource, List.drop_append_of_le_length (by omega),
        List.take_append_of_le_length (by rw [List.length_drop]; omega)]
    rw [here, here]
  | across _ inside early ends =>
    have bound := inside.length_le
    exact absurd ⟨early, by dsimp only; omega⟩ apart
  | @behind start stop item rest inside late order ends =>
    have length : (blankOut content).length = content.length := by simp [blankOut]
    have filled := behind content (show front.length + 6 ≤ start + skip by omega)
    have empty := behind [] (show front.length + 6 ≤ start + skip by omega)
    rw [length, Nat.add_right_comm, filled]
    exact empty.symm

theorem marker_eq {outline : Reading (Marked α) β → γ}
    {filled empty : Occurrence (Reading (Marked α) β)}
    (found : Matches front back (blankOut content) outline filled empty)
    (apart : ¬(empty.start < front.length ∧ front.length < empty.stop))
    (fits : empty.start + empty.found.header.marker ≤ empty.stop) :
    (literalSource front back content).slice filled.start empty.found.header.marker =
      (literalSource front back []).slice empty.start empty.found.header.marker :=
  @slice_eq _ _ _ _ _ _ _ _ found apart 0 empty.found.header.marker fits

theorem start_lt (found : Matches front back blank outline filled empty) :
    filled.start < front.length + 6 + back.length + blank.length ∧
      empty.start < front.length + 6 + back.length := by
  cases found with
  | before | across | behind =>
    dsimp only
    constructor <;> omega

/-- There is a marker in one reading when there is one in the other. -/
theorem unmarked_iff {filled empty : Occurrence (Reading (Marked α) β)}
    (found : Matches front back blank (Reading.outline (Marked.outline outline) last)
      filled empty) :
    filled.found.header.marker = 0 ↔ empty.found.header.marker = 0 := by
  have same : (filled.found.header.marker == 0) = (empty.found.header.marker == 0) :=
    congrArg (·.1.1) found.outline_eq
  rw [← beq_iff_eq, same, beq_iff_eq]

theorem found_eq (found : Matches front back blank outline filled empty)
    (apart : ¬(empty.start < front.length ∧ front.length < empty.stop)) :
    filled.found = empty.found := by
  cases found with
  | before | behind => rfl
  | across _ inside early ends =>
    have bound := inside.length_le
    exact absurd ⟨early, by dsimp only; omega⟩ apart

end Matches

theorem matches_readOn {outline : α → γ} {last : β → δ} {filled empty : List (Occurrence α)}
    {read : Text → Option (β × Text)} (respects : Respects front back blank last read)
    (places : List.Forall₂ (Matches front back blank outline) filled empty) :
    List.Forall₂ (Matches front back blank (Reading.outline outline last))
      (filled.filterMap (·.readOn read)) (empty.filterMap (·.readOn read)) :=
  List.rel_filterMap (fun _ _ found => found.readOn respects) places

/-! The package -/

theorem packageName_quote (atLineStart : Bool) (text : Text) :
    packageName atLineStart ('"' :: text) = packageName false text := by
  cases atLineStart with
  | false =>
    have single : '\n' ∉ ['"'] := by simp
    exact packageName_inside single text
  | true => exact packageName_start (by simp [skipBlanks, show isBlank '"' = false from rfl])

theorem packageName_blanks (blanked : IsBlanked blank) (atLineStart : Bool) (text : Text) :
    packageName atLineStart (blank ++ '"' :: text) = packageName false text := by
  induction blank generalizing atLineStart with
  | nil => exact packageName_quote atLineStart text
  | cons c blank ih =>
    obtain ⟨here, others⟩ := List.forall_mem_cons.mp blanked
    rw [List.cons_append]
    cases atLineStart with
    | false =>
      rw [packageName]
      exact ih others _
    | true =>
      have skipped : skipBlanks (c :: (blank ++ '"' :: text)) = '"' :: text := by
        have blanks : ∀ d ∈ c :: blank, isBlank d = true := fun d inside => by
          rcases blanked d inside with rfl | rfl <;> rfl
        exact List.dropWhile_append_of_pos blanks
      rw [packageName_start (by simp [skipped]), ih others]

/-- No package is named in a raw string or right behind it. -/
theorem packageName_rawString (blanked : IsBlanked blank) (atLineStart : Bool) :
    packageName atLineStart (rawString blank ++ back) = packageName false back := by
  have whole : rawString blank ++ back =
      '"' :: '"' :: '"' :: (blank ++ '"' :: '"' :: '"' :: back) := by simp [rawString]
  rw [whole, packageName_quote, packageName_quote, packageName_quote, packageName_blanks blanked,
    packageName_quote, packageName_quote]

theorem packageName_literal (unquoted : '"' ∉ front) (blanked : IsBlanked blank)
    (atLineStart : Bool) :
    packageName atLineStart (front ++ (rawString blank ++ back)) =
      packageName atLineStart (front ++ (rawString [] ++ back)) := by
  have keyword : StopsAt '"' (passing (keyword? "package")) :=
    stopsAt_keyword? (by decide) rfl
  have named : StopsAt '"' fun text => (keyword? "package" (skipBlanks text)).bind dotted? :=
    (stopsAt_skipBlanks rfl).behind (keyword.behind isOuter_quote.stopsAt_dotted?)
  induction front generalizing atLineStart with
  | nil =>
    rw [List.nil_append, List.nil_append, packageName_rawString blanked,
      packageName_rawString isBlanked_nil]
  | cons c front ih =>
    have here (content : Text) :
        (keyword? "package"
            (skipBlanks (c :: (front ++ (rawString content ++ back))))).bind dotted? =
          ((keyword? "package" (skipBlanks (c :: front))).bind dotted?).map
            (Prod.map id (· ++ (rawString content ++ back))) :=
      named.append (c :: front) _ unquoted
    have next := ih (List.not_mem_of_not_mem_cons unquoted) (c = '\n')
    rw [List.cons_append, List.cons_append, packageName, packageName, here, here, next]
    cases atLineStart with
    | false => rfl
    | true => cases (keyword? "package" (skipBlanks (c :: front))).bind dotted? <;> rfl

/-! What is found in both sources -/

section

variable (unquoted : '"' ∉ front) (calm : '\n' ∈ content → ¬AwaitsBody front)
include unquoted calm

theorem scopes_literalSource : (literalSource front back content).scopes =
    (literalSource front back []).scopes.place (shift front (blankOut content)) := by
  refine scopesFrom_shift unquoted (isBlanked_blankOut content) fun broken => calm ?_
  obtain ⟨c, inside, same⟩ := List.mem_map.mp broken
  split at same
  · exact same ▸ inside
  · cases same

theorem matches_places {words : List String} {read : Lookbehind α} {outline : α → β}
    (keywords : ∀ word ∈ words, IsWord word.toList) (refuses : Refuses words read)
    (respects : ∀ before, Respects front back (blankOut content) outline (read before)) :
    List.Forall₂ (Matches front back (blankOut content) outline)
      ((literalSource front back content).places read)
      ((literalSource front back []).places read) := by
  have matched := matches_occurrencesFrom keywords refuses respects (isBlanked_blankOut content)
    List.suffix_rfl (Nat.zero_add front.length) none
  refine forall₂_filter matched fun empty _ filled found => ?_
  have same := isUnterminated_place (strictMono_shift front (blankOut content))
    (literalSource front back []).scopes empty.start
  rw [← scopes_literalSource unquoted calm, ← found.start_eq] at same
  rw [same]

theorem containingType_eq_of_matches {outline : α → β} {filled empty : Occurrence α}
    (found : Matches front back (blankOut content) outline filled empty) :
    (literalSource front back content).scopes.containingType filled.start =
      (literalSource front back []).scopes.containingType empty.start := by
  rw [scopes_literalSource unquoted calm, found.start_eq,
    containingType_place (strictMono_shift front (blankOut content))]

theorem matches_marked {words names : List String} {header? : Text → Option (α × Text)}
    {outline : α → β} (keywords : ∀ word ∈ words, IsWord word.toList)
    (unquotedNames : ∀ name ∈ names, '"' ∉ name.toList)
    (refuses : Refuses words fun _ => marked? names header?)
    (respects : Respects front back (blankOut content) outline header?) :
    List.Forall₂ (Matches front back (blankOut content) (Marked.outline outline))
      ((literalSource front back content).places fun _ => marked? names header?)
      ((literalSource front back []).places fun _ => marked? names header?) :=
  matches_places unquoted calm keywords refuses fun _ =>
    respects_marked? back unquoted (isBlanked_blankOut content) unquotedNames respects

theorem matches_sumReadings :
    List.Forall₂ (Matches front back (blankOut content)
        (Reading.outline (Marked.outline id) fun _ => ()))
      (literalSource front back content).sumReadings
      (literalSource front back []).sumReadings := by
  have blanked := isBlanked_blankOut content
  have header : Respects front back (blankOut content) id sealedHeader? :=
    .of_stopsAt isOuter_quote.stopsAt_sealedHeader? unquoted id
  have places := matches_marked unquoted calm (by decide) (by decide)
    (refuses_sealed ["SwiftEnum"]) header
  -- Types that are never closed are told by where their names start, which is before the end of the
  -- header by the length of the name.
  have named : ∀ place ∈ (literalSource front back []).places
      fun _ => marked? ["SwiftEnum"] sealedHeader?, IsWord place.found.header ∧
        place.found.header ++ place.rest <:+ front ++ (rawString [] ++ back) := by
    intro place member
    have marker : Respects front back (blankOut content) (Marked.outline id)
        (marked? ["SwiftEnum"] sealedHeader?) :=
      respects_marked? back unquoted blanked (by decide) header
    obtain ⟨-, here, read, inside, -⟩ := exists_read_of_mem_occurrencesFrom
      (fun _ => marker.suffix) (List.mem_filter.mp member).1
    obtain ⟨unmarked, suffix, -, read⟩ := exists_suffix_of_marked? read
    exact ⟨isWord_of_sealedHeader? read,
      (suffix_of_sealedHeader? read).trans (suffix.trans inside)⟩
  refine matches_readOn (respects_typeClause? back unquoted blanked)
    (forall₂_filter places fun empty member filled found => ?_)
  obtain ⟨isWord, inside⟩ := named empty member
  have same : filled.found.header = empty.found.header := congrArg Prod.snd found.outline_eq
  have nameStart := shift_nameStart found isWord inside
  have unterminated := isUnterminatedHeader_place (strictMono_shift front (blankOut content))
    (literalSource front back []).scopes (empty.stop - empty.found.header.length)
  rw [← scopes_literalSource unquoted calm, ← nameStart] at unterminated
  rw [same, unterminated]

theorem matches_caseReadings :
    List.Forall₂ (Matches front back (blankOut content) (Reading.outline id fun tail => tail.2))
      (literalSource front back content).caseReadings
      (literalSource front back []).caseReadings := by
  have blanked := isBlanked_blankOut content
  have header := respects_dataCaseHeader? back unquoted blanked
  have places := matches_places unquoted calm (by decide) refuses_data header
  have supertype : Respects front back (blankOut content) id supertype? :=
    .of_stopsAt isOuter_quote.stopsAt_supertype? unquoted id
  exact matches_readOn (respects_behindRound? back unquoted blanked supertype) places

theorem matches_asyncReadings :
    List.Forall₂ (Matches front back (blankOut content)
        (Reading.outline (Marked.outline FunctionHeader.name) fun _ => ()))
      (literalSource front back content).asyncReadings
      (literalSource front back []).asyncReadings := by
  have blanked := isBlanked_blankOut content
  have header := respects_suspendHeader? back unquoted blanked
  have places := matches_marked unquoted calm (by decide) (by decide)
    (refuses_suspend ["SwiftAsync", "SwiftDefaults"]) header
  have returned := respects_returnType? back unquoted blanked
  exact matches_readOn (respects_behindRound? back unquoted blanked returned) places

theorem matches_flowReadings :
    List.Forall₂ (Matches front back (blankOut content) (Reading.outline
        (Marked.outline (Prod.map id FunctionHeader.name)) fun tail => isBlankText tail.2))
      (literalSource front back content).flowReadings
      (literalSource front back []).flowReadings := by
  have blanked := isBlanked_blankOut content
  have header := respects_anyFunctionHeader? back unquoted blanked
  have places := matches_marked unquoted calm (by decide) (by decide)
    (refuses_anyFunction ["SwiftFlow"]) header
  have element := respects_flowElement? back unquoted blanked
  refine forall₂_filter
    (matches_readOn (respects_behindRound? back unquoted blanked element) places)
    fun empty _ filled found => ?_
  have same := found.outline_eq
  simp only [Reading.outline, Marked.outline, Prod.map, Prod.mk.injEq, id] at same
  rw [same.1.2.1, same.2]

theorem matches_propertyReadings :
    List.Forall₂ (Matches front back (blankOut content)
        (Reading.outline (Marked.outline id) isBlankText))
      (literalSource front back content).propertyReadings
      (literalSource front back []).propertyReadings := by
  have blanked := isBlanked_blankOut content
  have header : Respects front back (blankOut content) id flowPropertyHeader? :=
    .of_stopsAt isOuter_quote.stopsAt_flowPropertyHeader? unquoted id
  have places := matches_marked unquoted calm (by decide) (by decide)
    (refuses_flowProperty ["SwiftFlow"]) header
  refine forall₂_filter (matches_readOn (respects_inside back .angle unquoted blanked) places)
    fun empty _ filled found => ?_
  have same : isBlankText filled.found.tail = isBlankText empty.found.tail :=
    congrArg Prod.snd found.outline_eq
  rw [same]

end

end DeclBridge.Kotlin
