import DeclBridge.Proofs.BracePartners
import DeclBridge.Proofs.HeaderBodies

/-! The extents of the types of a text. Each brace that a header leads to opens the body of one
type, which extends from its keyword to the partner of the brace. Where the braces of every header
are nested, extents contain each other or lie apart, and the type around an offset is the
innermost. -/

namespace DeclBridge.Kotlin

open Text

/-! Owners of bodies -/

/-- The type that each body brace opens, the first whose header leads to it. -/
def bodyOwners (masked : Text) : List TypeHeader :=
  (typeHeaders masked).filter fun header =>
    (typeHeaders masked).find? (·.body = header.body) = some header

/-- Where a type stands from its keyword on, to the end of the text if its body is never closed. -/
def TypeHeader.extent (masked : Text) (header : TypeHeader) : Scope :=
  header.scope ((partner? masked header.body).elim masked.length (· + 1))

/-- The text of a type from its keyword to the brace that opens its body. -/
def TypeHeader.clause (masked : Text) (header : TypeHeader) : Text :=
  (masked.take header.body).drop header.start

/-- One of two extents lies in the other, or they have nothing in common. -/
def Scope.IsNestedOrApart (first second : Scope) : Prop :=
  (first.start ≤ second.start ∧ second.stop ≤ first.stop) ∨
    (second.start ≤ first.start ∧ first.stop ≤ second.stop) ∨
    first.stop ≤ second.start ∨ second.stop ≤ first.start

theorem nodup_of_increasing {measure : α → Nat} {members : List α}
    (increasing : members.Pairwise fun first second => measure first < measure second) :
    members.Nodup := by
  refine increasing.imp ?_
  rintro first second less rfl
  exact Nat.lt_irrefl _ less

section

variable {masked : Text} {header owner : TypeHeader}

theorem mem_bodyOwners : owner ∈ bodyOwners masked ↔
    owner ∈ typeHeaders masked ∧
      (typeHeaders masked).find? (·.body = owner.body) = some owner := by
  rw [bodyOwners, List.mem_filter, decide_eq_true_eq]

theorem mem_bodyOwners_iff_find? : owner ∈ bodyOwners masked ↔
    (typeHeaders masked).find? (·.body = owner.body) = some owner := by
  rw [mem_bodyOwners]
  exact and_iff_right_of_imp List.mem_of_find?_eq_some

theorem isIn_of_mem_bodyOwners (member : owner ∈ bodyOwners masked) : owner.IsIn masked :=
  isIn_of_mem_typeHeaders (mem_bodyOwners.mp member).1

theorem pairwise_start_typeHeaders (masked : Text) :
    (typeHeaders masked).Pairwise fun first second => first.start < second.start := by
  refine (List.Pairwise.and_mem.mp (pairwise_typeHeaders masked)).imp ?_
  rintro first second ⟨member, -, apart⟩
  exact Nat.lt_of_lt_of_le (isIn_of_mem_typeHeaders member).begins apart

theorem eq_of_start {first second : TypeHeader} (isFirst : first ∈ typeHeaders masked)
    (isSecond : second ∈ typeHeaders masked) (same : first.start = second.start) :
    first = second := by
  have distinct : ((typeHeaders masked).map (·.start)).Nodup :=
    @nodup_of_increasing _ id _ (List.pairwise_map.mpr (pairwise_start_typeHeaders masked))
  exact List.inj_on_of_nodup_map distinct isFirst isSecond same

/-- A brace has one owner. -/
theorem existsUnique_bodyOwner (member : header ∈ typeHeaders masked) :
    ∃! owner, owner ∈ bodyOwners masked ∧ owner.body = header.body := by
  have found : ((typeHeaders masked).find? (·.body = header.body)).isSome := by
    rw [List.find?_isSome]
    exact ⟨header, member, decide_eq_true rfl⟩
  obtain ⟨owner, found⟩ := Option.isSome_iff_exists.mp found
  have same : owner.body = header.body := by simpa using List.find?_some found
  refine ⟨owner, ⟨mem_bodyOwners_iff_find?.mpr (same ▸ found), same⟩, ?_⟩
  rintro other ⟨owns, equal⟩
  have other_found := mem_bodyOwners_iff_find?.mp owns
  rw [equal, found] at other_found
  exact (Option.some.inj other_found).symm

theorem eq_of_mem_bodyOwners {first second : TypeHeader} (isFirst : first ∈ bodyOwners masked)
    (isSecond : second ∈ bodyOwners masked) (same : first.body = second.body) :
    first = second := by
  have owner := existsUnique_bodyOwner (mem_bodyOwners.mp isSecond).1
  exact owner.unique ⟨isFirst, same⟩ ⟨isSecond, rfl⟩

/-- The first header that leads to a brace owns it. -/
theorem mem_bodyOwners_of_first (member : header ∈ typeHeaders masked)
    (first : ∀ other ∈ typeHeaders masked, other.body = header.body →
      header.start ≤ other.start) : header ∈ bodyOwners masked := by
  obtain ⟨owner, ⟨owns, same⟩, -⟩ := existsUnique_bodyOwner member
  obtain ⟨-, before, behind, whole, others⟩ :=
    List.find?_eq_some_iff_append.mp (mem_bodyOwners_iff_find?.mp owns)
  have order := pairwise_start_typeHeaders masked
  rw [whole] at member order
  rcases List.mem_append.mp member with early | late
  · have other := others header early
    simp [same] at other
  · rcases List.mem_cons.mp late with rfl | late
    · exact owns
    · have after := List.rel_of_pairwise_cons (List.pairwise_append.mp order).2.1 late
      have first := first owner (mem_bodyOwners.mp owns).1 same
      omega

theorem pairwise_start_bodyOwners (masked : Text) :
    (bodyOwners masked).Pairwise fun first second => first.start < second.start :=
  (pairwise_start_typeHeaders masked).sublist List.filter_sublist

end

/-! What the index reports -/

section

variable {masked : Text} {header : TypeHeader}

/-- At the start of a text nothing is open, so what ends is opened by the owner of a body. -/
theorem ends_typeHeaders {stop : Option Nat} :
    Ends (typeHeaders masked) 0 [] masked header stop ↔
      header ∈ bodyOwners masked ∧ stop = partner? masked header.body := by
  rw [mem_bodyOwners_iff_find?]
  constructor
  · rintro (⟨place, waiting, -⟩ | ⟨place, -, found, same⟩)
    · simp at waiting
    · simp only [Nat.zero_add] at found same
      obtain rfl : header.body = place := by simpa using List.find?_some found
      exact ⟨found, same⟩
  · rintro ⟨found, same⟩
    have isIn := isIn_of_mem_typeHeaders (List.mem_of_find?_eq_some found)
    refine .inr ⟨header.body, isIn.opens, ?_, ?_⟩
    · rw [Nat.zero_add]
      exact found
    · simp only [Nat.zero_add]
      exact same

theorem closed_perm (masked : Text) :
    (scopesFrom (typeHeaders masked) 0 [] masked).closed.Perm
      ((bodyOwners masked).filterMap fun owner =>
        (partner? masked owner.body).map fun stop => owner.scope (stop + 1)) := by
  have reported : (scopesFrom (typeHeaders masked) 0 [] masked).closed.Nodup :=
    nodup_of_increasing pairwise_closed_scopesFrom.1
  have owned : ((bodyOwners masked).filterMap fun owner =>
      (partner? masked owner.body).map fun stop => owner.scope (stop + 1)).Nodup := by
    apply @nodup_of_increasing _ Scope.start
    refine List.Pairwise.filterMap _ ?_ (pairwise_start_bodyOwners masked)
    intro first second less scope isFirst other isSecond
    obtain ⟨_, -, rfl⟩ := Option.map_eq_some_iff.mp isFirst
    obtain ⟨_, -, rfl⟩ := Option.map_eq_some_iff.mp isSecond
    exact less
  refine (List.perm_ext_iff_of_nodup reported owned).mpr fun scope => ?_
  rw [mem_closed_scopesFrom, List.mem_filterMap]
  refine exists_congr fun header => ?_
  simp only [ends_typeHeaders, Option.map_eq_some_iff]
  constructor
  · rintro ⟨stop, ⟨owns, found⟩, rfl⟩
    exact ⟨owns, stop, found.symm, rfl⟩
  · rintro ⟨owns, stop, found, rfl⟩
    exact ⟨stop, ⟨owns, found.symm⟩, rfl⟩

theorem nodup_nameStart_typeHeaders (masked : Text) :
    ((typeHeaders masked).map (·.nameStart)).Nodup := by
  refine List.pairwise_map.mpr ((List.Pairwise.and_mem.mp (pairwise_typeHeaders masked)).imp ?_)
  rintro first second ⟨isFirst, isSecond, apart⟩ same
  have nonempty := List.length_pos_iff.mpr (isIn_of_mem_typeHeaders isFirst).named
  have keyword := (isIn_of_mem_typeHeaders isSecond).keyword
  omega

theorem unterminated_perm (masked : Text) :
    (scopesFrom (typeHeaders masked) 0 [] masked).unterminated.Perm
      (((bodyOwners masked).filter fun owner => (partner? masked owner.body).isNone).map
        (·.scope masked.length)) := by
  have reported : (scopesFrom (typeHeaders masked) 0 [] masked).unterminated.Nodup := by
    apply List.Nodup.of_map (·.nameStart)
    exact nodup_unterminated_scopesFrom (nodup_nameStart_typeHeaders masked) List.nodup_nil
      (by simp)
  have owned : (((bodyOwners masked).filter fun owner => (partner? masked owner.body).isNone).map
      (·.scope masked.length)).Nodup := by
    apply @nodup_of_increasing _ Scope.start
    exact List.pairwise_map.mpr ((pairwise_start_bodyOwners masked).sublist List.filter_sublist)
  refine (List.perm_ext_iff_of_nodup reported owned).mpr fun scope => ?_
  rw [mem_unterminated_scopesFrom, List.mem_map]
  refine exists_congr fun header => ?_
  rw [ends_typeHeaders, List.mem_filter, Option.isNone_iff_eq_none, Nat.zero_add, @eq_comm _ none,
    @eq_comm _ scope]

end

/-! Nested extents -/

section

variable {masked : Text} {first second header : TypeHeader}

theorem drop_opener {text : Text} {offset : Nat} (opens : text[offset]? = some '{') :
    text.drop offset = '{' :: text.drop (offset + 1) := by
  obtain ⟨inside, same⟩ := List.getElem?_eq_some_iff.mp opens
  rw [List.drop_eq_getElem_cons inside, same]

/-- The body brace of a type in the header of another one has its partner there. -/
theorem exists_partner?_in_clause (closes : closesBraces 0 (first.clause masked) = true)
    (late : first.start ≤ second.body) (early : second.body < first.body)
    (opens : masked[second.body]? = some '{') :
    ∃ stop < first.body, partner? masked second.body = some stop := by
  have here : (masked.take first.body)[second.body]? = some '{' := by
    rw [List.getElem?_take_of_lt early, opens]
  have parts := drop_eq_append (masked.take first.body) late
  have behind := @drop_eq_append masked (second.body + 1) _ early
  rw [drop_opener here] at parts
  rw [TypeHeader.clause, parts] at closes
  obtain ⟨distance, short, found⟩ := @exists_closer?_closes 0 _ _ (masked.drop first.body) closes
  rw [List.length_drop, List.length_take] at short
  refine ⟨second.body + 1 + distance, by omega, ?_⟩
  rw [partner?, behind, found, Option.map_some]

/-- A type that begins in the body of another one ends before it. -/
theorem exists_partner?_in_body {stop : Nat} (closed : partner? masked first.body = some stop)
    (isSecond : second.IsIn masked) (closes : closesBraces 0 (second.clause masked) = true)
    (late : first.body < second.start) (early : second.start ≤ stop) :
    ∃ other < stop, partner? masked second.body = some other := by
  obtain ⟨distance, found, rfl⟩ := Option.map_eq_some_iff.mp closed
  have short := isSecond.body_lt_length
  have begins := isSecond.start_lt_body
  have between := @drop_eq_append masked (first.body + 1) _ late
  have clause := drop_eq_append masked (Nat.le_of_lt begins)
  rw [drop_opener isSecond.opens, ← TypeHeader.clause] at clause
  have size : (second.clause masked).length = second.body - second.start := by
    rw [TypeHeader.clause, List.length_drop, List.length_take]
    omega
  have gap : ((masked.take second.start).drop (first.body + 1)).length =
      second.start - (first.body + 1) := by
    rw [List.length_drop, List.length_take]
    omega
  -- The search for the partner of the first brace comes by the header of the second type.
  rw [between] at found
  obtain ⟨depth, onward⟩ := exists_closer?_rest found (by omega)
  have passed := @closer?_closes depth (second.clause masked)
    ('{' :: masked.drop (second.body + 1)) 0 closes
  rw [clause, ← Nat.add_zero depth, passed, closer?_opener] at onward
  obtain ⟨beyond, opened, same⟩ := Option.map_eq_some_iff.mp onward
  obtain ⟨inner, above, rfl⟩ := Option.map_eq_some_iff.mp opened
  obtain ⟨lower, less, below⟩ := exists_closer?_succ above
  obtain ⟨least, least_le, partner⟩ := exists_closer?_zero below
  refine ⟨second.body + 1 + least, by omega, ?_⟩
  rw [partner?, partner, Option.map_some]

theorem body_lt_extent_stop (isIn : header.IsIn masked) :
    header.body < (header.extent masked).stop := by
  rw [TypeHeader.extent, TypeHeader.scope]
  cases found : partner? masked header.body with
  | none => exact isIn.body_lt_length
  | some stop =>
    have partner := partner?_eq_some_iff.mp found
    exact Nat.lt_succ_of_lt partner.behind

theorem extent_stop_le_length (header : TypeHeader) :
    (header.extent masked).stop ≤ masked.length := by
  rw [TypeHeader.extent, TypeHeader.scope]
  cases found : partner? masked header.body with
  | none => exact Nat.le_refl _
  | some stop =>
    have partner := partner?_eq_some_iff.mp found
    exact partner.inside

theorem extent_stop_of_partner? {stop : Nat} (found : partner? masked header.body = some stop) :
    (header.extent masked).stop = stop + 1 := by
  rw [TypeHeader.extent, TypeHeader.scope, found]
  rfl

/-- Of two types the one that starts later ends no later than the other, unless it starts behind
it. -/
theorem extent_stop_le_or
    (nested : ∀ header ∈ typeHeaders masked, closesBraces 0 (header.clause masked) = true)
    (isFirst : first ∈ bodyOwners masked) (isSecond : second ∈ bodyOwners masked)
    (early : first.start < second.start) :
    (second.extent masked).stop ≤ (first.extent masked).stop ∨
      (first.extent masked).stop ≤ second.start := by
  have firstHeader := (mem_bodyOwners.mp isFirst).1
  have secondHeader := (mem_bodyOwners.mp isSecond).1
  have firstIn := isIn_of_mem_bodyOwners isFirst
  have secondIn := isIn_of_mem_bodyOwners isSecond
  by_cases inside : second.start < first.body
  · have apart := stop_le_start firstHeader secondHeader early
    have body_le := body_le_body firstIn secondIn apart inside
    have differ : second.body ≠ first.body := by
      intro same
      rw [eq_of_mem_bodyOwners isSecond isFirst same] at early
      exact Nat.lt_irrefl _ early
    have begins := secondIn.start_lt_body
    obtain ⟨stop, stop_lt, found⟩ := exists_partner?_in_clause (nested first firstHeader)
      (by omega) (by omega) secondIn.opens
    have behind := body_lt_extent_stop firstIn
    rw [extent_stop_of_partner? found]
    left
    omega
  · have differ : first.body ≠ second.start := by
      intro same
      have stop_le := secondIn.stop_le (Nat.le_of_eq same.symm) firstIn.opens
      have begins := secondIn.begins
      omega
    cases found : partner? masked first.body with
    | none =>
      left
      have whole : (first.extent masked).stop = masked.length := by
        rw [TypeHeader.extent, TypeHeader.scope, found]
        rfl
      rw [whole]
      exact extent_stop_le_length second
    | some stop =>
      rw [extent_stop_of_partner? found]
      by_cases reached : second.start ≤ stop
      · obtain ⟨other, other_lt, partner⟩ := exists_partner?_in_body found secondIn
          (nested second secondHeader) (by omega) reached
        left
        rw [extent_stop_of_partner? partner]
        omega
      · right
        omega

theorem isNestedOrApart_extent
    (nested : ∀ header ∈ typeHeaders masked, closesBraces 0 (header.clause masked) = true)
    (isFirst : first ∈ bodyOwners masked) (isSecond : second ∈ bodyOwners masked) :
    (first.extent masked).IsNestedOrApart (second.extent masked) := by
  unfold Scope.IsNestedOrApart
  have start (header : TypeHeader) : (header.extent masked).start = header.start := rfl
  rw [start, start]
  rcases Nat.lt_trichotomy first.start second.start with early | same | late
  · have either := extent_stop_le_or nested isFirst isSecond early
    omega
  · omega
  · have either := extent_stop_le_or nested isSecond isFirst late
    omega

end

/-! The type around an offset -/

/-- Of the scopes that cover an offset, the one that is smaller than all others. -/
structure Scope.IsSmallestAt (scopes : List Scope) (offset : Nat) (scope : Scope) : Prop where
  member : scope ∈ scopes
  covers : scope.covers offset = true
  smallest : ∀ other ∈ scopes, other.covers offset = true → other ≠ scope →
    scope.stop - scope.start < other.stop - other.start

section

variable {scopes : List Scope} {offset : Nat} {scope : Scope}

theorem innermost_append_singleton (scopes : List Scope) (offset : Nat) (last : Scope) :
    innermost offset (scopes ++ [last]) =
      if last.covers offset = true ∧ (innermost offset scopes).all (·.start < last.start) = true
      then some last else innermost offset scopes := by
  rw [innermost, List.filter_append, List.foldl_append, List.filter_singleton]
  cases covers : last.covers offset with
  | false => simp [innermost]
  | true => simp [innermost]

theorem innermost_eq_none_iff :
    innermost offset scopes = none ↔ ∀ scope ∈ scopes, scope.covers offset = false := by
  induction scopes using List.reverseRecOn with
  | nil => simp [innermost]
  | append_singleton scopes last ih =>
    rw [innermost_append_singleton, List.forall_mem_append, List.forall_mem_singleton, ← ih]
    cases covers : last.covers offset with
    | false => simp
    | true =>
      cases innermost offset scopes with
      | none => simp
      | some best =>
        simp only [true_and]
        split <;> simp

/-- No scope around an offset starts later than the one that is chosen. -/
theorem start_le_of_innermost (chosen : innermost offset scopes = some scope) :
    scope.covers offset = true ∧
      ∀ other ∈ scopes, other.covers offset = true → other.start ≤ scope.start := by
  induction scopes using List.reverseRecOn generalizing scope with
  | nil => simp [innermost] at chosen
  | append_singleton scopes last ih =>
    rw [innermost_append_singleton] at chosen
    split at chosen
    · next later =>
      obtain rfl : last = scope := Option.some.inj chosen
      refine ⟨later.1, List.forall_mem_append.mpr ⟨?_, ?_⟩⟩
      · intro other member covers
        cases found : innermost offset scopes with
        | none =>
          have uncovered := innermost_eq_none_iff.mp found other member
          simp [uncovered] at covers
        | some best =>
          have before : best.start < last.start := by simpa [found] using later.2
          have latest := (ih found).2 other member covers
          omega
      · simp
    · next earlier =>
      refine ⟨(ih chosen).1, List.forall_mem_append.mpr ⟨(ih chosen).2, ?_⟩⟩
      rw [List.forall_mem_singleton]
      intro covers
      simpa [covers, chosen] using earlier

/-- Where scopes are nested or lie apart, the one that starts last is the smallest. -/
theorem innermost_eq_some_iff_isSmallestAt
    (nested : ∀ first ∈ scopes, ∀ second ∈ scopes, first.IsNestedOrApart second)
    (distinct : ∀ first ∈ scopes, ∀ second ∈ scopes, first.start = second.start → first = second) :
    innermost offset scopes = some scope ↔ scope.IsSmallestAt scopes offset := by
  have smallest {scope : Scope} (chosen : innermost offset scopes = some scope) :
      scope.IsSmallestAt scopes offset := by
    have member := mem_of_innermost chosen
    obtain ⟨covers, latest⟩ := start_le_of_innermost chosen
    refine ⟨member, covers, ?_⟩
    intro other otherMember otherCovers differ
    have start_le := latest other otherMember otherCovers
    have start_ne : other.start ≠ scope.start := fun same =>
      differ (distinct other otherMember scope member same)
    have around := nested other otherMember scope member
    simp only [Scope.covers, Bool.and_eq_true, decide_eq_true_eq] at covers otherCovers
    unfold Scope.IsNestedOrApart at around
    omega
  constructor
  · exact smallest
  · intro isSmallest
    cases chosen : innermost offset scopes with
    | none =>
      have uncovered := innermost_eq_none_iff.mp chosen scope isSmallest.member
      simp [isSmallest.covers] at uncovered
    | some best =>
      have isBest := smallest chosen
      by_contra differ
      have differ : best ≠ scope := fun same => differ (congrArg some same)
      have less := isSmallest.smallest best isBest.member isBest.covers differ
      have more := isBest.smallest scope isSmallest.member isSmallest.covers differ.symm
      omega

end

/-! All of a text -/

theorem mem_bodyOwners_of_mem_scopes {masked : Text} {scope : Scope}
    (member : scope ∈ (scopesFrom (typeHeaders masked) 0 [] masked).closed ++
      (scopesFrom (typeHeaders masked) 0 [] masked).unterminated) :
    ∃ owner ∈ bodyOwners masked, scope = owner.extent masked := by
  rcases List.mem_append.mp member with closed | waiting
  · obtain ⟨owner, owns, found⟩ := List.mem_filterMap.mp ((closed_perm masked).mem_iff.mp closed)
    obtain ⟨stop, partner, rfl⟩ := Option.map_eq_some_iff.mp found
    refine ⟨owner, owns, ?_⟩
    rw [TypeHeader.extent, partner]
    rfl
  · obtain ⟨owner, owns, rfl⟩ := List.mem_map.mp ((unterminated_perm masked).mem_iff.mp waiting)
    obtain ⟨owns, unpaired⟩ := List.mem_filter.mp owns
    refine ⟨owner, owns, ?_⟩
    rw [TypeHeader.extent, Option.isNone_iff_eq_none.mp unpaired]
    rfl

/-- The index of the types of a text is exact bracket matching: each body brace has one owner, which
is reported once, as closed just behind the partner of the brace, or as open up to the end of the
text when the brace has no partner, and nothing else is reported. Where the braces between the
keyword of each type and its body are nested, types are nested or lie apart, and the type around an
offset is the smallest one that covers it. -/
theorem typeExtents_ofText (text : Text) :
    let masked := maskLiterals text
    let scopes := ScopeIndex.ofText text
    (∀ opener stop, partner? masked opener = some stop ↔ IsPartner masked opener stop) ∧
    (bodyOwners masked).Sublist (typeHeaders masked) ∧
    (∀ header ∈ typeHeaders masked,
      ∃! owner, owner ∈ bodyOwners masked ∧ owner.body = header.body) ∧
    scopes.closed.Perm ((bodyOwners masked).filterMap fun owner =>
      (partner? masked owner.body).map fun stop => owner.scope (stop + 1)) ∧
    scopes.unterminated.Perm
      (((bodyOwners masked).filter fun owner => (partner? masked owner.body).isNone).map
        (·.scope masked.length)) ∧
    ((∀ header ∈ typeHeaders masked, closesBraces 0 (header.clause masked) = true) →
      (∀ first ∈ scopes.closed ++ scopes.unterminated,
        ∀ second ∈ scopes.closed ++ scopes.unterminated, first.IsNestedOrApart second) ∧
      ∀ offset,
        (∀ name, scopes.containingType offset = some name ↔
          ∃ scope : Scope, scope.IsSmallestAt scopes.closed offset ∧ scope.name = name) ∧
        (scopes.containingType offset = none ↔
          ∀ scope ∈ scopes.closed, scope.covers offset = false)) := by
  intro masked scopes
  refine ⟨fun opener stop => partner?_eq_some_iff, List.filter_sublist,
    fun header => existsUnique_bodyOwner, closed_perm masked, unterminated_perm masked, ?_⟩
  intro balanced
  have nested : ∀ first ∈ scopes.closed ++ scopes.unterminated,
      ∀ second ∈ scopes.closed ++ scopes.unterminated, first.IsNestedOrApart second := by
    intro first isFirst second isSecond
    obtain ⟨outer, isOuter, rfl⟩ := mem_bodyOwners_of_mem_scopes isFirst
    obtain ⟨inner, isInner, rfl⟩ := mem_bodyOwners_of_mem_scopes isSecond
    exact isNestedOrApart_extent balanced isOuter isInner
  have distinct : ∀ first ∈ scopes.closed, ∀ second ∈ scopes.closed,
      first.start = second.start → first = second := by
    intro first isFirst second isSecond same
    obtain ⟨outer, isOuter, rfl⟩ := mem_bodyOwners_of_mem_scopes (List.mem_append_left _ isFirst)
    obtain ⟨inner, isInner, rfl⟩ := mem_bodyOwners_of_mem_scopes (List.mem_append_left _ isSecond)
    rw [eq_of_start (mem_bodyOwners.mp isOuter).1 (mem_bodyOwners.mp isInner).1 same]
  refine ⟨nested, fun offset => ⟨fun name => ?_, ?_⟩⟩
  · rw [containingType_eq, Option.map_eq_some_iff]
    refine exists_congr fun scope => and_congr_left' ?_
    apply innermost_eq_some_iff_isSmallestAt _ distinct
    intro first isFirst second isSecond
    exact nested first (List.mem_append_left _ isFirst) second (List.mem_append_left _ isSecond)
  · rw [containingType_eq, Option.map_eq_none_iff]
    exact innermost_eq_none_iff

/-- In the braces of a class within a class the inner one is the smallest type, those of a function
in it being no type's. -/
theorem typeExtents_ofText_nested :
    let text := "class A \x7b class B \x7b fun f() \x7b \x7d \x7d \x7d".toList
    let scopes := ScopeIndex.ofText text
    (∀ header ∈ typeHeaders (maskLiterals text),
      closesBraces 0 (header.clause (maskLiterals text)) = true) ∧
    scopes.containingType 30 = some "B".toList ∧
    ∃ scope : Scope, scope.IsSmallestAt scopes.closed 30 ∧ scope.name = "B".toList := by
  intro text scopes
  have balanced : ∀ header ∈ typeHeaders (maskLiterals text),
      closesBraces 0 (header.clause (maskLiterals text)) = true := by decide +kernel
  have inner : scopes.containingType 30 = some "B".toList := by decide +kernel
  obtain ⟨-, around⟩ := (typeExtents_ofText text).2.2.2.2.2 balanced
  exact ⟨balanced, inner, ((around 30).1 "B".toList).mp inner⟩

end DeclBridge.Kotlin
