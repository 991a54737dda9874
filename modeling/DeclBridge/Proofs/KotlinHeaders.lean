import DeclBridge.Kotlin.Scope
import DeclBridge.Proofs.Readers

/-! What headers are made of. A marker may stand in front. Every name that a header reader answers
with is a word, and so is the name of every type that a place in a source can be attributed to. -/

namespace DeclBridge.Kotlin

open Text

/-! Markers -/

/-- A marker ends with its name or its arguments, and blanks. -/
inductive IsMarker (names : List String) : Text → Prop where
  | bare {name blanks} (member : name ∈ names) (blank : ∀ c ∈ blanks, isBlank c = true) :
    IsMarker names ('@' :: name.toList ++ blanks)
  | applied {name arguments blanks} (member : name ∈ names)
    (blank : ∀ c ∈ blanks, isBlank c = true) :
    IsMarker names ('@' :: name.toList ++ arguments ++ ')' :: blanks)

theorem exists_of_afterMarker? {names : List String} {text rest : Text}
    (read : afterMarker? names text = some rest) :
    ∃ marker, IsMarker names marker ∧ text = marker ++ rest := by
  have blanks (text : Text) :
      ∃ blanks, (∀ c ∈ blanks, isBlank c = true) ∧ text = blanks ++ skipBlanks text :=
    ⟨text.takeWhile isBlank, fun c inside => List.mem_takeWhile_imp inside,
      (List.takeWhile_append_dropWhile).symm⟩
  obtain ⟨behind, named, read⟩ := Option.bind_eq_some_iff.mp read
  obtain ⟨name, member, found⟩ := List.exists_of_findSome?_eq_some named
  obtain ⟨more, begun, found⟩ := Option.bind_eq_some_iff.mp found
  obtain ⟨other, spelled, found⟩ := Option.bind_eq_some_iff.mp found
  obtain rfl : other = behind := by
    split at found
    · cases found
    · exact Option.some.inj found
  have whole : text = '@' :: name.toList ++ other := by
    rw [behind?_eq_some_iff.mp begun, behind?_eq_some_iff.mp spelled]
    rfl
  obtain ⟨lead, leading, same⟩ := blanks other
  split at read
  · next inner after enclosed =>
    obtain ⟨opened, isRound, closed⟩ := Option.bind_eq_some_iff.mp enclosed
    obtain ⟨trail, trailing, last⟩ := blanks after
    obtain rfl := Option.some.inj read
    refine ⟨'@' :: name.toList ++ (lead ++ '(' :: inner) ++ ')' :: trail,
      .applied member trailing, ?_⟩
    rw [whole, same, behind?_eq_some_iff.mp isRound, (of_cut_eq_some closed).1]
    nth_rewrite 1 [last]
    simp
  · obtain rfl := Option.some.inj read
    refine ⟨'@' :: name.toList ++ lead, .bare member leading, ?_⟩
    rw [whole, List.append_assoc, ← same]

theorem exists_marker_of_marked? {names : List String} {header? : Text → Option (α × Text)}
    {text rest : Text} {found : Marked α} (read : marked? names header? text = some (found, rest)) :
    ∃ marker unmarked, (marker = [] ∨ IsMarker names marker) ∧ found.marker = marker.length ∧
      text = marker ++ unmarked ∧ header? unmarked = some (found.header, rest) := by
  rw [marked?, Option.orElse_eq_orElse, Option.orElse_eq_or, Option.or_eq_some_iff] at read
  rcases read with read | ⟨-, read⟩
  · obtain ⟨unmarked, begun, read⟩ := Option.bind_eq_some_iff.mp read
    obtain ⟨⟨header, behind⟩, headed, same⟩ := Option.bind_eq_some_iff.mp read
    obtain ⟨marker, isMarker, rfl⟩ := exists_of_afterMarker? begun
    cases same
    exact ⟨marker, unmarked, .inr isMarker, by simp, rfl, headed⟩
  · obtain ⟨⟨header, behind⟩, headed, same⟩ := Option.map_eq_some_iff.mp read
    cases same
    exact ⟨[], text, .inl rfl, rfl, rfl, headed⟩

theorem exists_of_marked? {names : List String} {header? : Text → Option (α × Text)}
    {text rest : Text} {found : Marked α} (read : marked? names header? text = some (found, rest)) :
    ∃ place, header? place = some (found.header, rest) := by
  obtain ⟨-, unmarked, -, -, -, headed⟩ := exists_marker_of_marked? read
  exact ⟨unmarked, headed⟩

/-! Names -/

theorem isWord_of_sealedHeader? {text name rest : Text}
    (read : sealedHeader? text = some (name, rest)) : IsWord name := by
  simp only [sealedHeader?, Option.bind_eq_bind, Option.bind_eq_some_iff, Prod.exists] at read
  obtain ⟨_, _, _, _, _, read⟩ := read
  exact isWord_of_word? read

theorem isWord_of_functionHeader? {text rest : Text} {header : FunctionHeader}
    (read : functionHeader? text = some (header, rest)) : IsWord header.name := by
  simp only [functionHeader?, Option.bind_eq_bind, Option.bind_eq_some_iff, Prod.exists,
    Option.pure_def, Option.some.injEq, Prod.mk.injEq] at read
  obtain ⟨_, _, name, _, read, _, _, rfl, rfl⟩ := read
  exact isWord_of_word? read

theorem isWord_of_suspendHeader? {text rest : Text} {header : FunctionHeader}
    (read : suspendHeader? text = some (header, rest)) : IsWord header.name := by
  obtain ⟨_, _, read⟩ := Option.bind_eq_some_iff.mp read
  exact isWord_of_functionHeader? read

theorem isWord_of_anyFunctionHeader? {text rest : Text} {found : Bool × FunctionHeader}
    (read : anyFunctionHeader? text = some (found, rest)) : IsWord found.2.name := by
  simp only [anyFunctionHeader?, Option.bind_eq_bind, Option.bind_eq_some_iff, Prod.exists,
    Option.pure_def, Option.some.injEq, Prod.mk.injEq] at read
  obtain ⟨_, _, read, rfl, rfl⟩ := read
  exact isWord_of_functionHeader? read

theorem isWord_of_flowPropertyHeader? {text name rest : Text}
    (read : flowPropertyHeader? text = some (name, rest)) : IsWord name := by
  simp only [flowPropertyHeader?, Option.bind_eq_bind, Option.bind_eq_some_iff, Prod.exists,
    Option.pure_def, Option.some.injEq, Prod.mk.injEq] at read
  obtain ⟨_, _, _, name, _, read, _, _, _, _, rfl, rfl⟩ := read
  exact isWord_of_word? read

theorem isWord_of_dataCaseHeader? {before : Option Char} {text name rest : Text}
    (read : dataCaseHeader? before text = some (name, rest)) : IsWord name := by
  unfold dataCaseHeader? at read
  split at read
  · simp only [Option.bind_eq_bind, Option.bind_eq_some_iff, Prod.exists,
      Option.pure_def, Option.some.injEq, Prod.mk.injEq] at read
    obtain ⟨_, _, _, _, name, _, read, _, _, rfl, rfl⟩ := read
    exact isWord_of_word? read
  · cases read

theorem isWord_of_objectHeader? {before : Option Char} {text rest : Text} {found : ObjectHeader}
    (read : objectHeader? before text = some (found, rest)) : IsWord found.name := by
  unfold objectHeader? at read
  split at read
  · simp only [Option.bind_eq_bind, Option.bind_eq_some_iff, Prod.exists,
      Option.pure_def, Option.some.injEq, Prod.mk.injEq] at read
    obtain ⟨_, _, name, _, read, _, _, _, rfl, rfl⟩ := read
    exact isWord_of_word? read
  · cases read

theorem isWord_of_typeHeader? {before : Option Char} {text name rest : Text}
    (read : typeHeader? before text = some (name, rest)) : IsWord name := by
  unfold typeHeader? at read
  split at read
  · simp only [Option.bind_eq_bind, Option.bind_eq_some_iff, Prod.exists] at read
    obtain ⟨_, _, _, read⟩ := read
    exact isWord_of_word? read
  · cases read

theorem isWord_of_wordArgument? {key : String} {text word rest : Text}
    (read : wordArgument? key text = some (word, rest)) : IsWord word := by
  simp only [wordArgument?, Option.bind_eq_bind, Option.bind_eq_some_iff, Prod.exists,
    Option.pure_def, Option.some.injEq, Prod.mk.injEq] at read
  obtain ⟨_, _, _, _, _, _, word, _, read, _, _, rfl, rfl⟩ := read
  exact isWord_of_word? read

/-- The package is empty or made of names joined by points. -/
theorem isDottedChar_of_mem_packageName {atLineStart : Bool} {text : Text} {c : Char}
    (inside : c ∈ packageName atLineStart text) : isDottedChar c = true := by
  induction text generalizing atLineStart with
  | nil => cases inside
  | cons d text ih =>
    rw [packageName] at inside
    split at inside
    · next name rest named =>
      split at named
      · obtain ⟨_, _, read⟩ := Option.bind_eq_some_iff.mp named
        exact (isDottedChar_of_dotted? read).2 c inside
      · cases named
    · exact ih inside

/-! Types around a place -/

theorem isWord_of_mem_typeHeaders {masked : Text} {header : TypeHeader}
    (found : header ∈ typeHeaders masked) : IsWord header.name := by
  obtain ⟨place, member, read⟩ := List.mem_filterMap.mp found
  obtain ⟨body, -, rfl⟩ := Option.map_eq_some_iff.mp read
  obtain ⟨_, _, read⟩ := exists_of_mem_occurrences member
  exact isWord_of_typeHeader? read

private theorem isWord_of_mem_closed {headers : List TypeHeader} {offset : Nat}
    {stack : List (Option TypeHeader)} {text : Text} {scope : Scope}
    (named : ∀ header ∈ headers, IsWord header.name)
    (stacked : ∀ header, some header ∈ stack → IsWord header.name)
    (found : scope ∈ (scopesFrom headers offset stack text).closed) : IsWord scope.name := by
  induction text generalizing offset stack with
  | nil => cases found
  | cons c text ih =>
    unfold scopesFrom at found
    split at found
    · refine ih (fun header member => ?_) found
      rcases List.mem_cons.mp member with opened | member
      · exact named header (List.mem_of_find?_eq_some opened.symm)
      · exact stacked header member
    · split at found
      · split at found
        · exact ih (by simp) found
        · next top stack =>
          rcases List.mem_append.mp found with closed | found
          · obtain ⟨header, opened, rfl⟩ := Option.map_eq_some_iff.mp (Option.mem_toList.mp closed)
            exact stacked header (by simp [opened])
          · exact ih (fun header member => stacked header (List.mem_cons_of_mem _ member)) found
      · exact ih stacked found

/-- Of the scopes that cover an offset, the one that starts last. -/
def innermost (offset : Nat) (scopes : List Scope) : Option Scope :=
  (scopes.filter (·.covers offset)).foldl
    (fun best scope => if best.all (·.start < scope.start) then some scope else best) none

theorem containingType_eq (scopes : ScopeIndex) (offset : Nat) :
    scopes.containingType offset = (innermost offset scopes.closed).map (·.name) :=
  rfl

theorem mem_of_innermost {offset : Nat} {scopes : List Scope} {scope : Scope}
    (chosen : innermost offset scopes = some scope) : scope ∈ scopes := by
  -- The search only ever keeps one of the scopes it looks at.
  have kept (scopes : List Scope) (best : Option Scope)
      (chosen : scopes.foldl (fun best scope =>
        if best.all (·.start < scope.start) then some scope else best) best = some scope) :
      best = some scope ∨ scope ∈ scopes := by
    induction scopes generalizing best with
    | nil => exact .inl chosen
    | cons other scopes ih =>
      rcases ih _ chosen with same | member
      · dsimp only at same
        split at same
        · exact .inr (by simp [Option.some.inj same])
        · exact .inl same
      · exact .inr (List.mem_cons_of_mem _ member)
  rcases kept _ none chosen with ⟨⟨⟩⟩ | member
  exact (List.mem_filter.mp member).1

theorem isWord_of_containingType {text name : Text} {offset : Nat}
    (found : (ScopeIndex.ofText text).containingType offset = some name) : IsWord name := by
  rw [containingType_eq] at found
  obtain ⟨scope, chosen, rfl⟩ := Option.map_eq_some_iff.mp found
  exact isWord_of_mem_closed (fun header => isWord_of_mem_typeHeaders) (by simp)
    (mem_of_innermost chosen)

end DeclBridge.Kotlin
