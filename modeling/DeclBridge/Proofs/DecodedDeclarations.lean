import DeclBridge.Proofs.ManifestRoundTrip

/-! What reading a manifest promises of every declaration, whatever the text. All values are plain
and read back as they were read, so a declaration can be written again. The two exceptions concern
its identity: a header may name nothing but blanks, and a package that is cut off a qualified name
may end in a blank. -/

namespace DeclBridge

open Text

/-- What a section tells about the identity of its declaration. -/
structure Identity.Decoded (identity : Identity) : Prop where
  qualifiedName : IsPlain identity.qualifiedName
  unbracketed : ']' ∉ identity.qualifiedName
  name : IsPlain identity.name
  named : identity.name ≠ []
  package : IsSingleLine identity.package

/-- The same declaration under another identity. -/
def Declaration.withIdentity (identity : Identity) : Declaration → Declaration
  | sum declaration => .sum { declaration with toIdentity := identity }
  | async declaration => .async { declaration with toIdentity := identity }
  | stream declaration => .stream { declaration with toIdentity := identity }

/-- What reading promises: but for its identity the declaration can be written, and nothing of it is
mistaken for another value when it is read again. -/
structure Declaration.Decoded (declaration : Declaration) : Prop where
  identity : declaration.identity.Decoded
  values : ∀ {identity : Identity}, identity.LineSafe →
    (declaration.withIdentity identity).LineSafe
  writable : declaration.Writable

theorem Identity.Decoded.lineSafe {identity : Identity} (decoded : identity.Decoded)
    (qualified : identity.qualifiedName ≠ []) (trimmed : IsTrimmed identity.package) :
    identity.LineSafe :=
  ⟨decoded.qualifiedName, qualified, decoded.unbracketed, decoded.name, decoded.package, trimmed⟩

theorem Declaration.Decoded.lineSafe {declaration : Declaration} (decoded : declaration.Decoded)
    (qualified : declaration.identity.qualifiedName ≠ [])
    (trimmed : IsTrimmed declaration.identity.package) : declaration.LineSafe := by
  have safe := decoded.values (decoded.identity.lineSafe qualified trimmed)
  cases declaration <;> exact safe

namespace Kotlin.Nesting

variable {state : Nesting}

theorem isSettled_next {c : Char} (plain : c ∉ marks) (unescaping : c ≠ '\\') :
    (state.next c).IsSettled := by
  have unquoted : c ≠ '"' := fun same => plain (by simp [marks, same])
  have unhyphened : c ≠ '-' := fun same => plain (by simp [marks, same])
  refine ⟨?_, by simp [next, unhyphened]⟩
  cases quoting : state.quoting <;> simp [next, quoting, Quoting.next, unquoted, unescaping]

/-- Nothing changes when the blanks between the marks of a format are taken away. -/
theorem IsSettled.trim_append (settled : state.IsSettled) (text : Text) {c : Char}
    (plain : c ∉ marks) (unescaping : c ≠ '\\') (uncut : c ≠ ',') :
    (state.pieces (text ++ [c]) = [text ++ [c]] →
      state.pieces (trim text ++ [c]) = [trim text ++ [c]]) ∧
    (state.after (text ++ [c])).Similar (state.after (trim text ++ [c])) := by
  constructor
  · intro whole
    have single (state : Nesting) : state.pieces [c] = [[c]] :=
      pieces_cons_eq_singleton_iff.mpr ⟨fun comma => uncut comma.1, rfl⟩
    have front := (pieces_append_eq_singleton_iff.mp whole).1
    exact pieces_append_eq_singleton_iff.mpr ⟨settled.pieces_trim text front, single _⟩
  · obtain ⟨front, back, same, frontBlank, backBlank⟩ := exists_trim text
    have dropped : state.after (text ++ [c]) =
        ((state.after front).after (trim text)).next c := by
      conv_lhs => rw [same]
      rw [after_append, after_append, after_append]
      exact after_blanks_next backBlank plain unescaping
    rw [dropped, after_append]
    exact ((settled.after_blanks_similar frontBlank).after (trim text)).next c

end Kotlin.Nesting

namespace Manifest

open Kotlin (Nesting)

/-! Properties that are written again -/

private theorem nesting_writeType_readType {state : Nesting} (settled : state.IsSettled)
    (text : Text) :
    let written := writeType (readType text).1 (readType text).2
    (state.pieces text = [text] → state.pieces written = [written]) ∧
      ((state.after text).IsTop → (state.after written).IsTop) := by
  unfold readType
  dsimp only
  split
  · next marked =>
    obtain ⟨front, same⟩ := List.getLast?_eq_some_iff.mp marked
    have trimmed := settled.pieces_trim text
    have top := settled.isTop_trim text
    rw [same] at trimmed top
    obtain ⟨whole, similar⟩ := settled.trim_append front (c := '?') (by decide) (by decide)
      (by decide)
    simp only [writeType, same, List.dropLast_concat, if_true]
    exact ⟨fun unsplit => whole (trimmed unsplit), fun closed => similar.isTop.mp (top closed)⟩
  · exact ⟨settled.pieces_trim text, settled.isTop_trim text⟩

/-- A property that was read from one entry of a list is written as one entry. -/
theorem nesting_writeProperty {text : Text} {property : Property}
    (read : readProperty? text = some property) :
    (Kotlin.IsUnsplit text → Kotlin.IsUnsplit (writeProperty property)) ∧
      (Kotlin.IsClosed text → Kotlin.IsClosed (writeProperty property)) := by
  simp only [readProperty?, Option.bind_eq_bind, Option.bind_eq_some_iff, Prod.exists,
    Option.ite_none_left_eq_some, Option.some.injEq] at read
  obtain ⟨name, type, divided, -, rfl⟩ := read
  obtain ⟨rfl, -⟩ := of_cut_eq_some divided
  have colon : ':' ∉ Nesting.marks := by decide
  obtain ⟨named, similar⟩ := Nesting.start_isSettled.trim_append name colon (by decide) (by decide)
  have settled (front : Text) : (Nesting.start.after (front ++ [':'])).IsSettled := by
    rw [Nesting.after_append]
    exact Nesting.isSettled_next colon (by decide)
  obtain ⟨typed, top⟩ := nesting_writeType_readType (settled name) type
  rw [writeProperty, List.append_cons name, List.append_cons (trim name)]
  constructor
  · intro whole
    obtain ⟨front, back⟩ := Nesting.pieces_append_eq_singleton_iff.mp whole
    refine Nesting.pieces_append_eq_singleton_iff.mpr ⟨named front, ?_⟩
    rw [← similar.pieces]
    exact typed back
  · intro closed
    rw [Kotlin.IsClosed, Nesting.after_append] at closed ⊢
    exact (similar.after _).isTop.mp (top closed)

theorem isSeparable_of_readProperties (text : Text) :
    Kotlin.IsSeparable (((readList text).filterMap readProperty?).map writeProperty) := by
  rw [List.map_filterMap]
  refine (Kotlin.isSeparable_splitTopLevel text).filterMap ?_ ?_ <;>
  · intro entry _ written given
    obtain ⟨property, read, rfl⟩ := Option.map_eq_some_iff.mp given
    first | exact (nesting_writeProperty read).1 | exact (nesting_writeProperty read).2

/-! Values -/

theorem isTrimmed_readType (text : Text) : IsTrimmed (readType text).1 := by
  unfold readType
  dsimp only
  split <;> exact isTrimmed_trim _

/-- Where the values of a parameter stand in the text that it was read from. -/
private theorem exists_of_readParameter? {text : Text} {parameter : Parameter}
    (read : readParameter? text = some parameter) :
    ∃ front name rest, text = front ++ (name ++ ':' :: rest) ∧
      (parameter.isVararg = false → front = []) ∧ parameter.name = trim name ∧
      (∃ type, type ⊆ rest ∧ parameter.type = (readType type).1) ∧
      ∀ value ∈ parameter.default, ∃ before, rest = before ++ value := by
  rw [readParameter?_eq] at read
  obtain ⟨⟨name, rest⟩, divided, read⟩ := Option.bind_eq_some_iff.mp read
  rw [Option.ite_none_left_eq_some, Option.some.injEq] at read
  obtain ⟨-, rfl⟩ := read
  obtain ⟨behind, -⟩ := of_cut_eq_some divided
  have typed : ((cut '=' rest).map (·.1)).getD rest ⊆ rest := by
    cases assigned : cut '=' rest with
    | none => exact List.Subset.refl rest
    | some parts =>
      rw [(of_cut_eq_some assigned).1]
      exact List.subset_append_left _ _
  have default : ∀ value ∈ (cut '=' rest).map (·.2), ∃ before, rest = before ++ value := by
    intro value given
    obtain ⟨⟨type, value⟩, assigned, rfl⟩ := Option.map_eq_some_iff.mp given
    exact ⟨type ++ ['='], by simp [(of_cut_eq_some assigned).1]⟩
  cases found : behind? varargMark text with
  | none =>
    rw [found] at behind
    exact ⟨[], name, rest, behind, fun _ => rfl, rfl, ⟨_, typed, rfl⟩, default⟩
  | some more =>
    rw [found] at behind
    refine ⟨varargMark, name, rest, ?_, by simp, rfl, ⟨_, typed, rfl⟩, default⟩
    rw [behind?_eq_some_iff.mp found]
    exact congrArg (varargMark ++ ·) behind

private theorem isPrefix_trim {text name rest : Text} (trimmed : IsTrimmed text)
    (whole : text = name ++ rest) : trim name <+: text := by
  have front : skipBlanks name = name := by
    rw [skipBlanks_eq_self_iff]
    intro c head
    apply trimmed.head_ink
    rw [whole, List.head?_append, Option.mem_def.mp head]
    rfl
  rw [trim, front, trimEnd_eq_rdropWhile, whole]
  exact (List.rdropWhile_prefix isBlank name).trans (List.prefix_append name rest)

private theorem isTrimmedEnd_of_append {front back : Text}
    (trimmed : IsTrimmedEnd (front ++ back)) : IsTrimmedEnd back := by
  cases back with
  | nil => rfl
  | cons c back =>
    rw [isTrimmedEnd_iff] at trimmed ⊢
    rwa [List.getLast?_append_of_ne_nil _ (by simp)] at trimmed

/-- What is read as a parameter can be written on one line and read again. -/
theorem safe_of_readParameter? {text : Text} (plain : IsPlain text) {parameter : Parameter}
    (read : readParameter? text = some parameter) : parameter.LineSafe ∧ parameter.Writable := by
  obtain ⟨named, undivided, typed, unassigned, marked, variadic, inside⟩ := of_readParameter? read
  obtain ⟨front, name, rest, whole, single, nameSame, ⟨type, typeInside, typeSame⟩, last⟩ :=
    exists_of_readParameter? read
  have nameInside : name ⊆ text := by
    rw [whole]
    exact List.Subset.trans (List.subset_append_left _ _) (List.subset_append_right _ _)
  have restInside : rest ⊆ text := by
    rw [whole, List.append_cons, ← List.append_assoc]
    exact List.subset_append_right _ _
  constructor
  · refine ⟨⟨?_, ?_⟩, ⟨?_, ?_⟩, fun value given => ⟨?_, ?_⟩⟩
    · rw [nameSame]
      exact plain.singleLine.of_subset (List.Subset.trans (trim_subset name) nameInside)
    · rw [nameSame]
      exact isTrimmed_trim name
    · rw [typeSame]
      refine plain.singleLine.of_subset (List.Subset.trans (readType_subset type) ?_)
      exact List.Subset.trans typeInside restInside
    · rw [typeSame]
      exact isTrimmed_readType type
    · exact plain.singleLine.of_subset (inside value given)
    · obtain ⟨before, rfl⟩ := last value given
      have trimmed := plain.trimmed.trimmedEnd
      rw [whole, List.append_cons, ← List.append_assoc, ← List.append_assoc] at trimmed
      exact isTrimmedEnd_of_append trimmed
  · refine ⟨named, undivided, fun unmarked start => ?_, typed, unassigned, marked⟩
    have whole : text = name ++ ':' :: rest := by rwa [single unmarked] at whole
    rw [nameSame] at start
    obtain ⟨behind, same⟩ := start.trans (isPrefix_trim plain.trimmed whole)
    rw [behind?_eq_some_iff.mpr same.symm, unmarked] at variadic
    cases variadic

theorem subset_of_mem_splitOn {text part : Text} {mark : Char} (found : part ∈ text.splitOn mark) :
    part ⊆ text := by
  have whole : part ⊆ [mark].intercalate (text.splitOn mark) := subset_intercalate found
  rwa [List.intercalate_splitOn] at whole

theorem safe_of_readProperty? {text : Text} (single : IsSingleLine text) {property : Property}
    (read : readProperty? text = some property) : property.LineSafe := by
  obtain ⟨-, nameInside, typeInside, -⟩ := of_readProperty? read
  simp only [readProperty?, Option.bind_eq_bind, Option.bind_eq_some_iff, Prod.exists,
    Option.ite_none_left_eq_some, Option.some.injEq] at read
  obtain ⟨name, type, -, -, rfl⟩ := read
  exact ⟨⟨single.of_subset nameInside, isTrimmed_trim name⟩,
    ⟨single.of_subset typeInside, isTrimmed_readType type⟩⟩

/-- What is read as a variant can be written on one line and read again. -/
theorem safe_of_readVariant? {text : Text} (single : IsSingleLine text) {variant : Variant}
    (read : readVariant? text = some variant) : variant.LineSafe ∧ variant.Writable := by
  obtain ⟨named, unbarred, properties⟩ := of_readVariant? read
  unfold readVariant? at read
  split at read
  · next name entries isObject more fields =>
    rw [Option.ite_none_left_eq_some] at read
    obtain ⟨-, same⟩ := read
    cases same
    have inside {field : Text} (member : field ∈ text.splitOn '|') : IsSingleLine field :=
      single.of_subset (subset_of_mem_splitOn member)
    rw [fields] at inside
    constructor
    · refine ⟨⟨(inside (by simp)).trim, isTrimmed_trim name⟩, fun property member => ?_⟩
      obtain ⟨entry, found, read⟩ := List.mem_filterMap.mp member
      have listed : IsSingleLine entries := inside (by simp)
      exact safe_of_readProperty? (listed.of_subset (Kotlin.subset_of_mem_splitTopLevel found)) read
    · exact ⟨named, unbarred, fun property member => (properties property member).1,
        fun property member => (properties property member).2.1,
        fun property member => (properties property member).2.2,
        isSeparable_of_readProperties entries⟩
  · cases read

/-! Sections -/

theorem isTrimmed_of_readEntry? {line key value : Text}
    (read : readEntry? line = some (key, value)) : IsTrimmed value := by
  simp only [Option.bind_eq_bind, readEntry?, Option.bind_eq_some_iff, Prod.exists,
    Option.ite_none_left_eq_some, Option.some.injEq, Prod.mk.injEq] at read
  obtain ⟨before, after, -, -, -, rfl⟩ := read
  exact isTrimmed_trim after

theorem isPlain_of_readEntry? {line key value : Text} (single : IsSingleLine line)
    (read : readEntry? line = some (key, value)) : IsPlain value := by
  refine ⟨?_, isTrimmed_of_readEntry? read⟩
  simp only [Option.bind_eq_bind, readEntry?, Option.bind_eq_some_iff, Prod.exists,
    Option.ite_none_left_eq_some, Option.some.injEq, Prod.mk.injEq] at read
  obtain ⟨before, after, divided, -, -, rfl⟩ := read
  rw [(of_cut_eq_some divided).1, isSingleLine_append, isSingleLine_cons] at single
  exact single.2.2.trim

theorem isPlain_of_readHeader? {line : Text} {key : SectionKey} (single : IsSingleLine line)
    (read : readHeader? line = some key) :
    IsPlain key.qualifiedName ∧ ']' ∉ key.qualifiedName := by
  simp only [readHeader?, literal?, Option.bind_eq_bind, Option.bind_eq_some_iff, Prod.exists,
    Option.ite_none_right_eq_some, Option.some.injEq] at read
  obtain ⟨opened, opening, tag, rest, tagged, named, marked, name, last, run, -, rfl⟩ := read
  obtain ⟨-, rfl, -⟩ := run?_eq_some_iff.mp run
  obtain ⟨-, -, rfl⟩ := run?_eq_some_iff.mp tagged
  have inside : named.takeWhile (· ≠ ']') ⊆ line := by
    rw [behind?_eq_some_iff.mp opening]
    refine List.Subset.trans ?_ (List.subset_append_right _ _)
    refine List.Subset.trans ?_ (List.dropWhile_sublist isWordChar).subset
    rw [behind?_eq_some_iff.mp marked]
    exact List.Subset.trans (List.takeWhile_sublist _).subset (List.subset_append_right _ _)
  refine ⟨⟨(single.of_subset inside).trim, isTrimmed_trim _⟩, fun bracket => ?_⟩
  have outside := List.mem_takeWhile_imp (trim_subset _ bracket)
  simp at outside

namespace Section

variable {part : Section}

variable (plain : ∀ entry ∈ part.entries, IsPlain entry.2)
include plain

theorem isPlain_of_first? {key : String} {value : Text} (found : part.first? key = some value) :
    IsPlain value := by
  obtain ⟨before, after, whole, -⟩ := List.lookup_eq_some_iff.mp found
  exact plain (key.toList, value) (by simp [whole])

theorem isPlain_of_nonempty? {key : String} {value : Text}
    (found : part.nonempty? key = some value) : IsPlain value ∧ value ≠ [] := by
  obtain ⟨found, nonempty⟩ := Option.filter_eq_some_iff.mp found
  exact ⟨isPlain_of_first? plain found, by simpa using nonempty⟩

theorem isPlain_of_mem_values {key : String} {value : Text} (member : value ∈ part.values key) :
    IsPlain value := by
  obtain ⟨entry, kept, rfl⟩ := List.mem_map.mp member
  exact plain entry (List.mem_filter.mp kept).1

theorem isPlain_of_mem_list {key : String} {entry : Text} (found : entry ∈ part.list key) :
    IsPlain entry := by
  refine ⟨?_, (Kotlin.isTrimmed_of_mem_splitTopLevel found).1⟩
  refine IsSingleLine.of_subset ?_ (Kotlin.subset_of_mem_splitTopLevel found)
  cases given : part.first? key with
  | none => simp
  | some value => exact (isPlain_of_first? plain given).singleLine

theorem safe_of_mem_parameters {parameter : Parameter} (found : parameter ∈ part.parameters) :
    parameter.LineSafe ∧ parameter.Writable := by
  obtain ⟨text, member, read⟩ := List.mem_filterMap.mp found
  exact safe_of_readParameter? (isPlain_of_mem_values plain member) read

omit plain in
theorem isWritableList_list (key : String) : IsWritableList (part.list key) :=
  ⟨fun _ found => (Kotlin.isTrimmed_of_mem_splitTopLevel found).2,
    Kotlin.isSeparable_splitTopLevel _⟩

omit plain in
theorem nonempty?_ne_some_nil (key : String) : part.nonempty? key ≠ some [] := by
  intro found
  simpa using (Option.filter_eq_some_iff.mp found).2

theorem decoded_of_identity? (qualifiedName : IsPlain part.qualifiedName)
    (unbracketed : ']' ∉ part.qualifiedName) {identity : Identity}
    (read : part.identity? = some identity) : identity.Decoded := by
  obtain ⟨name, found, rfl⟩ := Option.map_eq_some_iff.mp read
  obtain ⟨name, named⟩ := isPlain_of_nonempty? plain found
  refine ⟨qualifiedName, unbracketed, name, named, ?_⟩
  change IsSingleLine part.package
  unfold package
  cases given : part.first? "namespace" with
  | some value => exact (isPlain_of_first? plain given).singleLine
  | none =>
    cases divided : cutLast '.' part.qualifiedName with
    | none => simp
    | some parts =>
      obtain ⟨⟨after, before⟩, reversed, rfl⟩ := Option.map_eq_some_iff.mp divided
      refine qualifiedName.singleLine.of_subset fun c inside => ?_
      rw [← List.mem_reverse, (of_cut_eq_some reversed).1]
      simp_all

theorem isPlain_owner : ∀ name ∈ part.nonempty? "class", IsPlain name :=
  fun _ found => (isPlain_of_nonempty? plain found).1

section

variable (qualifiedName : IsPlain part.qualifiedName) (unbracketed : ']' ∉ part.qualifiedName)
include qualifiedName unbracketed

theorem decoded_of_sumType? {declaration : SumType} (read : part.sumType? = some declaration) :
    (Declaration.sum declaration).Decoded := by
  obtain ⟨identity, named, rfl⟩ := Option.map_eq_some_iff.mp read
  have decoded := decoded_of_identity? plain qualifiedName unbracketed named
  have variants : ∀ variant ∈ (part.values "subclass").filterMap readVariant?,
      variant.LineSafe ∧ variant.Writable := by
    intro variant member
    obtain ⟨text, member, read⟩ := List.mem_filterMap.mp member
    exact safe_of_readVariant? (isPlain_of_mem_values plain member).singleLine read
  refine ⟨decoded, fun {other} identity => ?_, ?_⟩
  · exact ⟨identity, fun _ => isPlain_of_mem_list plain,
      fun variant member => (variants variant member).1,
      fun name found => (isPlain_of_nonempty? plain found).1, fun _ => isPlain_of_mem_list plain⟩
  · exact ⟨decoded.named, isWritableList_list _,
      fun variant member => (variants variant member).2, nonempty?_ne_some_nil _,
      isWritableList_list _⟩

theorem decoded_of_asyncFunction? {declaration : AsyncFunction}
    (read : part.asyncFunction? = some declaration) : (Declaration.async declaration).Decoded := by
  obtain ⟨identity, named, rfl⟩ := Option.map_eq_some_iff.mp read
  have decoded := decoded_of_identity? plain qualifiedName unbracketed named
  have returned : IsPlain ((part.nonempty? "return").getD unitType) ∧
      (part.nonempty? "return").getD unitType ≠ [] := by
    cases given : part.nonempty? "return" with
    | none => decide
    | some type => exact isPlain_of_nonempty? plain given
  refine ⟨decoded, fun {other} identity => ?_, ?_⟩
  · exact ⟨identity, fun parameter member => (safe_of_mem_parameters plain member).1, returned.1,
      fun _ => isPlain_of_mem_list plain, isPlain_owner plain⟩
  · exact ⟨decoded.named, fun parameter member => (safe_of_mem_parameters plain member).2,
      returned.2, isWritableList_list _, nonempty?_ne_some_nil _⟩

theorem decoded_of_stream? {declaration : Stream} (read : part.stream? = some declaration) :
    (Declaration.stream declaration).Decoded := by
  obtain ⟨identity, named, filled⟩ := Option.bind_eq_some_iff.mp read
  obtain ⟨element, typed, same⟩ := Option.bind_eq_some_iff.mp filled
  cases same
  have decoded := decoded_of_identity? plain qualifiedName unbracketed named
  obtain ⟨elementType, nonempty⟩ := isPlain_of_nonempty? plain typed
  refine ⟨decoded, fun {other} identity => ?_, ?_⟩
  · exact ⟨identity, elementType, fun parameter member => (safe_of_mem_parameters plain member).1,
      isPlain_owner plain⟩
  · exact ⟨decoded.named, nonempty,
      fun parameter member => (safe_of_mem_parameters plain member).2, nonempty?_ne_some_nil _⟩

theorem decoded_of_declaration? {declaration : Declaration}
    (read : part.declaration? = some declaration) : declaration.Decoded := by
  unfold declaration? at read
  split at read
  · obtain ⟨found, described, rfl⟩ := Option.map_eq_some_iff.mp read
    exact decoded_of_sumType? plain qualifiedName unbracketed described
  · obtain ⟨found, described, rfl⟩ := Option.map_eq_some_iff.mp read
    exact decoded_of_asyncFunction? plain qualifiedName unbracketed described
  · obtain ⟨found, described, rfl⟩ := Option.map_eq_some_iff.mp read
    exact decoded_of_stream? plain qualifiedName unbracketed described

end

end Section

/-- Every declaration that reading answers with keeps its promises. -/
theorem decoded_of_mem_decode {text : Text} {declaration : Declaration}
    (found : declaration ∈ decode text) : declaration.Decoded := by
  rw [decode_eq_filterMap] at found
  obtain ⟨part, member, read⟩ := List.mem_filterMap.mp found
  obtain ⟨opened, described, read⟩ := Option.bind_eq_some_iff.mp read
  obtain ⟨_, known, rfl⟩ := Option.map_eq_some_iff.mp described
  obtain ⟨kind, -, rfl⟩ := Option.map_eq_some_iff.mp known
  have kept {line : Text} (inside : line ∈ part.lines) : IsSingleLine line :=
    (isKept_of_mem_splitSections member inside).singleLine
  cases wellFormed_of_mem_splitSections member with
  | @intro key header body opens _ =>
    obtain ⟨qualifiedName, unbracketed⟩ := isPlain_of_readHeader? (kept (by simp)) opens
    refine Section.decoded_of_declaration? (fun entry inside => ?_) qualifiedName unbracketed read
    obtain ⟨line, behind, read⟩ := List.mem_filterMap.mp inside
    exact isPlain_of_readEntry? (kept (List.mem_of_mem_tail behind)) read

end Manifest
end DeclBridge
