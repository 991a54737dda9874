import DeclBridge.Proofs.DecodedDeclarations

/-! Writing what was read and reading it again. A written section always names its package, and only
a header with a name opens one, so a declaration that comes back has a name and a trimmed package.
These two are all that reading leaves open. -/

namespace DeclBridge

open Text

namespace Manifest

/-! What is written for a declaration that was read -/

/-- The entries for the identity come first, and no others depend on it. -/
private theorem pairs_eq (declaration : Declaration) (identity : Identity) :
    pairs (declaration.withIdentity identity) = ("name", identity.name) ::
      ("namespace", identity.package) :: (pairs declaration).drop 2 := by
  cases declaration <;> rfl

private theorem withIdentity_self (declaration : Declaration) :
    declaration.withIdentity declaration.identity = declaration := by
  cases declaration <;> rfl

theorem mem_pairs_iff {declaration : Declaration} {pair : String × Text} :
    pair ∈ pairs declaration ↔ pair = ("name", declaration.identity.name) ∨
      pair = ("namespace", declaration.identity.package) ∨ pair ∈ (pairs declaration).drop 2 := by
  conv_lhs => rw [← withIdentity_self declaration, pairs_eq]
  rw [List.mem_cons, List.mem_cons]

theorem isWord_key_of_mem_pairs {declaration : Declaration} (decoded : declaration.Decoded)
    {pair : String × Text} (member : pair ∈ pairs declaration) :
    IsWord pair.1.toList ∧ IsSingleLine pair.2 := by
  rcases mem_pairs_iff.mp member with rfl | rfl | member
  · exact ⟨by simp; decide, decoded.identity.name.singleLine⟩
  · exact ⟨by simp; decide, decoded.identity.package⟩
  · have identity : Identity.LineSafe ⟨['x'], [], []⟩ := by constructor <;> decide
    have safe := isPair_of_mem_pairs (decoded.values identity) pair
      (by simp [pairs_eq, member])
    exact ⟨safe.key, safe.value.singleLine⟩

theorem isSingleLine_of_mem_sectionLines {declaration : Declaration}
    (decoded : declaration.Decoded) : ∀ line ∈ sectionLines declaration, IsSingleLine line := by
  rw [sectionLines, entryLines_eq_map, List.forall_mem_cons]
  refine ⟨(isKept_header decoded.identity.qualifiedName _).singleLine, fun line member => ?_⟩
  obtain ⟨pair, inside, rfl⟩ := List.mem_map.mp member
  obtain ⟨key, value⟩ := isWord_key_of_mem_pairs decoded inside
  exact isSingleLine_append.mpr ⟨key.isPlain.singleLine,
    isSingleLine_cons.mpr ⟨by decide, value⟩⟩

theorem readHeader?_header_nil (kind : Kind) :
    readHeader? (SectionKey.header ⟨kind.tag, []⟩) = none := by
  cases kind <;> decide

/-- Trimming an entry trims the end of its value. -/
theorem trim_entry {key : String} (word : IsWord key.toList) (value : Text) :
    trim (entry key value) = entry key (trimEnd value) := by
  obtain ⟨c, rest, same, inside⟩ := exists_entry word value
  have front : skipBlanks (entry key value) = entry key value := by
    rw [skipBlanks_eq_self_iff, same]
    rintro _ ⟨⟩
    exact isBlank_of_isWordChar inside
  rw [trim, front, entry, trimEnd_append_cons (by decide)]
  rfl

/-- What counts of a written section: its header and all of its entries. -/
theorem significant_sectionLines {declaration : Declaration} (decoded : declaration.Decoded) :
    significant (sectionLines declaration) = (sectionKey declaration).header ::
      (pairs declaration).map fun pair => entry pair.1 (trimEnd pair.2) := by
  have kept : IsKept (sectionKey declaration).header :=
    isKept_header decoded.identity.qualifiedName _
  have header : significant [(sectionKey declaration).header] = [(sectionKey declaration).header] :=
    significant_of_isKept (List.forall_mem_singleton.mpr kept)
  rw [sectionLines, ← List.singleton_append, significant_append, header, entryLines_eq_map]
  refine congrArg ((sectionKey declaration).header :: ·) ?_
  rw [significant, List.map_map, List.filter_eq_self.mpr]
  · refine List.map_congr_left fun pair member => ?_
    exact trim_entry (isWord_key_of_mem_pairs decoded member).1 pair.2
  · intro line member
    obtain ⟨pair, inside, rfl⟩ := List.mem_map.mp member
    have word := (isWord_key_of_mem_pairs decoded inside).1
    rw [Function.comp_apply, trim_entry word, isIgnored_entry word]
    rfl

theorem significantLines_encode {declarations : List Declaration}
    (decoded : ∀ declaration ∈ declarations, declaration.Decoded) :
    significantLines (encode declarations) =
      significant (declarations.flatMap sectionLines) := by
  refine significantLines_ofSections ?_
  rw [List.forall_mem_map]
  exact fun declaration member => isSingleLine_of_mem_sectionLines (decoded declaration member)

/-! What comes back -/

/-- A section with a name that also names its package. -/
structure RawSection.IsNamed (part : RawSection) : Prop where
  qualified : part.key.qualifiedName ≠ []
  package :
    ∃ line ∈ part.lines.tail, ∃ package, readEntry? line = some ("namespace".toList, package)

theorem isNamed_of_mem_groupLines {declarations : List Declaration}
    (decoded : ∀ declaration ∈ declarations, declaration.Decoded) {current : Option RawSection}
    (named : ∀ part ∈ current, part.IsNamed) :
    ∀ part ∈ groupLines current (significant (declarations.flatMap sectionLines)),
      part.IsNamed := by
  induction declarations generalizing current with
  | nil => simpa [groupLines, significant] using named
  | cons declaration declarations ih =>
    obtain ⟨first, others⟩ := List.forall_mem_cons.mp decoded
    rw [List.flatMap_cons, significant_append, significant_sectionLines first]
    have inside : ∀ line ∈ (pairs declaration).map fun pair => entry pair.1 (trimEnd pair.2),
        readHeader? line = none := by
      refine List.forall_mem_map.mpr fun pair member => ?_
      exact readHeader?_entry (isWord_key_of_mem_pairs first member).1 _
    have package : ("namespace", declaration.identity.package) ∈ pairs declaration :=
      mem_pairs_iff.mpr (.inr (.inl rfl))
    -- Without a name the first line is no header, and all lines go to the section before it.
    by_cases qualified : declaration.identity.qualifiedName = []
    · have opens : readHeader? (sectionKey declaration).header = none := by
        rw [sectionKey, qualified]
        exact readHeader?_header_nil declaration.kind
      rw [groupLines_append (List.forall_mem_cons.mpr ⟨opens, inside⟩)]
      refine ih others fun extended same => ?_
      obtain ⟨part, held, rfl⟩ := Option.map_eq_some_iff.mp same
      obtain ⟨qualified, line, behind, package, read⟩ := named part held
      refine ⟨qualified, line, ?_, package, read⟩
      rw [List.tail_append_of_ne_nil (by rintro empty; simp [empty] at behind)]
      exact List.mem_append_left _ behind
    · have opens : readHeader? (sectionKey declaration).header = some (sectionKey declaration) :=
        readHeader?_header first.identity.qualifiedName _ qualified first.identity.unbracketed
      rw [List.cons_append, groupLines, opens]
      dsimp only
      rw [List.forall_mem_append, groupLines_append inside]
      refine ⟨by simpa using named, ih others ?_⟩
      rintro _ ⟨⟩
      refine ⟨qualified, entry "namespace" (trimEnd declaration.identity.package), ?_, _,
        readEntry?_entry (by decide) _⟩
      exact List.mem_map.mpr ⟨_, package, rfl⟩

/-- The package of a declaration is trimmed when its section names one. -/
theorem RawSection.IsNamed.of_declaration? {part : RawSection} (named : part.IsNamed)
    {declaration : Declaration} (read : part.declaration? = some declaration) :
    declaration.identity.qualifiedName ≠ [] ∧ IsTrimmed declaration.identity.package := by
  obtain ⟨opened, found, read⟩ := Option.bind_eq_some_iff.mp read
  obtain ⟨_, known, rfl⟩ := Option.map_eq_some_iff.mp found
  obtain ⟨kind, -, rfl⟩ := Option.map_eq_some_iff.mp known
  obtain ⟨name, -, identity⟩ := Option.map_eq_some_iff.mp (Section.of_declaration? read).2
  rw [← identity]
  refine ⟨named.qualified, ?_⟩
  obtain ⟨line, behind, package, entry⟩ := named.package
  have present : ((part.lines.tail.filterMap readEntry?).lookup "namespace".toList).isSome :=
    List.lookup_isSome_iff.mpr ⟨_, List.mem_filterMap.mpr ⟨line, behind, entry⟩, beq_self_eq_true _⟩
  obtain ⟨value, first⟩ := Option.isSome_iff_exists.mp present
  obtain ⟨before, after, whole, -⟩ := List.lookup_eq_some_iff.mp first
  have member : ("namespace".toList, value) ∈ part.lines.tail.filterMap readEntry? := by
    simp [whole]
  obtain ⟨other, -, read⟩ := List.mem_filterMap.mp member
  change IsTrimmed (Section.package _)
  rw [Section.package, Section.first?]
  dsimp only
  rw [first]
  exact isTrimmed_of_readEntry? read

/-- A manifest that was read comes back when it is written and read again, exactly when all of its
declarations have a qualified name and no package has blanks around it. -/
theorem decode_encode_decode_iff (text : Text) :
    decode (encode (decode text)) = decode text ↔ ∀ declaration ∈ decode text,
      declaration.identity.qualifiedName ≠ [] ∧ IsTrimmed declaration.identity.package := by
  have decoded : ∀ declaration ∈ decode text, declaration.Decoded :=
    fun declaration => decoded_of_mem_decode
  constructor
  · intro same declaration member
    rw [← same, decode_eq_filterMap] at member
    obtain ⟨part, found, read⟩ := List.mem_filterMap.mp member
    rw [splitSections, significantLines_encode decoded] at found
    exact (isNamed_of_mem_groupLines decoded (by simp) part found).of_declaration? read
  · intro named
    refine (decode_encode_eq_self_iff fun declaration member => ?_).mpr fun declaration member => ?_
    · obtain ⟨qualified, trimmed⟩ := named declaration member
      exact (decoded declaration member).lineSafe qualified trimmed
    · exact (decoded declaration member).writable

/-- Behind a header that names a blank, entries are read as a section and written to the one before.
-/
theorem entries_joined_behind_blank_name :
    let text := "[sum:A]\nname=A\n[sum: ]\nname=B\nsubclass=C||true".toList
    decode (encode (decode text)) ≠ decode text := by
  decide +kernel

/-! Lists on their own -/

/-- What is left of a section when one of its lists is written, and nothing else. -/
def Section.rewritten (part : Section) (key : String) : Section :=
  { part with entries := (listEntry key (part.list key)).filterMap readEntry? }

theorem Section.list_rewritten {key : String} (word : IsWord key.toList) (part : Section) :
    (part.rewritten key).list key = part.list key := by
  have entries : ∀ entry ∈ part.list key, IsTrimmed entry ∧ entry ≠ [] :=
    fun entry member => Kotlin.isTrimmed_of_mem_splitTopLevel member
  have joined : trim (writeList (part.list key)) = writeList (part.list key) :=
    isTrimmed_intercalate (isPlain_singleton rfl).trimmed fun entry member =>
      (entries entry member).1
  have again : readList (writeList (part.list key)) = part.list key :=
    Kotlin.splitTopLevel_intercalate_eq_self_iff.mpr
      ⟨entries, Kotlin.isSeparable_splitTopLevel _⟩
  cases empty : (part.list key).isEmpty with
  | true =>
    have written : part.rewritten key = { part with entries := [] } := by
      simp [Section.rewritten, listEntry, empty]
    rw [written, List.isEmpty_iff.mp empty]
    rfl
  | false =>
    have written : part.rewritten key =
        { part with entries := [(key.toList, writeList (part.list key))] } := by
      simp [Section.rewritten, listEntry, empty, readEntry?_entry word, joined]
    rw [written, Section.list, Section.first?]
    simpa using again

/-- A list that was cut from any text is joined and cut again without loss, and so is a list that
was read from a section when it is written as an entry. -/
theorem splitTopLevel_rejoined :
    (∀ text, Kotlin.splitTopLevel ([','].intercalate (Kotlin.splitTopLevel text)) =
      Kotlin.splitTopLevel text) ∧
    ∀ part : Section,
      (part.rewritten "typeParams").list "typeParams" = part.list "typeParams" ∧
      (part.rewritten "conformances").list "conformances" = part.list "conformances" := by
  refine ⟨fun text => ?_, fun part => ⟨?_, ?_⟩⟩
  · exact Kotlin.splitTopLevel_intercalate_eq_self_iff.mpr
      ⟨fun entry => Kotlin.isTrimmed_of_mem_splitTopLevel, Kotlin.isSeparable_splitTopLevel text⟩
  · exact part.list_rewritten (by decide)
  · exact part.list_rewritten (by decide)

end Manifest
end DeclBridge
