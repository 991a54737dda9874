import DeclBridge.Manifest.Decode
import DeclBridge.Proofs.ManifestLines

/-! Sections are the common ground of reading and merging. Laying well-formed sections out and
splitting the text again gives the same sections, and decoding a text in one pass is reading each of
its sections on its own. -/

namespace DeclBridge

theorem Kind.tag_of_ofTag? {tag : Text} {kind : Kind} (known : Kind.ofTag? tag = some kind) :
    kind.tag = tag := by
  simpa using List.find?_some known

namespace Manifest

open Text

/-- A section is a header and lines that open no further section. -/
inductive RawSection.WellFormed : RawSection → Prop where
  | intro {key header body} (opens : readHeader? header = some key)
      (inside : ∀ line ∈ body, readHeader? line = none) : WellFormed ⟨key, header :: body⟩

namespace RawSection

/-- A section of a known kind with the entries behind its header. -/
def section? (part : RawSection) : Option Section :=
  part.key.open?.map fun opened => { opened with entries := part.lines.tail.filterMap readEntry? }

/-- What decoding makes of a section that stands alone. -/
def declaration? (part : RawSection) : Option Declaration :=
  part.section?.bind Section.declaration?

theorem WellFormed.nonempty {part : RawSection} (formed : part.WellFormed) : part.lines ≠ [] := by
  cases formed
  simp

end RawSection

/-! Grouping -/

theorem groupLines_append {body : List Text} (inside : ∀ line ∈ body, readHeader? line = none)
    (current : Option RawSection) (rest : List Text) :
    groupLines current (body ++ rest) =
      groupLines (current.map fun part => { part with lines := part.lines ++ body }) rest := by
  induction body generalizing current with
  | nil => cases current <;> simp
  | cons line body ih =>
    obtain ⟨first, others⟩ := List.forall_mem_cons.mp inside
    simp only [List.cons_append, groupLines, first]
    rw [ih others]
    cases current <;> simp

theorem groupLines_flatMap {parts : List RawSection} (formed : ∀ part ∈ parts, part.WellFormed)
    (current : Option RawSection) :
    groupLines current (parts.flatMap (·.lines)) = current.toList ++ parts := by
  induction parts generalizing current with
  | nil => simp [groupLines]
  | cons part parts ih =>
    obtain ⟨first, others⟩ := List.forall_mem_cons.mp formed
    cases first with
    | @intro key header body opens inside =>
      simp only [List.flatMap_cons, List.cons_append, groupLines, opens]
      rw [groupLines_append inside, ih others]
      simp

theorem wellFormed_of_mem_groupLines {current : Option RawSection} {lines : List Text}
    (formed : ∀ part ∈ current, part.WellFormed) {part : RawSection}
    (found : part ∈ groupLines current lines) : part.WellFormed := by
  induction lines generalizing current with
  | nil => exact formed part (by simpa [groupLines] using found)
  | cons line lines ih =>
    cases read : readHeader? line with
    | some key =>
      simp only [groupLines, read, List.mem_append, Option.mem_toList] at found
      rcases found with found | found
      · exact formed part found
      · refine ih ?_ found
        rintro _ ⟨⟩
        exact .intro read (by simp)
    | none =>
      simp only [groupLines, read] at found
      refine ih ?_ found
      intro extended same
      obtain ⟨old, held, rfl⟩ := Option.map_eq_some_iff.mp same
      cases formed old held with
      | intro opens inside =>
        apply RawSection.WellFormed.intro opens
        intro other member
        rcases List.mem_append.mp member with member | member
        · exact inside other member
        · rwa [List.mem_singleton.mp member]

theorem mem_of_mem_groupLines {current : Option RawSection} {lines : List Text} {part : RawSection}
    (found : part ∈ groupLines current lines) {line : Text} (inside : line ∈ part.lines) :
    line ∈ lines ∨ ∃ old ∈ current, line ∈ old.lines := by
  induction lines generalizing current with
  | nil => exact .inr ⟨part, by simpa [groupLines] using found, inside⟩
  | cons next lines ih =>
    cases read : readHeader? next with
    | some key =>
      simp only [groupLines, read, List.mem_append, Option.mem_toList] at found
      rcases found with found | found
      · exact .inr ⟨part, found, inside⟩
      · rcases ih found with later | ⟨opened, ⟨⟩, here⟩
        · exact .inl (List.mem_cons_of_mem _ later)
        · exact .inl (by simp [List.mem_singleton.mp here])
    | none =>
      simp only [groupLines, read] at found
      rcases ih found with later | ⟨extended, same, here⟩
      · exact .inl (List.mem_cons_of_mem _ later)
      · obtain ⟨old, held, rfl⟩ := Option.map_eq_some_iff.mp same
        rcases List.mem_append.mp here with here | here
        · exact .inr ⟨old, held, here⟩
        · exact .inl (by simp [List.mem_singleton.mp here])

/-! The sections of a text -/

theorem wellFormed_of_mem_splitSections {text : Text} {part : RawSection}
    (found : part ∈ splitSections text) : part.WellFormed :=
  wellFormed_of_mem_groupLines (by simp) found

theorem isKept_of_mem_splitSections {text : Text} {part : RawSection}
    (found : part ∈ splitSections text) {line : Text} (inside : line ∈ part.lines) :
    IsKept line := by
  rcases mem_of_mem_groupLines found inside with read | ⟨_, ⟨⟩, _⟩
  exact isKept_of_mem_significantLines read

/-- Sections survive being laid out as a manifest. -/
theorem splitSections_ofSections {parts : List RawSection}
    (formed : ∀ part ∈ parts, part.WellFormed)
    (kept : ∀ part ∈ parts, ∀ line ∈ part.lines, IsKept line) :
    splitSections (ofSections (parts.map (·.lines))) = parts := by
  rw [splitSections, significantLines_ofSections_of_isKept (by simpa using kept),
    ← List.flatMap_def, groupLines_flatMap formed]
  rfl

/-! Decoding -/

private theorem finish_section? (current : Option RawSection) :
    finish (current.bind RawSection.section?) =
      current.toList.filterMap RawSection.declaration? := by
  cases current with
  | none => rfl
  | some part =>
    change part.declaration?.toList = [part].filterMap RawSection.declaration?
    cases read : part.declaration? <;> simp [read]

/-- Both passes hold the same section in hand: decoding keeps of it what `section?` says. -/
theorem decodeLines_section? (current : Option RawSection)
    (opened : ∀ part ∈ current, part.lines ≠ []) (lines : List Text) :
    decodeLines (current.bind RawSection.section?) lines =
      (groupLines current lines).filterMap RawSection.declaration? := by
  induction lines generalizing current with
  | nil => exact finish_section? current
  | cons line lines ih =>
    cases read : readHeader? line with
    | some key =>
      have start : key.open? = (some (⟨key, [line]⟩ : RawSection)).bind RawSection.section? := by
        simp [RawSection.section?, SectionKey.open?, Function.comp_def]
      simp only [decodeLines, groupLines, read, List.filterMap_append]
      rw [start, ih _ (by simp), finish_section?]
    | none =>
      simp only [decodeLines, groupLines, read]
      rw [← ih]
      · congr 1
        cases current with
        | none => cases readEntry? line <;> rfl
        | some part =>
          have tail : (part.lines ++ [line]).tail = part.lines.tail ++ [line] :=
            List.tail_append_of_ne_nil (opened part rfl)
          cases known : part.key.open? with
          | none => cases readEntry? line <;> simp [RawSection.section?, known]
          | some kind =>
            cases entry : readEntry? line <;> simp [RawSection.section?, known, tail, entry]
      · intro extended same
        obtain ⟨old, -, rfl⟩ := Option.map_eq_some_iff.mp same
        simp

/-- Decoding a manifest is reading each of its sections on its own. -/
theorem decode_eq_filterMap (text : Text) :
    decode text = (splitSections text).filterMap RawSection.declaration? :=
  decodeLines_section? none (by simp) (significantLines text)

/-! Keys -/

theorem Section.of_declaration? {part : Section} {declaration : Declaration}
    (read : part.declaration? = some declaration) :
    declaration.kind = part.kind ∧ part.identity? = some declaration.identity := by
  unfold declaration? at read
  split at read
  · next opened =>
    obtain ⟨found, described, rfl⟩ := Option.map_eq_some_iff.mp read
    obtain ⟨identity, named, rfl⟩ := Option.map_eq_some_iff.mp described
    exact ⟨opened.symm, named⟩
  · next opened =>
    obtain ⟨found, described, rfl⟩ := Option.map_eq_some_iff.mp read
    obtain ⟨identity, named, rfl⟩ := Option.map_eq_some_iff.mp described
    exact ⟨opened.symm, named⟩
  · next opened =>
    obtain ⟨found, described, rfl⟩ := Option.map_eq_some_iff.mp read
    obtain ⟨identity, named, filled⟩ := Option.bind_eq_some_iff.mp described
    obtain ⟨element, -, same⟩ := Option.bind_eq_some_iff.mp filled
    cases same
    exact ⟨opened.symm, named⟩

theorem Section.key_of_declaration? {part : Section} {declaration : Declaration}
    (read : part.declaration? = some declaration) :
    declaration.key = (part.kind, part.qualifiedName) := by
  obtain ⟨kind, read⟩ := of_declaration? read
  obtain ⟨name, -, identity⟩ := Option.map_eq_some_iff.mp read
  rw [Declaration.key, kind, ← identity]

/-- The header key of all sections that describe declarations with a given key. -/
def SectionKey.ofKey (key : Kind × Text) : SectionKey :=
  ⟨key.1.tag, key.2⟩

theorem SectionKey.ofKey_injective {first second : Kind × Text}
    (same : ofKey first = ofKey second) : first = second := by
  obtain ⟨tags, names⟩ := SectionKey.mk.inj same
  have kinds : some first.1 = some second.1 := by
    rw [← Kind.ofTag?_tag, ← Kind.ofTag?_tag, tags]
  exact Prod.ext (Option.some.inj kinds) names

/-- A declaration has the key that the header of its section gives. -/
theorem RawSection.ofKey_of_declaration? {part : RawSection} {declaration : Declaration}
    (read : part.declaration? = some declaration) :
    SectionKey.ofKey declaration.key = part.key := by
  obtain ⟨opened, found, read⟩ := Option.bind_eq_some_iff.mp read
  rw [Section.key_of_declaration? read]
  simp only [RawSection.section?, SectionKey.open?, Option.map_map, Option.map_eq_some_iff] at found
  obtain ⟨kind, known, rfl⟩ := found
  exact congrArg (SectionKey.mk · part.key.qualifiedName) (Kind.tag_of_ofTag? known)

end Manifest
end DeclBridge
