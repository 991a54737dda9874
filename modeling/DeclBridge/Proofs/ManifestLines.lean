import DeclBridge.Manifest.Merge
import DeclBridge.Proofs.PlainText

/-! The lines of a manifest that count, in both directions: every line that is read fits the format,
and lines that fit it are read back from the text of a manifest, where only the layout is lost. -/

namespace DeclBridge.Text

theorem lines_newline (rest : Text) : lines ('\n' :: rest) = [] :: lines rest := by
  rw [lines]
  · rfl
  · simp

private theorem lines_cons {c : Char} (inside : isLineBreak c = false) (rest : Text) :
    lines (c :: rest) = (c :: (lines rest).headD []) :: (lines rest).tail := by
  have noReturn : ∀ more, c = '\r' → rest = '\n' :: more → False := by
    rintro more rfl -
    exact absurd inside (by decide)
  rw [lines.eq_3 c rest noReturn, if_neg (by simp [inside])]
  cases lines rest <;> rfl

theorem lines_append_newline {line : Text} (single : IsSingleLine line) (rest : Text) :
    lines (line ++ '\n' :: rest) = line :: lines rest := by
  induction line with
  | nil => exact lines_newline rest
  | cons c line ih =>
    rw [isSingleLine_cons] at single
    rw [List.cons_append, lines_cons single.1, ih single.2]
    rfl

theorem isSingleLine_of_mem_lines {text line : Text} (found : line ∈ lines text) :
    IsSingleLine line := by
  fun_induction lines text generalizing line with
  | case1 => cases found
  | case2 rest ih =>
    rcases List.mem_cons.mp found with rfl | found
    · simp
    · exact ih found
  | case3 c rest _ breaks ih =>
    rcases List.mem_cons.mp found with rfl | found
    · simp
    · exact ih found
  | case4 c rest _ inside none ih =>
    rw [List.mem_singleton.mp found]
    simpa using inside
  | case5 c rest _ inside first more some ih =>
    rw [some] at ih
    rcases List.mem_cons.mp found with rfl | found
    · exact isSingleLine_cons.mpr ⟨by simpa using inside, ih List.mem_cons_self⟩
    · exact ih (List.mem_cons_of_mem _ found)

end DeclBridge.Text

namespace DeclBridge.Manifest

open Text

/-- A line as a manifest keeps it: plain, and neither blank nor a comment. -/
structure IsKept (line : Text) : Prop extends IsPlain line where
  counts : isIgnored line = false

theorem isKept_of_mem_significantLines {text line : Text} (found : line ∈ significantLines text) :
    IsKept line := by
  obtain ⟨trimmed, counts⟩ := List.mem_filter.mp found
  obtain ⟨raw, read, rfl⟩ := List.mem_map.mp trimmed
  exact ⟨⟨(isSingleLine_of_mem_lines read).trim, isTrimmed_trim raw⟩, by simpa using counts⟩

theorem significantLines_newline (rest : Text) :
    significantLines ('\n' :: rest) = significantLines rest := by
  rw [significantLines, lines_newline]
  rfl

/-- What counts of some lines. -/
def significant (block : List Text) : List Text :=
  (block.map trim).filter (!isIgnored ·)

theorem significant_append (first second : List Text) :
    significant (first ++ second) = significant first ++ significant second := by
  rw [significant, List.map_append, List.filter_append, significant, significant]

theorem significant_of_isKept {block : List Text} (kept : ∀ line ∈ block, IsKept line) :
    significant block = block := by
  have trimmed : block.map trim = block := by
    conv_rhs => rw [← List.map_id block]
    exact List.map_congr_left fun line member => (kept line member).trimmed
  rw [significant, trimmed, List.filter_eq_self]
  exact fun line member => by simp [(kept line member).counts]

theorem significantLines_append {line : Text} (single : IsSingleLine line) (rest : Text) :
    significantLines (line ++ '\n' :: rest) = significant [line] ++ significantLines rest := by
  rw [significantLines, lines_append_newline single]
  exact significant_append [line] (lines rest)

theorem significantLines_banner (rest : Text) :
    significantLines (banner ++ '\n' :: rest) = significantLines rest := by
  have ignored : significant [banner] = [] := by decide
  rw [significantLines_append (by decide), ignored, List.nil_append]

theorem significantLines_unlines {block : List Text} (single : ∀ line ∈ block, IsSingleLine line)
    (rest : Text) :
    significantLines (unlines block ++ '\n' :: rest) =
      significant block ++ significantLines rest := by
  induction block with
  | nil => exact significantLines_newline rest
  | cons line block ih =>
    obtain ⟨first, others⟩ := List.forall_mem_cons.mp single
    cases block with
    | nil => simpa [unlines] using significantLines_append first rest
    | cons next more =>
      have behind := ih others
      rw [unlines] at behind ⊢
      rw [List.intercalate_cons_cons, List.append_assoc, List.append_assoc,
        List.singleton_append, significantLines_append first, behind, ← List.append_assoc,
        ← significant_append, List.singleton_append]

theorem significantLines_unparagraphs {blocks : List (List Text)}
    (single : ∀ block ∈ blocks, ∀ line ∈ block, IsSingleLine line) :
    significantLines (unparagraphs (blocks.map unlines) ++ ['\n']) =
      significant blocks.flatten := by
  induction blocks with
  | nil => exact significantLines_newline []
  | cons block blocks ih =>
    obtain ⟨first, others⟩ := List.forall_mem_cons.mp single
    cases blocks with
    | nil =>
      rw [unparagraphs, List.map_singleton, List.intercalate_singleton, List.flatten_singleton]
      exact (significantLines_unlines first []).trans (List.append_nil (significant block))
    | cons next more =>
      have behind := ih others
      rw [unparagraphs, List.map_cons] at behind
      rw [unparagraphs, List.map_cons, List.map_cons, List.intercalate_cons_cons,
        List.append_assoc, List.append_assoc, List.cons_append, List.cons_append,
        significantLines_unlines first, List.nil_append, significantLines_newline, behind,
        ← significant_append, ← List.flatten_cons]

/-- Of a manifest of sections those lines count that count in the sections. -/
theorem significantLines_ofSections {parts : List (List Text)}
    (single : ∀ part ∈ parts, ∀ line ∈ part, IsSingleLine line) :
    significantLines (ofSections parts) = significant parts.flatten := by
  cases parts with
  | nil => exact significantLines_banner []
  | cons part parts =>
    rw [ofSections, unparagraphs, List.map_cons, List.intercalate_cons_cons, List.append_assoc,
      List.append_assoc, List.cons_append, List.cons_append, significantLines_banner,
      List.nil_append, significantLines_newline]
    exact significantLines_unparagraphs single

/-- Reading the lines of a manifest of sections undoes laying the sections out. -/
theorem significantLines_ofSections_of_isKept {parts : List (List Text)}
    (kept : ∀ part ∈ parts, ∀ line ∈ part, IsKept line) :
    significantLines (ofSections parts) = parts.flatten := by
  have single : ∀ part ∈ parts, ∀ line ∈ part, IsSingleLine line :=
    fun part member line inside => (kept part member line inside).singleLine
  rw [significantLines_ofSections single, significant_of_isKept]
  intro line member
  obtain ⟨part, present, inside⟩ := List.mem_flatten.mp member
  exact kept part present line inside

end DeclBridge.Manifest
