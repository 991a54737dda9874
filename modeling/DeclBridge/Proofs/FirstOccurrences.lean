import DeclBridge.Declaration
import DeclBridge.Manifest.Merge

/-! Declarations and sections are made unique by one procedure: of the items with one key the first
stays. Its laws are proved once for items and keys of any type. -/

namespace DeclBridge

variable [DecidableEq β]

/-- The items whose keys have not been seen, neither before nor in an earlier item. -/
def firstBy (key : α → β) (seen : List β) : List α → List α
  | [] => []
  | item :: rest =>
    if key item ∈ seen then firstBy key seen rest
    else item :: firstBy key (key item :: seen) rest

variable {key : α → β}

theorem mem_firstBy {seen : List β} {items : List α} {item : α} :
    item ∈ firstBy key seen items ↔
      key item ∉ seen ∧ items.find? (fun other => key other = key item) = some item := by
  induction items generalizing seen with
  | nil => simp [firstBy]
  | cons first rest ih =>
    by_cases known : key first ∈ seen
    · simp only [firstBy, if_pos known, ih]
      apply and_congr_right
      intro fresh
      have differs : key first ≠ key item := fun same => fresh (same ▸ known)
      simp [differs]
    · simp only [firstBy, if_neg known, List.mem_cons, ih, not_or]
      by_cases same : key first = key item
      · have absent : key item ∉ seen := same ▸ known
        simp [same, absent, eq_comm]
      · have differs : item ≠ first := fun equal => same (equal ▸ rfl)
        simp [same, differs, Ne.symm same]

theorem nodup_map_firstBy (seen : List β) (items : List α) :
    ((firstBy key seen items).map key).Nodup := by
  induction items generalizing seen with
  | nil => simp [firstBy]
  | cons first rest ih =>
    by_cases known : key first ∈ seen
    · simpa only [firstBy, if_pos known] using ih seen
    · simp only [firstBy, if_neg known, List.map_cons, List.nodup_cons]
      refine ⟨?_, ih _⟩
      intro again
      obtain ⟨item, kept, same⟩ := List.mem_map.mp again
      exact (mem_firstBy.mp kept).1 (same ▸ List.mem_cons_self)

/-- No key is lost. -/
theorem mem_map_firstBy {items : List α} {wanted : β} :
    wanted ∈ (firstBy key [] items).map key ↔ wanted ∈ items.map key := by
  constructor
  · intro present
    obtain ⟨item, kept, rfl⟩ := List.mem_map.mp present
    exact List.mem_map_of_mem (List.mem_of_find?_eq_some (mem_firstBy.mp kept).2)
  · intro present
    obtain ⟨item, member, rfl⟩ := List.mem_map.mp present
    have occurs : (items.find? fun other => key other = key item).isSome :=
      List.find?_isSome.mpr ⟨item, member, by simp⟩
    obtain ⟨first, found⟩ := Option.isSome_iff_exists.mp occurs
    have same : key first = key item := by simpa using List.find?_some found
    refine List.mem_map.mpr ⟨first, mem_firstBy.mpr ⟨by simp, ?_⟩, same⟩
    rwa [same]

/-- It does not matter whether items are made unique before or after they are translated, as long as
the translation keeps keys apart. -/
theorem firstBy_map [DecidableEq δ] {other : γ → δ} {translate : α → γ} {rename : β → δ}
    (injective : ∀ {first second}, rename first = rename second → first = second)
    (follows : ∀ item, other (translate item) = rename (key item)) (seen : List β)
    (items : List α) :
    firstBy other (seen.map rename) (items.map translate) =
      (firstBy key seen items).map translate := by
  induction items generalizing seen with
  | nil => rfl
  | cons first rest ih =>
    have known : other (translate first) ∈ seen.map rename ↔ key first ∈ seen := by
      rw [follows]
      constructor
      · intro present
        obtain ⟨earlier, member, same⟩ := List.mem_map.mp present
        exact injective same ▸ member
      · exact List.mem_map_of_mem
    by_cases present : key first ∈ seen
    · simp only [List.map_cons, firstBy, if_pos present, if_pos (known.mpr present), ih]
    · simp only [List.map_cons, firstBy, if_neg present, if_neg (mt known.mp present), ← ih]
      rw [follows]

/-- Removing repetitions in two steps is removing them in one, wherever the items are cut. What the
first step has seen must be seen by the second as well. -/
private theorem firstBy_append_firstBy {earlier seen : List β} (known : earlier ⊆ seen)
    (items : List α) {rest others : List α}
    (same : ∀ seen, firstBy key seen rest = firstBy key seen others) :
    firstBy key seen (firstBy key earlier items ++ rest) = firstBy key seen (items ++ others) := by
  induction items generalizing earlier seen with
  | nil => exact same seen
  | cons first items ih =>
    by_cases before : key first ∈ earlier
    · simp only [firstBy, if_pos before, List.cons_append, if_pos (known before)]
      exact ih known
    · by_cases now : key first ∈ seen
      · simp only [firstBy, if_neg before, List.cons_append, if_pos now]
        exact ih (List.cons_subset.mpr ⟨now, known⟩)
      · simp only [firstBy, if_neg before, List.cons_append, if_neg now]
        rw [ih (List.cons_subset_cons _ known)]

/-- Groups may be made unique before they are put together. -/
theorem firstBy_flatMap_firstBy (seen : List β) (groups : List (List α)) :
    firstBy key seen (groups.flatMap (firstBy key [])) = firstBy key seen groups.flatten := by
  induction groups generalizing seen with
  | nil => rfl
  | cons group groups ih =>
    rw [List.flatMap_cons, List.flatten_cons]
    exact firstBy_append_firstBy (List.nil_subset seen) group ih

/-- Items whose keys are known by then add nothing. -/
theorem firstBy_append_of_known {seen : List β} {items others : List α}
    (known : ∀ item ∈ others, key item ∈ seen ∨ key item ∈ items.map key) :
    firstBy key seen (items ++ others) = firstBy key seen items := by
  induction items generalizing seen with
  | nil =>
    rw [List.nil_append, firstBy, List.eq_nil_iff_forall_not_mem]
    intro item kept
    have fresh := mem_firstBy.mp kept
    have member := List.mem_of_find?_eq_some fresh.2
    exact fresh.1 ((known item member).resolve_right (by simp))
  | cons first items ih =>
    by_cases before : key first ∈ seen
    · simp only [List.cons_append, firstBy, if_pos before]
      apply ih
      intro item member
      rcases known item member with old | new
      · exact .inl old
      · rcases List.mem_cons.mp new with same | new
        · exact .inl (same ▸ before)
        · exact .inr new
    · simp only [List.cons_append, firstBy, if_neg before]
      rw [ih]
      intro item member
      rcases known item member with old | new
      · exact .inl (List.mem_cons_of_mem _ old)
      · rcases List.mem_cons.mp new with same | new
        · exact .inl (same ▸ List.mem_cons_self)
        · exact .inr new

/-- With distinct keys there is nothing to remove. -/
theorem firstBy_eq_self {seen : List β} {items : List α} (distinct : (items.map key).Nodup)
    (fresh : ∀ item ∈ items, key item ∉ seen) : firstBy key seen items = items := by
  induction items generalizing seen with
  | nil => rfl
  | cons first items ih =>
    obtain ⟨new, others⟩ := List.forall_mem_cons.mp fresh
    rw [List.map_cons, List.nodup_cons] at distinct
    rw [firstBy, if_neg new, ih distinct.2]
    intro item member known
    rcases List.mem_cons.mp known with same | old
    · exact distinct.1 (same ▸ List.mem_map_of_mem member)
    · exact others item member old

/-- The first items of every key are what is left when repetitions are erased. -/
theorem firstBy_eq_eraseDupsBy (seen : List β) (items : List α) :
    firstBy key seen items = (items.filter (key · ∉ seen)).eraseDupsBy
      fun later first => key later = key first := by
  induction items generalizing seen with
  | nil => rfl
  | cons first items ih =>
    by_cases known : key first ∈ seen
    · rw [firstBy, if_pos known, ih, List.filter_cons_of_neg (by simpa using known)]
    · rw [firstBy, if_neg known, ih, List.filter_cons_of_pos (by simpa using known),
        List.eraseDupsBy_cons, List.filter_filter]
      congr 3
      funext item
      simp [not_or]

theorem firstPerKey_eq_firstBy (declarations : List Declaration) :
    firstPerKey declarations = firstBy Declaration.key [] declarations := by
  have go (seen : List (Kind × Text)) :
      firstPerKey.go seen declarations = firstBy Declaration.key seen declarations := by
    induction declarations generalizing seen with
    | nil => rfl
    | cons first rest ih =>
      by_cases present : first.key ∈ seen <;> simp [firstPerKey.go, firstBy, present, ih]
  exact go []

theorem Manifest.firstSections_eq_firstBy (sections : List Manifest.RawSection) :
    Manifest.firstSections sections = firstBy Manifest.RawSection.key [] sections := by
  have go (seen : List Manifest.SectionKey) :
      Manifest.firstSections.go seen sections = firstBy Manifest.RawSection.key seen sections := by
    induction sections generalizing seen with
    | nil => rfl
    | cons first rest ih =>
      by_cases present : first.key ∈ seen <;> simp [Manifest.firstSections.go, firstBy, present, ih]
  exact go []

end DeclBridge
