import DeclBridge.Proofs.ManifestMerging

/-! Merging in stages, and reading what was merged. A merged text splits into exactly the sections
that were kept, whatever its parts were, so merging again starts from these sections and reading it
is building them one by one. -/

namespace DeclBridge.Manifest

open Text

/-- The header keys of a text, known kinds or not. -/
def sectionKeys (text : Text) : List SectionKey :=
  (splitSections text).map RawSection.key

theorem mem_sectionKeys_merge {texts : List Text} {key : SectionKey} :
    key ∈ sectionKeys (merge texts) ↔ ∃ text ∈ texts, key ∈ sectionKeys text := by
  rw [sectionKeys, splitSections_merge, firstSections_eq_firstBy, mem_map_firstBy, List.map_flatMap,
    List.mem_flatMap]
  rfl

/-! Merging in stages -/

theorem merge_eq_of_sections {texts others : List Text}
    (same : firstSections (texts.flatMap splitSections) =
      firstSections (others.flatMap splitSections)) : merge texts = merge others := by
  rw [merge, same, merge]

theorem flatMap_splitSections_map_merge (groups : List (List Text)) :
    (groups.map merge).flatMap splitSections =
      (groups.map (·.flatMap splitSections)).flatMap (firstBy RawSection.key []) := by
  rw [List.flatMap_map, List.flatMap_map]
  congr 1
  funext group
  rw [splitSections_merge, firstSections_eq_firstBy]

theorem merge_merged_groups (groups : List (List Text)) :
    merge (groups.map merge) = merge groups.flatten := by
  apply merge_eq_of_sections
  rw [firstSections_eq_firstBy, firstSections_eq_firstBy, flatMap_splitSections_map_merge,
    firstBy_flatMap_firstBy]
  simp only [List.flatMap_def, List.map_flatten, List.flatten_flatten, List.map_map,
    Function.comp_def]

theorem merge_repeated (text : Text) : merge [text, text] = merge [text] := by
  apply merge_eq_of_sections
  rw [firstSections_eq_firstBy, firstSections_eq_firstBy, List.flatMap_cons]
  have again : firstBy RawSection.key [] (splitSections text ++ splitSections text) =
      firstBy RawSection.key [] (splitSections text) :=
    firstBy_append_of_known fun part member => .inr (List.mem_map_of_mem member)
  simpa using again

/-- Whatever the texts are, merging merged groups is merging all texts at once, merging a second
time changes nothing, and the order of the texts does not decide which header keys there are. -/
theorem merge_map_merge (groups : List (List Text)) {texts others : List Text}
    (order : others.Perm texts) :
    merge (groups.map merge) = merge groups.flatten ∧
    merge [merge texts] = merge texts ∧
    (∀ text, merge [text, text] = merge [text]) ∧
    ∀ key, key ∈ sectionKeys (merge others) ↔ key ∈ sectionKeys (merge texts) := by
  refine ⟨merge_merged_groups groups, ?_, merge_repeated, fun key => ?_⟩
  · simpa using merge_merged_groups [texts]
  · rw [mem_sectionKeys_merge, mem_sectionKeys_merge]
    simp only [order.mem_iff]

/-- Texts with stray lines, comments, a kind that nobody knows and line breaks of several sorts. -/
theorem merge_map_merge_garbled :
    let stray := "name=A\r\n# c\u2028[sum: A ]\u0085 x \n\nname = A".toList
    let odd := "[odd:A] \r[sum:A]\n=\n[odd:A]\n".toList
    merge [merge [stray, odd], merge [odd]] = merge [stray, odd, odd] ∧
      merge [merge [stray, odd]] = merge [stray, odd] ∧ merge [odd, odd] = merge [odd] ∧
      ∀ key, key ∈ sectionKeys (merge [odd, stray]) ↔ key ∈ sectionKeys (merge [stray, odd]) := by
  intro stray odd
  obtain ⟨stages, again, twice, keys⟩ :=
    merge_map_merge [[stray, odd], [odd]] (List.Perm.swap stray odd [])
  exact ⟨stages, again, twice odd, keys⟩

/-! Reading a merged text -/

namespace RawSection

/-- A section as the builder of its kind reads it, if its kind is one of the three. -/
def built? (part : RawSection) : Option Declaration :=
  let fields (kind : Kind) : Section :=
    { kind, qualifiedName := part.key.qualifiedName,
      entries := part.lines.tail.filterMap readEntry? }
  if part.key.tag = "sum".toList then (fields .sum).sumType?.map .sum
  else if part.key.tag = "async".toList then (fields .async).asyncFunction?.map .async
  else if part.key.tag = "stream".toList then (fields .stream).stream?.map .stream
  else none

theorem declaration?_eq_built? (part : RawSection) : part.declaration? = part.built? := by
  unfold RawSection.declaration? section? SectionKey.open? built?
  by_cases sum : part.key.tag = "sum".toList
  · rw [if_pos sum, sum]
    rfl
  by_cases async : part.key.tag = "async".toList
  · rw [if_neg sum, if_pos async, async]
    rfl
  by_cases stream : part.key.tag = "stream".toList
  · rw [if_neg sum, if_neg async, if_pos stream, stream]
    rfl
  · have unknown : Kind.ofTag? part.key.tag = none := by
      rw [Kind.ofTag?, List.find?_eq_none]
      intro kind _ same
      rw [decide_eq_true_eq] at same
      cases kind with
      | sum => exact sum same.symm
      | async => exact async same.symm
      | stream => exact stream same.symm
    rw [if_neg sum, if_neg async, if_neg stream, unknown]
    rfl

end RawSection

/-- Reading a merged text in one pass gives what the sections of its parts describe: of every header
key the first section, built by the builder of its kind. With distinct keys in a single text this is
reading the text itself. -/
theorem decode_merge_eq_built (texts : List Text) {text : Text}
    (distinct : (sectionKeys text).Nodup) :
    decode (merge texts) = ((texts.flatMap splitSections).eraseDupsBy
        fun later first => later.key = first.key).filterMap RawSection.built? ∧
      decode (merge [text]) = decode text := by
  constructor
  · rw [decode_merge, firstSections_eq_firstBy, firstBy_eq_eraseDupsBy]
    simp only [List.not_mem_nil, not_false_eq_true, decide_true, List.filter_true]
    exact List.filterMap_congr fun part _ => part.declaration?_eq_built?
  · rw [decode_merge, firstSections_eq_firstBy, List.flatMap_singleton,
      firstBy_eq_self distinct (by simp), decode_eq_filterMap]

/-- A section of an unknown kind, one that its builder refuses, and one that comes second. -/
theorem decode_merge_eq_built_mixed :
    let first := "[sum:A]\nname=A\n[odd:B]\nname=B".toList
    let second := "[stream:C]\nname=C\n[sum:A]\nname=B\nrename=D".toList
    let kept := ([first, second].flatMap splitSections).eraseDupsBy
      fun later first => later.key = first.key
    decode (merge [first, second]) = kept.filterMap RawSection.built? ∧
      decode (merge [first]) = decode first := by
  intro first second kept
  exact decode_merge_eq_built [first, second] (by decide)

end DeclBridge.Manifest
