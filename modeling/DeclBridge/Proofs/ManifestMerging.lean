import DeclBridge.Proofs.FirstOccurrences
import DeclBridge.Proofs.ManifestEncoding

/-! Merging works on sections as they stand and decoding on what they describe. The two meet in the
sections of the merged text, which are the first ones of every header key: a key survives a merge
unless the first section under its header describes nothing. Written manifests have no such
sections, so merging them is merging what they were written from. -/

namespace DeclBridge.Manifest

open Text

theorem mem_flatMap_splitSections {texts : List Text} {part : RawSection}
    (kept : part ∈ firstSections (texts.flatMap splitSections)) :
    ∃ text ∈ texts, part ∈ splitSections text := by
  rw [firstSections_eq_firstBy] at kept
  exact List.mem_flatMap.mp (List.mem_of_find?_eq_some (mem_firstBy.mp kept).2)

/-- The merged text splits into exactly the sections that were kept. -/
theorem splitSections_merge (texts : List Text) :
    splitSections (merge texts) = firstSections (texts.flatMap splitSections) := by
  refine splitSections_ofSections (fun part kept => ?_) (fun part kept line inside => ?_)
  · obtain ⟨text, -, found⟩ := mem_flatMap_splitSections kept
    exact wellFormed_of_mem_splitSections found
  · obtain ⟨text, -, found⟩ := mem_flatMap_splitSections kept
    exact isKept_of_mem_splitSections found inside

theorem decode_merge (texts : List Text) :
    decode (merge texts) =
      (firstSections (texts.flatMap splitSections)).filterMap RawSection.declaration? := by
  rw [decode_eq_filterMap, splitSections_merge]

def keys (declarations : List Declaration) : List (Kind × Text) :=
  declarations.map Declaration.key

/-- Of all sections of several texts, the one that a merge keeps for a key. -/
def decisive? (texts : List Text) (key : Kind × Text) : Option RawSection :=
  (texts.flatMap splitSections).find? fun part => part.key = SectionKey.ofKey key

/-- The section that a merge keeps for a key describes no declaration. -/
def Shadowed (texts : List Text) (key : Kind × Text) : Prop :=
  ∃ part, decisive? texts key = some part ∧ part.declaration? = none

theorem mem_keys_filterMap {parts : List RawSection} {key : Kind × Text} :
    key ∈ keys (parts.filterMap RawSection.declaration?) ↔
      ∃ part ∈ parts, part.key = SectionKey.ofKey key ∧ part.declaration?.isSome := by
  constructor
  · intro present
    obtain ⟨declaration, member, rfl⟩ := List.mem_map.mp present
    obtain ⟨part, inside, read⟩ := List.mem_filterMap.mp member
    exact ⟨part, inside, (RawSection.ofKey_of_declaration? read).symm, by simp [read]⟩
  · rintro ⟨part, inside, same, readable⟩
    obtain ⟨declaration, read⟩ := Option.isSome_iff_exists.mp readable
    refine List.mem_map.mpr ⟨declaration, List.mem_filterMap.mpr ⟨part, inside, read⟩, ?_⟩
    exact SectionKey.ofKey_injective ((RawSection.ofKey_of_declaration? read).trans same)

theorem mem_keys_decode_merge {texts : List Text} {key : Kind × Text} :
    key ∈ keys (decode (merge texts)) ↔
      ∃ part, decisive? texts key = some part ∧ part.declaration?.isSome := by
  rw [decode_merge, mem_keys_filterMap]
  simp only [firstSections_eq_firstBy, mem_firstBy]
  constructor
  · rintro ⟨part, ⟨-, first⟩, same, readable⟩
    exact ⟨part, by rwa [decisive?, ← same], readable⟩
  · rintro ⟨part, first, readable⟩
    have same : part.key = SectionKey.ofKey key := by simpa using List.find?_some first
    exact ⟨part, ⟨by simp, by rwa [same]⟩, same, readable⟩

/-- Distinct headers give distinct keys. -/
theorem nodup_keys_decode_merge (texts : List Text) : (keys (decode (merge texts))).Nodup := by
  have distinct : ((firstSections (texts.flatMap splitSections)).map RawSection.key).Nodup := by
    rw [firstSections_eq_firstBy]
    exact nodup_map_firstBy [] _
  rw [decode_merge, keys, List.Nodup, List.pairwise_map, List.pairwise_filterMap]
  apply (List.pairwise_map.mp distinct).imp
  intro part other differs declaration read again readAgain same
  apply differs
  rw [← RawSection.ofKey_of_declaration? read, ← RawSection.ofKey_of_declaration? readAgain, same]

theorem exists_mem_keys_decode {texts : List Text} {key : Kind × Text} :
    (∃ text ∈ texts, key ∈ keys (decode text)) ↔
      ∃ part ∈ texts.flatMap splitSections,
        part.key = SectionKey.ofKey key ∧ part.declaration?.isSome := by
  simp only [decode_eq_filterMap, mem_keys_filterMap, List.mem_flatMap]
  constructor
  · rintro ⟨text, member, part, inside, described⟩
    exact ⟨part, ⟨text, member, inside⟩, described⟩
  · rintro ⟨part, ⟨text, member, inside⟩, described⟩
    exact ⟨text, member, part, inside, described⟩

/-- A merge has the keys of its parts that are not shadowed. -/
theorem mem_keys_decode_merge_iff {texts : List Text} {key : Kind × Text} :
    key ∈ keys (decode (merge texts)) ↔
      (∃ text ∈ texts, key ∈ keys (decode text)) ∧ ¬Shadowed texts key := by
  rw [mem_keys_decode_merge, exists_mem_keys_decode]
  constructor
  · rintro ⟨part, first, readable⟩
    refine ⟨⟨part, List.mem_of_find?_eq_some first, by simpa using List.find?_some first,
      readable⟩, ?_⟩
    rintro ⟨other, again, unread⟩
    rw [Option.some.inj (first.symm.trans again), unread] at readable
    cases readable
  · rintro ⟨⟨part, inside, same, -⟩, unshadowed⟩
    have occurs : (decisive? texts key).isSome :=
      List.find?_isSome.mpr ⟨part, inside, by simpa using same⟩
    obtain ⟨first, found⟩ := Option.isSome_iff_exists.mp occurs
    refine ⟨first, found, Option.isSome_iff_ne_none.mpr fun unread => ?_⟩
    exact unshadowed ⟨first, found, unread⟩

/-- What shadows a key in several texts shadows it in one of them. -/
theorem Shadowed.exists_mem {texts : List Text} {key : Kind × Text}
    (shadowed : Shadowed texts key) : ∃ text ∈ texts, Shadowed [text] key := by
  obtain ⟨part, first, unread⟩ := shadowed
  rw [decisive?, List.find?_flatMap] at first
  obtain ⟨text, member, found⟩ := List.exists_of_findSome?_eq_some first
  exact ⟨text, member, part, by simpa [decisive?] using found, unread⟩

/-- A text that shadows a key does so in any company when it comes first. -/
theorem Shadowed.cons {text : Text} {key : Kind × Text} (shadowed : Shadowed [text] key)
    (texts : List Text) : Shadowed (text :: texts) key := by
  obtain ⟨part, first, unread⟩ := shadowed
  refine ⟨part, ?_, unread⟩
  rw [decisive?, List.flatMap_singleton] at first
  rw [decisive?, List.flatMap_cons, List.find?_append, first, Option.some_or]

/-- Every key survives a merge at most once, and exactly the keys that are not shadowed do. Whatever
the order of the texts, nothing is lost if and only if no text shadows a key on its own. Making the
declarations themselves unique never loses a key. -/
theorem keys_decode_merge (texts : List Text) :
    (keys (decode (merge texts))).Nodup ∧
    (∀ key, key ∈ keys (decode (merge texts)) ↔
      (∃ text ∈ texts, key ∈ keys (decode text)) ∧ ¬Shadowed texts key) ∧
    ((∀ other : List Text, other.Perm texts → ∀ key, key ∈ keys (decode (merge other)) ↔
        ∃ text ∈ texts, key ∈ keys (decode text)) ↔
      ∀ key, (∃ text ∈ texts, key ∈ keys (decode text)) →
        ∀ text ∈ texts, ¬Shadowed [text] key) ∧
    (keys (firstPerKey (texts.flatMap decode))).Nodup ∧
    ∀ key, key ∈ keys (firstPerKey (texts.flatMap decode)) ↔
      ∃ text ∈ texts, key ∈ keys (decode text) := by
  refine ⟨nodup_keys_decode_merge texts, fun key => mem_keys_decode_merge_iff, ?_, ?_, ?_⟩
  · constructor
    · intro kept key present text member shadowed
      -- The text comes first in some order, where the key would be lost.
      have order : (text :: texts.erase text).Perm texts := (List.perm_cons_erase member).symm
      have survives := (kept _ order key).mpr present
      exact (mem_keys_decode_merge_iff.mp survives).2 (shadowed.cons _)
    · intro unshadowed other order key
      have same : (∃ text ∈ other, key ∈ keys (decode text)) ↔
          ∃ text ∈ texts, key ∈ keys (decode text) := by
        simp only [order.mem_iff]
      rw [mem_keys_decode_merge_iff, same]
      apply and_iff_left_of_imp
      intro present shadowed
      obtain ⟨text, member, alone⟩ := shadowed.exists_mem
      exact unshadowed key present text (order.mem_iff.mp member) alone
  · rw [firstPerKey_eq_firstBy]
    exact nodup_map_firstBy [] _
  · intro key
    rw [firstPerKey_eq_firstBy, keys, mem_map_firstBy, List.map_flatMap, List.mem_flatMap]
    rfl

/-- A section without entries hides a later one with the same header, so merging a single text may
already lose a key, and which keys are left depends on the order of the texts. -/
theorem key_lost_behind_empty_section :
    let header := "[sum:A]\n".toList
    let whole := "[sum:A]\nname=A\n".toList
    keys (decode (header ++ whole)) = [(.sum, ['A'])] ∧ decode (merge [header ++ whole]) = [] ∧
      keys (decode (merge [whole, header])) = [(.sum, ['A'])] ∧
      decode (merge [header, whole]) = [] := by
  decide

/-! Merging what was written -/

theorem flatMap_splitSections_encode {groups : List (List Declaration)}
    (safe : ∀ group ∈ groups, ∀ declaration ∈ group, declaration.LineSafe) :
    (groups.map encode).flatMap splitSections = groups.flatten.map rawSection := by
  rw [List.flatMap_map, List.map_flatten, List.flatMap_def]
  congr 1
  exact List.map_congr_left fun group member => splitSections_encode (safe group member)

/-- Merging written manifests gives the text that is written for the first declaration of every key,
and never looks into a section for it. -/
theorem merge_map_encode (groups : List (List Declaration))
    (safe : ∀ group ∈ groups, ∀ declaration ∈ group, declaration.LineSafe) :
    merge (groups.map encode) = encode (firstPerKey groups.flatten) := by
  have sections : firstBy RawSection.key [] (groups.flatten.map rawSection) =
      (firstBy Declaration.key [] groups.flatten).map rawSection := by
    have follows (declaration : Declaration) :
        (rawSection declaration).key = SectionKey.ofKey declaration.key := rfl
    exact firstBy_map SectionKey.ofKey_injective follows [] groups.flatten
  rw [merge, flatMap_splitSections_encode safe, firstSections_eq_firstBy, sections, encode,
    firstPerKey_eq_firstBy, List.map_map]
  rfl

/-- Repetitions within one manifest and across several. -/
theorem merge_map_encode_repeated :
    let enum : Declaration := .sum
      { qualifiedName := "p.A".toList, name := "A".toList, package := "p".toList
        variants := [{ name := "B".toList, isObject := true }] }
    let renamed : Declaration := .sum
      { qualifiedName := "p.A".toList, name := "A".toList, package := "p".toList
        rename := some "C".toList }
    let values : Declaration := .stream
      { qualifiedName := "p.A".toList, name := "A".toList, package := "p".toList
        elementType := "Map<K, V>".toList }
    merge [encode [enum, renamed], encode [values, enum]] = encode [enum, values] := by
  intro enum renamed values
  have identity : Identity.LineSafe ⟨"p.A".toList, "A".toList, "p".toList⟩ := by
    constructor <;> decide
  have variant : Variant.LineSafe { name := "B".toList, isObject := true } :=
    ⟨by decide, by simp⟩
  have enumSafe : enum.LineSafe := ⟨identity, by simp, by simpa using variant, by simp, by simp⟩
  have renamedSafe : renamed.LineSafe :=
    ⟨identity, by simp, by simp, by rintro _ ⟨⟩; decide, by simp⟩
  have valuesSafe : values.LineSafe := ⟨identity, by decide, by simp, by simp⟩
  have unique : firstPerKey [enum, renamed, values, enum] = [enum, values] := by decide
  have merged := merge_map_encode [[enum, renamed], [values, enum]]
    (by simp [enumSafe, renamedSafe, valuesSafe])
  simpa [unique] using merged

end DeclBridge.Manifest
