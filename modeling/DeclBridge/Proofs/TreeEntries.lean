import DeclBridge.Workspace.Tree
import Mathlib.Data.List.Basic

/-! What writing changes in a tree. An operation is described by what is found at each place after
it, so that nothing needs to be known about how entries are kept. -/

namespace DeclBridge.Workspace

open Text

/-! Where paths lead -/

theorem lead_append (place : Place) (front back : List Text) :
    lead place (front ++ back) = lead (lead place front) back := by
  induction front generalizing place with
  | nil => rfl
  | cons name front ih =>
    rw [List.cons_append, lead, lead]
    split <;> exact ih _

namespace Tree

variable {tree before after : Tree} {path directory : Path} {files : List (Path × Text)}

theorem place_child {name : Text} (named : name ≠ "..".toList) :
    tree.place (path.child name) = tree.place path ++ [name] := by
  have step (place : Place) : lead place [name] = place ++ [name] := by
    rw [lead, if_neg named, lead]
  exact (lead_append (tree.start path) path.parts [name]).trans (step _)

/-- The path itself or one above it means a place. -/
def LeadsThrough (tree : Tree) (path : Path) (place : Place) : Prop :=
  ∃ front, front <+: path.parts ∧ place = lead (tree.start path) front

/-- A tree with files written to it: besides these it differs by directories only, which were
created on the way to one that is given. -/
structure Wrote (directory : Path) (files : List (Path × Text)) (before after : Tree) : Prop where
  current : after.current = before.current
  written : ∀ file ∈ files, after.entry? (before.place file.1) = some (.file (encodeUtf8 file.2))
  others : ∀ place, (∀ file ∈ files, before.place file.1 ≠ place) →
    after.entry? place = before.entry? place ∨
      before.entry? place = none ∧ after.entry? place = some .directory ∧
        before.LeadsThrough directory place

theorem start_congr (same : after.current = before.current) : after.start = before.start := by
  funext path
  rw [start, start, same]

theorem place_congr (same : after.current = before.current) : after.place = before.place := by
  funext path
  rw [place, place, start_congr same]

theorem entry?_nil : tree.entry? [] = some .directory :=
  rfl

/-! One entry -/

private theorem lookup_replace (entries : List (Place × Entry)) (place other : Place)
    (entry : Entry) :
    (entries.map fun (found, present) => (found, if found = place then entry else present)).lookup
        other =
      if other = place then (entries.lookup place).map fun _ => entry
      else entries.lookup other := by
  induction entries with
  | nil => simp
  | cons first entries ih =>
    obtain ⟨found, present⟩ := first
    by_cases here : other = found
    · subst here
      by_cases same : other = place <;> simp [same]
    · have skipped (present : Entry) (rest : List (Place × Entry)) :
          ((found, present) :: rest).lookup other = rest.lookup other := by
        rw [List.lookup_cons, beq_eq_false_iff_ne.mpr here]
      rw [List.map_cons, skipped, ih, skipped]
      by_cases same : other = place
      · subst same
        rw [skipped]
      · rw [if_neg same, if_neg same]

theorem entry?_put {place : Place} (inside : place ≠ []) (entry : Entry) (other : Place) :
    Tree.entry? (tree.put place entry) other =
      if other = place then some entry else tree.entry? other := by
  by_cases root : other = []
  · subst root
    rw [if_neg (Ne.symm inside)]
    rfl
  · have below (tree : Tree) : tree.entry? other = tree.entries.lookup other := by
      unfold entry?
      rw [if_neg (by simpa using root)]
    rw [below, below, put]
    cases present : tree.entries.lookup place with
    | some old =>
      rw [Option.isSome_some, if_pos rfl, lookup_replace, present]
      rfl
    | none =>
      rw [Option.isSome_none, if_neg (by simp), List.lookup_append]
      by_cases same : other = place
      · subst same
        simp [present]
      · have apart : (other == place) = false := by simpa using same
        simp [List.lookup_cons, apart, same]

theorem current_put (place : Place) (entry : Entry) :
    (tree.put place entry).current = tree.current := by
  unfold put
  split <;> rfl

/-! Single steps -/

theorem eq_lead_of_walk {place found : Place} {names : List Text}
    (walked : tree.walk place names = .ok found) : found = lead place names := by
  induction names generalizing place with
  | nil => exact (Except.ok.inj walked).symm
  | cons name names ih =>
    unfold walk at walked
    split at walked
    · cases walked
    · cases walked
    · rw [lead]
      split at walked
      · next up => rw [if_pos up]; exact ih walked
      · next down => rw [if_neg down]; exact ih walked

/-- What is done where a path leads is done at the place that it means. -/
theorem of_locate {next : Place → Except PathFault Tree}
    (done : (before.locate path >>= next) = .ok after) : next (before.place path) = .ok after := by
  cases located : before.locate path with
  | error fault =>
    rw [located] at done
    cases done
  | ok found =>
    obtain rfl : found = before.place path := eq_lead_of_walk located
    rw [located] at done
    exact done

/-- Only a path to something other than a directory is written to, and nothing else changes. -/
theorem of_write {text : Text} (done : before.write path text = .ok after) :
    before.place path ≠ [] ∧
      after = before.put (before.place path) (.file (encodeUtf8 text)) := by
  have done := of_locate done
  split at done
  · cases done
  · next nowhere =>
    exact ⟨fun root => nowhere (root ▸ entry?_nil), (Except.ok.inj done).symm⟩

/-- A directory is created only where nothing is. -/
theorem of_createDirectory (done : before.createDirectory path = .ok after) :
    before.entry? (before.place path) = none ∧
      after = before.put (before.place path) .directory := by
  have done := of_locate done
  split at done
  · cases done
  · next nothing => exact ⟨nothing, (Except.ok.inj done).symm⟩

namespace Wrote

/-! Creating directories -/

theorem refl : Wrote directory [] tree tree where
  current := rfl
  written := nofun
  others _ _ := .inl rfl

theorem trans (first : Wrote directory [] before tree) (second : Wrote directory [] tree after) :
    Wrote directory [] before after := by
  refine ⟨second.current.trans first.current, nofun, fun place _ => ?_⟩
  have earlier := first.others place nofun
  rcases second.others place nofun with same | ⟨missing, created, through⟩
  · rwa [same]
  · rw [LeadsThrough, start_congr first.current] at through
    rcases earlier with same | ⟨-, created, -⟩
    · exact .inr ⟨same.symm.trans missing, created, through⟩
    · exact absurd (missing.symm.trans created) nofun

/-- What is created on the way to a directory is so on the way to any below it. -/
theorem below {root : Text} {front parts : List Text}
    (wrote : Wrote ⟨root, front⟩ files before after) (within : front <+: parts) :
    Wrote ⟨root, parts⟩ files before after where
  current := wrote.current
  written := wrote.written
  others place elsewhere :=
    (wrote.others place elsewhere).imp_right fun ⟨missing, created, inner, shorter, leads⟩ =>
      ⟨missing, created, inner, shorter.trans within, leads⟩

theorem of_ensureDirectory (tree : Tree) (path : Path) :
    Wrote path [] tree (tree.ensureDirectory path).1 := by
  unfold ensureDirectory
  split
  · next created done =>
    obtain ⟨missing, rfl⟩ := of_createDirectory done
    refine ⟨current_put _ _, nofun, fun place _ => ?_⟩
    have inside : tree.place path ≠ [] := fun root => absurd (root ▸ missing) nofun
    rw [entry?_put inside]
    split
    · next here => exact .inr ⟨here ▸ missing, rfl, path.parts, List.prefix_rfl, here⟩
    · exact .inl rfl
  · exact refl

theorem of_makeDirectories (tree : Tree) (root : Text) (names : List Text) :
    Wrote ⟨root, names.reverse⟩ [] tree (tree.makeDirectories root names).1 := by
  induction names with
  | nil => exact of_ensureDirectory _ _
  | cons name above ih =>
    have shorter : above.reverse <+: (name :: above).reverse :=
      List.reverse_cons ▸ List.prefix_append _ _
    have further := ih.below shorter
    have straight := of_ensureDirectory tree ⟨root, (name :: above).reverse⟩
    unfold makeDirectories
    dsimp only
    split
    · split
      · next made =>
        rw [made] at further
        exact further.trans (of_ensureDirectory _ _)
      · next made =>
        rw [made] at further
        exact further
    · exact straight

/-- This holds whether or not the directory could be created. -/
theorem of_makeDirectory (tree : Tree) (path : Path) :
    Wrote path [] tree (tree.makeDirectory path).1 := by
  have made := of_makeDirectories tree path.root path.parts.reverse
  rwa [List.reverse_reverse] at made

/-! Writing files -/

/-- One more file, which is none of those written before. -/
theorem write {text : Text} (wrote : Wrote directory files before tree)
    (done : tree.write path text = .ok after)
    (apart : ∀ file ∈ files, before.place file.1 ≠ before.place path) :
    Wrote directory (files ++ [(path, text)]) before after := by
  obtain ⟨inside, rfl⟩ := of_write done
  rw [place_congr wrote.current] at inside ⊢
  refine ⟨(current_put _ _).trans wrote.current, ?_, fun place elsewhere => ?_⟩
  · rw [List.forall_mem_append]
    constructor
    · intro file member
      rw [entry?_put inside, if_neg (apart file member), wrote.written file member]
    · simp [entry?_put inside]
  · rw [List.forall_mem_append] at elsewhere
    have other : before.place path ≠ place := elsewhere.2 (path, text) (by simp)
    rw [entry?_put inside, if_neg (Ne.symm other)]
    exact wrote.others place elsewhere.1

/-- Of several files some are written, in order, and all of them if nothing is in the way. -/
theorem writeFiles (wrote : Wrote directory files before tree) {more : List (Path × Text)}
    (apart : (files ++ more).Pairwise fun a b => before.place a.1 ≠ before.place b.1) :
    ∃ done, done <+: more ∧ Wrote directory (files ++ done) before (tree.writeFiles more).1 ∧
      ((tree.writeFiles more).2 = none ↔ done = more) := by
  induction more generalizing files tree with
  | nil =>
    exact ⟨[], List.prefix_rfl, by simpa [Tree.writeFiles] using wrote, iff_of_true rfl rfl⟩
  | cons file more ih =>
    obtain ⟨path, text⟩ := file
    unfold Tree.writeFiles
    split
    · exact ⟨[], List.nil_prefix, by simpa using wrote, iff_of_false nofun nofun⟩
    · next written done =>
      have others : ∀ file ∈ files, before.place file.1 ≠ before.place path := fun file member =>
        (List.pairwise_append.mp apart).2.2 file member (path, text) List.mem_cons_self
      rw [List.append_cons] at apart
      obtain ⟨further, within, wrote, complete⟩ := ih (wrote.write done others) apart
      rw [List.append_assoc] at wrote
      exact ⟨(path, text) :: further, (List.prefix_cons_inj _).mpr within, wrote,
        complete.trans ⟨congrArg _, List.tail_eq_of_cons_eq⟩⟩

end Wrote
end Tree
end DeclBridge.Workspace
