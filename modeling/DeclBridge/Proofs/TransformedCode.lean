import DeclBridge.Proofs.FirstOccurrences
import DeclBridge.Transform
import Mathlib.Data.List.Basic

/-! The code for a list of declarations is put together from what each of them yields on its own.
Nothing else about a declaration counts, neither which others there are nor where they stand. -/

namespace DeclBridge

open Text Swift

/-- The texts of a declaration, with the type whose members they are. -/
abbrev Output := Option Text × List Text

section

variable (config : Config) (form : Form)

/-- Why nothing can be generated for a declaration. -/
def fault? (declaration : Declaration) : Option Fault :=
  match bodies config form declaration with
  | .error fault => some fault
  | .ok _ => none

/-- What a declaration contributes, unless it yields no text. -/
def output? (declaration : Declaration) : Option Output :=
  match bodies config form declaration with
  | .ok (first :: others) => some (declaration.owner?, first :: others)
  | _ => none

/-- Neither has texts nor fails. -/
def yieldsNothing (declaration : Declaration) : Bool :=
  match bodies config form declaration with
  | .ok [] => true
  | _ => false

def outputs (declarations : List Declaration) : List Output :=
  declarations.filterMap (output? config form)

end

/-! The code of some outputs -/

/-- The types that have members, each once, in the order in which they come first. -/
def owners (outputs : List Output) : List (Option Text) :=
  (outputs.map (·.1)).eraseDups

/-- The texts for one type, in order. -/
def textsFor (outputs : List Output) (owner : Option Text) : List Text :=
  (outputs.filter (·.1 = owner)).flatMap (·.2)

/-- A line within a block. Blank lines are empty there. -/
def memberLine (line : Text) : Text :=
  if isBlankText line then [] else "    ".toList ++ line

/-- The lines of an extension. Its members are one empty line apart. -/
def extensionLines (type : Text) (members : List Text) : List Text :=
  ("extension ".toList ++ type ++ " \x7b".toList) ::
    [[]].intercalate (members.map fun member => (member.splitOn '\n').map memberLine) ++
      ["\x7d".toList]

/-- The parts of the code that empty lines separate. Types have one block each. -/
def codeParts (form : Form) (outputs : List Output) : List Text :=
  match form with
  | .preview => outputs.flatMap (·.2)
  | .implementation =>
    (owners outputs).flatMap fun owner =>
      match owner with
      | none => textsFor outputs none
      | some type => [unlines (extensionLines type (textsFor outputs (some type)))]

/-! Blocks -/

theorem unlines_cons (line : Text) {lines : List Text} (more : lines ≠ []) :
    unlines (line :: lines) = line ++ '\n' :: unlines lines := by
  rw [unlines, List.intercalate_cons_of_ne_nil more, List.append_assoc]
  rfl

@[simp]
theorem unlines_singleton (line : Text) : unlines [line] = line :=
  List.intercalate_singleton

theorem unlines_append {first second : List Text} (nonempty : first ≠ []) (more : second ≠ []) :
    unlines (first ++ second) = unlines first ++ '\n' :: unlines second := by
  induction first with
  | nil => exact absurd rfl nonempty
  | cons line first ih =>
    cases first with
    | nil => rw [List.singleton_append, unlines_cons line more, unlines_singleton]
    | cons next others =>
      rw [List.cons_append, unlines_cons line (by simp), ih (by simp), unlines_cons line (by simp),
        List.append_assoc, List.cons_append]

/-- Texts are an empty line apart when there is an empty line between their lines. -/
theorem unparagraphs_map_unlines {paragraphs : List (List Text)}
    (nonempty : ∀ lines ∈ paragraphs, lines ≠ []) :
    unparagraphs (paragraphs.map unlines) = unlines ([[]].intercalate paragraphs) := by
  induction paragraphs with
  | nil => rfl
  | cons lines paragraphs ih =>
    obtain ⟨first, others⟩ := List.forall_mem_cons.mp nonempty
    cases paragraphs with
    | nil => simp [unparagraphs]
    | cons next more =>
      have behind : [[]].intercalate (next :: more) ≠ [] := by
        cases more <;> simp [List.forall_mem_cons.mp others]
      calc
        unparagraphs ((lines :: next :: more).map unlines)
          = unlines lines ++ ['\n', '\n'] ++ unparagraphs ((next :: more).map unlines) :=
            List.intercalate_cons_cons
        _ = unlines lines ++ ['\n', '\n'] ++ unlines ([[]].intercalate (next :: more)) := by
            rw [ih others]
        _ = unlines (lines ++ [] :: [[]].intercalate (next :: more)) := by
            rw [unlines_append first (by simp), unlines_cons [] behind]
            simp
        _ = unlines ([[]].intercalate (lines :: next :: more)) := by
            rw [List.intercalate_cons_cons]
            simp

theorem unlines_extensionLines (type : Text) {members : List Text} (nonempty : members ≠ []) :
    unlines (extensionLines type members) = extensionBlock type members := by
  let paragraphs := members.map fun member => (member.splitOn '\n').map memberLine
  have lines : ∀ lines ∈ paragraphs, lines ≠ [] := by
    refine List.forall_mem_map.mpr fun member _ => ?_
    simp [List.splitOn_ne_nil]
  have inner : [[]].intercalate paragraphs ≠ [] := by
    obtain ⟨first, others, rfl⟩ := List.exists_cons_of_ne_nil nonempty
    cases others <;> simp [paragraphs, List.splitOn_ne_nil]
  have texts : unlines ([[]].intercalate paragraphs) =
      unparagraphs (members.map (indentBlock 1)) := by
    rw [← unparagraphs_map_unlines lines, List.map_map]
    rfl
  rw [extensionLines, List.cons_append, unlines_cons _ (by simp), unlines_append inner (by simp),
    texts, extensionBlock, unlines_cons _ (List.cons_ne_nil _ _),
    unlines_cons _ (List.cons_ne_nil _ _)]

/-! Groups -/

/-- The groups that arise from some outputs. -/
def groupsOf (outputs : List Output) : Groups :=
  (owners outputs).map fun owner => (owner, textsFor outputs owner)

theorem nodup_owners (outputs : List Output) : (owners outputs).Nodup := by
  have distinct : ((firstBy id [] (outputs.map (·.1))).map id).Nodup := nodup_map_firstBy [] _
  have equal : (fun first second : Option Text => first == second) =
      fun first second => decide (id first = id second) := by
    funext first second
    rw [Bool.eq_iff_iff, beq_iff_eq, decide_eq_true_eq, id, id]
  rwa [firstBy_eq_eraseDupsBy, List.map_id, List.filter_eq_self.mpr (by simp), ← equal] at distinct

/-- Texts are added to the group of their type. A type that has none comes last. -/
theorem add_map {owner : Option Text} {texts : List Text} {present : Option Text → List Text}
    {types : List (Option Text)} (distinct : types.Nodup) :
    Groups.add owner texts (types.map fun type => (type, present type)) =
      if owner ∈ types then
        types.map fun type => (type, present type ++ if type = owner then texts else [])
      else types.map (fun type => (type, present type)) ++ [(owner, texts)] := by
  induction types with
  | nil => rfl
  | cons type types ih =>
    obtain ⟨fresh, others⟩ := List.nodup_cons.mp distinct
    rw [List.map_cons, Groups.add]
    by_cases same : type = owner
    · subst same
      have apart : ∀ other ∈ types, other ≠ type := fun other member same => fresh (same ▸ member)
      simp +contextual [apart]
    · rw [if_neg same, ih others]
      by_cases member : owner ∈ types <;> simp [member, same, Ne.symm same]

theorem owners_append (outputs : List Output) (output : Output) :
    owners (outputs ++ [output]) =
      if output.1 ∈ owners outputs then owners outputs else owners outputs ++ [output.1] := by
  rw [owners, List.map_append, List.eraseDups_append]
  by_cases known : output.1 ∈ outputs.map (·.1)
  · simp [owners, List.mem_eraseDups, List.removeAll, known]
  · simp [owners, List.mem_eraseDups, List.removeAll, known, List.eraseDups_cons]

theorem textsFor_append (outputs : List Output) (owner type : Option Text) (texts : List Text) :
    textsFor (outputs ++ [(owner, texts)]) type =
      textsFor outputs type ++ if type = owner then texts else [] := by
  rw [textsFor, List.filter_append, List.flatMap_append, textsFor]
  by_cases same : type = owner <;> simp [same, Ne.symm]

theorem textsFor_eq_nil {outputs : List Output} {owner : Option Text}
    (absent : owner ∉ owners outputs) : textsFor outputs owner = [] := by
  rw [owners, List.mem_eraseDups] at absent
  rw [textsFor, List.filter_eq_nil_iff.mpr, List.flatMap_nil]
  intro output member same
  exact absent (List.mem_map.mpr ⟨output, member, of_decide_eq_true same⟩)

/-- One more output is one more step of grouping. -/
theorem groupsOf_append (outputs : List Output) (owner : Option Text) (texts : List Text) :
    groupsOf (outputs ++ [(owner, texts)]) = (groupsOf outputs).add owner texts := by
  rw [groupsOf, groupsOf, add_map (nodup_owners outputs), owners_append]
  by_cases known : owner ∈ owners outputs
  · simp only [known, if_true, textsFor_append]
  · have apart : ∀ type ∈ owners outputs, type ≠ owner :=
      fun type member same => known (same ▸ member)
    simp +contextual [known, textsFor_append, textsFor_eq_nil known, apart]

theorem sections_groupsOf {outputs : List Output} (nonempty : ∀ output ∈ outputs, output.2 ≠ []) :
    (groupsOf outputs).sections = codeParts .implementation outputs := by
  rw [Groups.sections, groupsOf, List.flatMap_map, codeParts]
  refine List.flatMap_congr fun owner member => ?_
  cases owner with
  | none => rfl
  | some type =>
    have texts : textsFor outputs (some type) ≠ [] := by
      rw [owners, List.mem_eraseDups] at member
      obtain ⟨output, member, same⟩ := List.mem_map.mp member
      rw [textsFor, Ne, List.flatMap_eq_nil_iff]
      intro empty
      refine nonempty output member (empty output ?_)
      exact List.mem_filter.mpr ⟨member, decide_eq_true same⟩
    exact congrArg ([·]) (unlines_extensionLines type texts).symm

/-! Runs -/

/-- How far a run has come that found some outputs. -/
def progressOf (form : Form) (outputs : List Output) : Progress :=
  match form with
  | .preview => { transformed := outputs.length, sections := outputs.flatMap (·.2) }
  | .implementation => { transformed := outputs.length, groups := groupsOf outputs }

theorem generated_progressOf {form : Form} {outputs : List Output}
    (nonempty : ∀ output ∈ outputs, output.2 ≠ []) :
    (progressOf form outputs).generated =
      { code := unparagraphs (codeParts form outputs), transformed := outputs.length } := by
  cases form with
  | preview => simp [progressOf, Progress.generated, Groups.sections, codeParts]
  | implementation => simp [progressOf, Progress.generated, sections_groupsOf nonempty]

section

variable {config : Config} {form : Form}

theorem nonempty_of_mem_outputs {declarations : List Declaration} :
    ∀ output ∈ outputs config form declarations, output.2 ≠ [] := by
  intro output member
  obtain ⟨declaration, -, found⟩ := List.mem_filterMap.mp member
  unfold output? at found
  split at found
  · cases found
    simp
  · cases found

/-- One step takes in the output of one declaration. -/
theorem progressOf_append {declaration : Declaration} {texts : List Text}
    (rendered : bodies config form declaration = .ok texts) (before : List Output) :
    (progressOf form before).add form declaration.owner? texts =
      progressOf form (before ++ (output? config form declaration).toList) := by
  cases texts with
  | nil => simp [Progress.add, output?, rendered]
  | cons first others =>
    cases form with
    | preview => simp [Progress.add, output?, rendered, progressOf]
    | implementation => simp [Progress.add, output?, rendered, progressOf, groupsOf_append]

/-- A run ends with the first fault, or with the outputs of all declarations. -/
theorem transformFrom_progressOf (before : List Output) (declarations : List Declaration) :
    (transformFrom config form (progressOf form before) (declarations.map .known)).2 =
      match declarations.findSome? (fault? config form) with
      | some fault => .error fault
      | none => .ok (progressOf form (before ++ outputs config form declarations)) := by
  induction declarations generalizing before with
  | nil => simp [transformFrom, outputs]
  | cons declaration declarations ih =>
    rw [List.map_cons, transformFrom]
    cases rendered : bodies config form declaration with
    | error fault => simp [fault?, rendered]
    | ok texts =>
      have step := progressOf_append rendered before
      simp only [step, ih]
      have passed : fault? config form declaration = none := by simp [fault?, rendered]
      rw [List.findSome?_cons, passed, outputs, outputs, List.filterMap_cons]
      cases output? config form declaration <;> simp

end

theorem transform_outcome (config : Config) (form : Form) (declarations : List Declaration) :
    (transform config form declarations).2 =
      match declarations.findSome? (fault? config form) with
      | some fault => .error fault
      | none =>
        .ok
          { code := unparagraphs (codeParts form (outputs config form declarations))
            transformed := (outputs config form declarations).length } := by
  have start : progressOf form [] = {} := by cases form <;> rfl
  have run : (transformFrom config form (progressOf form []) (declarations.map .known)).2 = _ :=
    transformFrom_progressOf [] declarations
  rw [start, List.nil_append] at run
  have result : (transform config form declarations).2 =
      (transformFrom config form {} (declarations.map .known)).2.map Progress.generated := rfl
  rw [result, run]
  cases declarations.findSome? (fault? config form) with
  | some fault => rfl
  | none =>
    rw [← generated_progressOf nonempty_of_mem_outputs]
    rfl

theorem filterMap_yielding {config : Config} {form : Form} {find? : Declaration → Option α}
    (absent : ∀ declaration, yieldsNothing config form declaration = true →
      find? declaration = none) (declarations : List Declaration) :
    (declarations.filter (!yieldsNothing config form ·)).filterMap find? =
      declarations.filterMap find? := by
  rw [List.filterMap_filter]
  refine List.filterMap_congr fun declaration _ => ?_
  cases nothing : yieldsNothing config form declaration with
  | false => rfl
  | true => exact (absent declaration nothing).symm

/-- The code is what the declarations yield on their own, put together. The first that cannot be
rendered decides the fault, and those without texts could as well be missing. -/
theorem transform_eq_codeParts (config : Config) (form : Form) (declarations : List Declaration) :
    (transform config form declarations).2 =
        (match declarations.findSome? (fault? config form) with
        | some fault => .error fault
        | none =>
          .ok
            { code := unparagraphs (codeParts form (outputs config form declarations))
              transformed := (outputs config form declarations).length }) ∧
      (transform config form (declarations.filter (!yieldsNothing config form ·))).2 =
        (transform config form declarations).2 := by
  have silent {declaration : Declaration} (nothing : yieldsNothing config form declaration = true) :
      bodies config form declaration = .ok [] := by
    unfold yieldsNothing at nothing
    split at nothing
    · assumption
    · cases nothing
  have faults : (declarations.filter (!yieldsNothing config form ·)).findSome?
      (fault? config form) = declarations.findSome? (fault? config form) := by
    rw [← List.head?_filterMap, ← List.head?_filterMap, filterMap_yielding]
    intro declaration nothing
    rw [fault?, silent nothing]
  have same : outputs config form (declarations.filter (!yieldsNothing config form ·)) =
      outputs config form declarations := by
    refine filterMap_yielding (fun declaration nothing => ?_) declarations
    rw [output?, silent nothing]
  refine ⟨transform_outcome config form declarations, ?_⟩
  rw [transform_outcome, transform_outcome, faults, same]

end DeclBridge
