import DeclBridge.Command.Run
import DeclBridge.Proofs.ManifestMergeLaws
import DeclBridge.Proofs.ToldMessages
import DeclBridge.Proofs.TransformedCode
import DeclBridge.Proofs.TreeEntries

/-! What commands do to the tree they work on. A refused command leaves it as it was, since all
reasons to refuse are found before the first file is written. A finished one has written the files
it is asked for and nothing else, and one that is cut short some of them. -/

namespace DeclBridge

namespace Command

open Text Workspace Swift

/-! What there is to write -/

/-- The text of a file that can be read: it is encoded in UTF-8 and has one kind of line break. -/
def textAt? (tree : Tree) (file : Path) : Option Text := do
  let content ← (tree.read file).toOption
  let text ← (decodeUtf8 content).toOption
  pure (unifyLineFeeds text)

/-- The texts of those files that can be read. -/
def readable (tree : Tree) (files : List Path) : List Text :=
  files.filterMap (textAt? tree)

def sourceTexts (tree : Tree) (paths : List Path) : List Text :=
  readable tree (paths.flatMap fun path => (kotlinFiles tree path).2)

def manifestTexts (tree : Tree) (paths : List Path) : List Text :=
  readable tree (paths.flatMap (manifestFiles tree))

/-- The code for some inputs, under the settings that are found from the current directory. -/
def generated (libraries : Libraries) (tree : Tree) (form : Form) (inputs : Inputs) :
    Except Failure Generated := do
  let config ←
    (Settings.loadHere libraries tree (Settings.readAssignments inputs.settings).2).2
  let declarations := (loadDeclarations tree inputs.manifests inputs.sources).2
  (transform config form declarations).2.mapError Failure.fault

/-- A banner, and below it the code if there is any. -/
def bannered (code : Text) : Text :=
  "// Generated by ktbridge. Do not edit.\n\nimport Foundation\n".toList ++
    if code = [] then [] else '\n' :: code ++ ['\n']

theorem generatedSource_eq (code : Text) : generatedSource code = bannered code := by
  unfold generatedSource bannered
  by_cases empty : code = []
  · rw [empty, List.isEmpty_nil, if_pos rfl, if_pos rfl, List.append_nil]
    rfl
  · rw [if_neg (by simpa using empty), if_neg empty]
    exact List.append_assoc ..

/-- Lines that all end with a line feed. -/
def endedLines (lines : List String) : Text :=
  lines.flatMap fun line => line.toList ++ ['\n']

theorem endedLines_eq {lines : List String} (nonempty : lines ≠ []) :
    endedLines lines = unlines (lines.map String.toList) ++ ['\n'] := by
  unfold endedLines
  induction lines with
  | nil => contradiction
  | cons line lines ih =>
    rw [List.flatMap_cons, List.map_cons]
    by_cases last : lines = []
    · subst last
      rw [List.flatMap_nil, List.map_nil, unlines_singleton, List.append_nil]
    · rw [unlines_cons _ (by simpa using last), ih last]
      simp

theorem runtimeSource_eq : runtimeSource = endedLines runtimeLines :=
  (endedLines_eq (by simp [runtimeLines])).symm

theorem toOption_readText (tree : Tree) (file : Path) :
    (readText tree file).toOption = textAt? tree file := by
  unfold readText textAt?
  cases tree.read file with
  | error fault => rfl
  | ok content =>
    dsimp only [Except.toOption, Option.bind_eq_bind, Option.bind_some]
    cases decodeUtf8 content <;> rfl

theorem saidAll_map (read : β → Said (List α)) (items : List β) :
    (saidAll (items.map read)).2 = items.flatMap fun item => (read item).2 := by
  rw [saidAll]
  exact List.flatMap_map ..

theorem scanFiles_eq (tree : Tree) (files : List Path) :
    (scanFiles tree files).2 = (readable tree files).flatMap Kotlin.scan := by
  rw [scanFiles, saidAll_map, readable, List.filterMap_eq_flatMap_toList, List.flatMap_assoc]
  refine List.flatMap_congr fun file _ => ?_
  rw [scanFile, ← toOption_readText]
  cases readText tree file with
  | ok text => simp [Except.toOption]
  | error reason => rfl

/-- A manifest that cannot be read is as good as one that is not there. -/
theorem mergeFiles_eq (tree : Tree) (paths : List Path) :
    (mergeFiles tree paths).2 = Manifest.merge (manifestTexts tree paths) := by
  have texts : (mergeFiles tree paths).2 = Manifest.merge
      ((paths.flatMap (manifestFiles tree)).flatMap fun file => (readManifest tree file).2) :=
    congrArg Manifest.merge (saidAll_map _ _)
  rw [texts, manifestTexts]
  refine Manifest.merge_eq_of_sections (congrArg Manifest.firstSections ?_)
  generalize paths.flatMap (manifestFiles tree) = files
  rw [readable, List.filterMap_eq_flatMap_toList, List.flatMap_assoc, List.flatMap_assoc]
  refine List.flatMap_congr fun file _ => ?_
  rw [readManifest, ← toOption_readText]
  have empty : Manifest.splitSections [] = [] := rfl
  cases readText tree file with
  | ok text => simp [Except.toOption]
  | error reason =>
    split <;> simp_all [Except.toOption]

/-! What commands are to do -/

namespace Request

variable (libraries : Libraries)

/-- A command is refused for want of inputs, or for a fault in the settings or in what is to be
transformed. -/
def IsRefused (tree : Tree) : Request → Prop
  | .scan paths _ => (paths.flatMap fun path => (kotlinFiles tree path).2) = []
  | .merge _ _ => False
  | .generate inputs _ =>
    inputs.manifests = [] ∧ inputs.sources = [] ∨
      ∃ fault, generated libraries tree .implementation inputs = .error (.fault fault)
  | .preview inputs => ∃ fault, generated libraries tree .preview inputs = .error (.fault fault)

/-- The files that a command is to write, in order, and the directory that it creates for them. -/
inductive Plans (tree : Tree) : Request → Path → List (Path × Text) → Prop where
  | scan {paths out} :
    Plans tree (.scan paths (some out)) out.parent
      [(out, Manifest.encode ((sourceTexts tree paths).flatMap Kotlin.scan))]
  | merge {paths out} :
    Plans tree (.merge paths (some out)) out.parent
      [(out, Manifest.merge (manifestTexts tree paths))]
  | generate {inputs outDir result}
      (made : generated libraries tree .implementation inputs = .ok result) :
    Plans tree (.generate inputs outDir) outDir
      [(outDir.child "KtBridge.swift".toList, bannered result.code),
        (outDir.child "KtBridgeRuntime.swift".toList, endedLines runtimeLines)]

/-- How the tree is changed by a command that was finished. -/
def Effect (before after : Tree) (request : Request) : Prop :=
  match request with
  | .scan _ none | .merge _ none | .preview _ => after = before
  | .scan _ (some _) | .merge _ (some _) | .generate _ _ =>
    ∃ directory files, Plans libraries before request directory files ∧
      before.Wrote directory files after

/-- How the tree is changed by a command that crashed after it had begun to write: by the files
before one that could not be written, or by all of them when only the report could not be shown. -/
def CutShort (before after : Tree) (crash : Crash) (request : Request) : Prop :=
  ∃ directory files done, Plans libraries before request directory files ∧ done <+: files ∧
    before.Wrote directory done after ∧
    (crash = .markup ∧ done = files ∨ (∃ fault, crash = .path fault) ∧ done ≠ files)

/-- What a request comes to is told by the report on it. -/
structure Settles (request : Request) (before : Tree) (report : Report) : Prop where
  refused : report.exit = .ok 1 ↔
    request.IsRefused libraries before ∧ libraries.ShowsAll report.logs
  unchanged : ∀ code, report.exit = .ok code → code ≠ 0 → report.tree = before
  finished : report.exit = .ok 0 → request.Effect libraries before report.tree
  crashed : ∀ crash, report.exit = .error crash →
    report.tree = before ∨ request.CutShort libraries before report.tree crash

end Request

/-! Parts of a run -/

section

variable {libraries : Libraries} {tree : Tree} {request : Request}

theorem telling_cases (libraries : Libraries) (tree : Tree) (logs : List Log) (next : Report) :
    libraries.ShowsAll logs ∧
        telling libraries tree logs next = { next with logs := logs ++ next.logs } ∨
      ∃ told, ¬libraries.ShowsAll told ∧
        telling libraries tree logs next = crashed tree told .markup := by
  unfold telling
  by_cases all : libraries.ShowsAll logs
  · rw [Libraries.tell_of_showsAll all]
    exact .inl ⟨all, rfl⟩
  · obtain ⟨told, same, unshown⟩ := Libraries.tell_of_not_showsAll all
    rw [same]
    exact .inr ⟨told, unshown, rfl⟩

theorem Request.Settles.telling {next : Report} (settles : request.Settles libraries tree next)
    (logs : List Log) : request.Settles libraries tree (telling libraries tree logs next) := by
  rcases telling_cases libraries tree logs next with ⟨all, same⟩ | ⟨told, unshown, same⟩ <;>
    rw [same]
  · refine ⟨?_, settles.unchanged, settles.finished, settles.crashed⟩
    rw [Libraries.showsAll_append, and_iff_right all]
    exact settles.refused
  · exact ⟨iff_of_false nofun fun both => unshown both.2, nofun, nofun, fun _ _ => .inl rfl⟩

theorem refused_settles (request : Request) (refused : request.IsRefused libraries tree)
    (reason : Text) :
    request.Settles libraries tree (Command.refused libraries tree reason) := by
  have settles : request.Settles libraries tree { exit := .ok 1, tree } :=
    ⟨iff_of_true rfl ⟨refused, List.forall_mem_nil _⟩, fun _ _ _ => rfl, nofun, nofun⟩
  exact settles.telling _

theorem failed_settles {failure : Failure}
    (refused : (∃ fault, failure = .fault fault) ↔ request.IsRefused libraries tree) :
    request.Settles libraries tree (failed libraries tree failure) := by
  cases failure with
  | fault fault => exact refused_settles request (refused.mp ⟨fault, rfl⟩) _
  | crash crash =>
    refine ⟨iff_of_false nofun fun both => ?_, nofun, nofun, fun _ _ => .inl rfl⟩
    obtain ⟨fault, same⟩ := refused.mpr both.1
    cases same

theorem shown_settles (request : Request) (idle : request.Effect libraries tree tree)
    (usable : ¬request.IsRefused libraries tree) (shown : List Shown) :
    request.Settles libraries tree { exit := .ok 0, tree, shown } :=
  ⟨iff_of_false nofun fun both => usable both.1, fun _ _ _ => rfl, fun _ => idle, nofun⟩

namespace Request.Plans

variable {directory : Path} {files : List (Path × Text)}

theorem effect (plans : Plans libraries tree request directory files) {after : Tree}
    (wrote : tree.Wrote directory files after) : request.Effect libraries tree after := by
  cases plans with
  | scan => exact ⟨_, _, .scan, wrote⟩
  | merge => exact ⟨_, _, .merge, wrote⟩
  | generate made => exact ⟨_, _, .generate made, wrote⟩

theorem apart (plans : Plans libraries tree request directory files) :
    files.Pairwise fun a b => tree.place a.1 ≠ tree.place b.1 := by
  cases plans with
  | scan | merge => exact List.pairwise_singleton ..
  | generate made =>
    refine List.pairwise_pair.mpr ?_
    rw [Tree.place_child (by decide), Tree.place_child (by decide)]
    intro same
    exact absurd (List.append_cancel_left same) (by decide)

theorem nonempty (plans : Plans libraries tree request directory files) : files ≠ [] := by
  cases plans <;> exact List.cons_ne_nil _ _

end Request.Plans

/-- Either a fault stops the files from being written, or all are there in the end. -/
theorem produce_settles {directory : Path} {files : List (Path × Text)}
    (plans : Request.Plans libraries tree request directory files)
    (usable : ¬request.IsRefused libraries tree) (said : List Log) :
    request.Settles libraries tree (produce libraries tree directory files said) := by
  have ready := Tree.Wrote.of_makeDirectory tree directory
  have interrupted {after : Tree} {crash : Crash} {told : List Log}
      (cut : request.CutShort libraries tree after crash) :
      request.Settles libraries tree (crashed after told crash) := by
    refine ⟨iff_of_false nofun fun both => usable both.1, nofun, nofun, fun other same => .inr ?_⟩
    cases same
    exact cut
  unfold produce
  split
  · next made =>
    rw [made] at ready
    exact interrupted
      ⟨_, _, [], plans, List.nil_prefix, ready, .inr ⟨⟨_, rfl⟩, plans.nonempty.symm⟩⟩
  · next made =>
    rw [made] at ready
    obtain ⟨done, within, wrote, complete⟩ := ready.writeFiles plans.apart
    split
    · next stopped =>
      rw [stopped] at wrote complete
      refine interrupted ⟨_, _, done, plans, within, wrote, .inr ⟨⟨_, rfl⟩, fun all => ?_⟩⟩
      exact nomatch complete.mpr all
    · next finished =>
      rw [finished] at wrote complete
      obtain rfl : done = files := complete.mp rfl
      rcases telling_cases libraries _ said _ with ⟨-, same⟩ | ⟨told, -, same⟩ <;> rw [same]
      · exact ⟨iff_of_false nofun fun both => usable both.1,
          fun _ exit failing => absurd (Except.ok.inj exit).symm failing,
          fun _ => plans.effect wrote, nofun⟩
      · exact interrupted ⟨_, _, _, plans, within, wrote, .inl ⟨rfl, rfl⟩⟩

end

/-! Commands -/

variable (libraries : Libraries) (tree : Tree)

theorem transformInputs_eq (inputs : Inputs) (form : Form) :
    (transformInputs libraries tree inputs (Settings.readAssignments inputs.settings).2 form).2 =
      (generated libraries tree form inputs).map
        ((loadDeclarations tree inputs.manifests inputs.sources).2, ·) := by
  unfold transformInputs generated
  cases loaded :
      (Settings.loadHere libraries tree (Settings.readAssignments inputs.settings).2).2 with
  | error failure => simp [loaded, bind, Except.bind, Except.map]
  | ok config => simp only [loaded, bind, Except.bind]

theorem runScan_settles (paths : List Path) (out : Option Path) :
    (Request.scan paths out).Settles libraries tree (runScan libraries tree paths out) := by
  have files : (allKotlinFiles tree paths).2 =
      paths.flatMap fun path => (kotlinFiles tree path).2 := saidAll_map _ _
  have scanned := scanFiles_eq tree (allKotlinFiles tree paths).2
  unfold runScan
  dsimp only
  refine Request.Settles.telling ?_ _
  by_cases empty : (allKotlinFiles tree paths).2 = []
  · rw [if_pos (by rw [empty]; rfl)]
    exact refused_settles (.scan paths out) (files.symm.trans empty) _
  · rw [if_neg (by simpa using empty), scanned, files]
    rw [files] at empty
    refine Request.Settles.telling ?_ _
    cases out with
    | none => exact shown_settles (.scan paths none) rfl empty _
    | some path => exact produce_settles .scan empty _

theorem runMerge_settles (paths : List Path) (out : Option Path) :
    (Request.merge paths out).Settles libraries tree (runMerge libraries tree paths out) := by
  unfold runMerge
  dsimp only
  rw [mergeFiles_eq]
  refine Request.Settles.telling ?_ _
  cases out with
  | none => exact shown_settles (.merge paths none) rfl id _
  | some path => exact produce_settles .merge id _

theorem runGenerate_settles (inputs : Inputs) (outDir : Path) :
    (Request.generate inputs outDir).Settles libraries tree
      (runGenerate libraries tree inputs outDir) := by
  unfold runGenerate
  dsimp only
  refine Request.Settles.telling ?_ _
  by_cases idle : inputs.manifests = [] ∧ inputs.sources = []
  · rw [if_pos (by simp [idle])]
    exact refused_settles (.generate inputs outDir) (.inl idle) _
  rw [if_neg (by simpa using idle), transformInputs_eq]
  refine Request.Settles.telling ?_ _
  cases made : generated libraries tree .implementation inputs with
  | error failure => exact failed_settles (by simp [Request.IsRefused, made, idle])
  | ok result =>
    refine Request.Settles.telling ?_ _
    unfold writeGenerated
    rw [generatedSource_eq, runtimeSource_eq]
    exact produce_settles (.generate made) (by simp [Request.IsRefused, made, idle]) _

theorem runPreview_settles (inputs : Inputs) :
    (Request.preview inputs).Settles libraries tree (runPreview libraries tree inputs) := by
  unfold runPreview
  dsimp only
  rw [transformInputs_eq]
  refine Request.Settles.telling ?_ _
  cases made : generated libraries tree .preview inputs with
  | error failure => exact failed_settles (by simp [Request.IsRefused, made])
  | ok result =>
    refine Request.Settles.telling ?_ _
    exact shown_settles (.preview inputs) rfl (by simp [Request.IsRefused, made]) _

theorem run_settles (request : Request) :
    request.Settles libraries tree (run libraries tree request) := by
  cases request with
  | scan paths out => exact runScan_settles libraries tree paths out
  | merge paths out => exact runMerge_settles libraries tree paths out
  | generate inputs outDir => exact runGenerate_settles libraries tree inputs outDir
  | preview inputs => exact runPreview_settles libraries tree inputs

/-- Arguments that are no request, such as those that ask for help, change nothing. -/
theorem runArguments_effect (arguments : List Text) :
    let report := runArguments libraries tree arguments
    (report.exit = .ok 1 ↔
        (∃ request, ofArguments arguments = .ok request ∧ request.IsRefused libraries tree) ∧
          libraries.ShowsAll report.logs) ∧
      (∀ code, report.exit = .ok code → code ≠ 0 → report.tree = tree) ∧
        (report.exit = .ok 0 →
          match ofArguments arguments with
          | .ok request => request.Effect libraries tree report.tree
          | .error _ => report.tree = tree) ∧
          ∀ crash, report.exit = .error crash →
            report.tree = tree ∨
              ∃ request, ofArguments arguments = .ok request ∧
                request.CutShort libraries tree report.tree crash := by
  intro report
  unfold report runArguments
  cases read : ofArguments arguments with
  | ok request =>
    have settles := run_settles libraries tree request
    refine ⟨settles.refused.trans ?_, settles.unchanged, settles.finished, fun crash failed => ?_⟩
    · simp
    · simpa using settles.crashed crash failed
  | error stop =>
    cases stop <;> simp

/-- A run that writes both files, and one in which a directory is in the way of the second. -/
theorem runArguments_effect_generate :
    let arguments := ["generate", "--source", "a.kt", "--out-dir", "out"].map String.toList
    let request : Request :=
      .generate ⟨[], [⟨[], ["a.kt".toList]⟩], []⟩ ⟨[], ["out".toList]⟩
    let occupied : Tree :=
      { entries :=
          [(["out".toList], .directory),
            (["out".toList, "KtBridgeRuntime.swift".toList], .directory)] }
    request.Effect .plain {} (runArguments .plain {} arguments).tree ∧
      request.CutShort .plain occupied (runArguments .plain occupied arguments).tree
        (.path .isADirectory) := by
  intro arguments request occupied
  have asked : ofArguments arguments = .ok request := by decide +kernel
  have finished := (runArguments_effect .plain {} arguments).2.2.1 (by decide +kernel)
  have interrupted :=
    (runArguments_effect .plain occupied arguments).2.2.2 (.path .isADirectory) (by decide +kernel)
  rw [asked] at finished interrupted
  obtain ⟨other, same, cut⟩ := interrupted.resolve_left (by decide +kernel)
  cases same
  exact ⟨finished, cut⟩

end Command
end DeclBridge
