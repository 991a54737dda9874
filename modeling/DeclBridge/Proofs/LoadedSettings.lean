import DeclBridge.Proofs.ToldMessages
import DeclBridge.Settings.Load
import Mathlib.Data.List.Basic

/-! What loading the settings comes to. A file that is missing, is not TOML or has no settings
leaves all of them to the overrides, and a setting with an unusable value is reported with its key.
Some files end loading in a crash instead, and these are told by what they contain. So does a
warning that cannot be shown. -/

namespace DeclBridge.Settings

open Text Workspace

/-! Settings that are checked -/

/-- The report on a setting with a value that does not fit. -/
def IsMisfitReport (fault : Fault) : Prop :=
  ∃ misfit : Misfit, ∃ name ∈ settingKeys,
    fault = .configuration ("Invalid configuration: ".toList ++ misfit.message)
      (some (['.'].intercalate (name :: misfit.within)))

/-- Nothing goes wrong but that some setting has an unusable value. -/
def Blames (result : Except Fault α) : Prop :=
  ∀ fault, result = .error fault → IsMisfitReport fault

theorem blames_pure (value : α) : Blames (pure value) :=
  fun _ failed => nomatch failed

theorem Blames.bind {first : Except Fault α} {next : α → Except Fault β} (blames : Blames first)
    (more : ∀ value, Blames (next value)) : Blames (first >>= next) := by
  cases first with
  | error fault => exact fun other failed => blames other (by cases failed; rfl)
  | ok value => exact more value

theorem setting_blames {table : Table} {key : String} {read : Value → Except Misfit α} {usual : α}
    (known : key.toList ∈ settingKeys) : Blames (setting table key read usual) := by
  intro fault failed
  unfold setting at failed
  split at failed
  · cases failed
  · split at failed
    · cases failed
    · cases failed
      exact ⟨_, _, known, rfl⟩

theorem validate_blames (validator : Validator) (table : Table) :
    Blames (validate validator table) := by
  unfold validate
  iterate 7 refine (setting_blames (by decide)).bind fun _ => ?_
  exact blames_pure _

/-! Sections of a file -/

/-- Texts, numbers, dates and times can be keys. -/
def Value.isScalar : Value → Bool
  | .list _ | .table _ => false
  | _ => true

/-- An item of a sequence that stands for an entry: a pair, or a text of two characters. -/
def IsEntry (item : Value) : Prop :=
  ∃ key value, itemsOf? item = some [key, value] ∧ key.isScalar

/-- A table, or what has nothing but entries for its items. -/
def IsSection : Value → Prop
  | .table _ => True
  | value => ∃ items, itemsOf? value = some items ∧ ∀ item ∈ items, IsEntry item

theorem addPair_ok_iff {settings : RawSettings} {item : Value} :
    (∃ next, settings.addPair item = .ok next) ↔ IsEntry item := by
  unfold RawSettings.addPair IsEntry
  split
  · next same => simp [same]
  · next same => simp [same, Value.isScalar]
  · next same => simp [same, Value.isScalar]
  · next same => simp [same, Value.isScalar]
  · next key value _ listless tableless same =>
    have scalar : key.isScalar = true := by
      unfold Value.isScalar
      split
      · exact absurd rfl (listless _)
      · exact absurd rfl (tableless _)
      · rfl
    refine iff_of_true ?_ ⟨key, value, same, scalar⟩
    split <;> exact ⟨_, rfl⟩
  · next items _ _ _ pairless same =>
    refine iff_of_false nofun ?_
    rintro ⟨key, value, pair, -⟩
    exact pairless key value (Option.some.inj (same.symm.trans pair))

theorem foldlM_addPair_ok_iff {settings : RawSettings} {items : List Value} :
    (∃ next, items.foldlM RawSettings.addPair settings = .ok next) ↔
      ∀ item ∈ items, IsEntry item := by
  induction items generalizing settings with
  | nil => simp [pure, Except.pure]
  | cons item items ih =>
    rw [List.forall_mem_cons, ← @addPair_ok_iff settings, List.foldlM_cons]
    cases settings.addPair item with
    | error crash => simp [bind, Except.bind]
    | ok next => simpa [bind, Except.bind] using ih

theorem ofValue_ok_iff {value : Value} :
    (∃ settings, RawSettings.ofValue value = .ok settings) ↔ IsSection value := by
  cases value with
  | table entries => simp [RawSettings.ofValue, IsSection]
  | string | list =>
    simp only [RawSettings.ofValue, IsSection, itemsOf?, Option.some.injEq, exists_eq_left']
    exact foldlM_addPair_ok_iff
  | null | bool | int | float | moment => simp [RawSettings.ofValue, IsSection, itemsOf?]

/-! Keys that are no settings -/

/-- There are unknown keys that cannot be put in order: texts beside others, or others of different
kinds. -/
def IsMixed (settings : RawSettings) : Prop :=
  (∃ _ ∈ settings.unnamed, ∃ entry ∈ settings.named, entry.1 ∉ settingKeys) ∨
    ∃ first ∈ settings.unnamed, ∃ second ∈ settings.unnamed, first.keyKind ≠ second.keyKind

/-- A key that is no setting, as it is reported. -/
def IsUnknownKey (settings : RawSettings) (key : Text) : Prop :=
  (∃ entry ∈ settings.named, entry.1 = key ∧ key ∉ settingKeys) ∨
    ∃ other ∈ settings.unnamed, other.keyText = key

theorem unknownKeys_ok_iff {settings : RawSettings} :
    (∃ keys, unknownKeys settings = .ok keys) ↔ ¬IsMixed settings := by
  obtain ⟨named, unnamed⟩ := settings
  cases unnamed with
  | nil => simp [unknownKeys, IsMixed]
  | cons key others =>
    have known : ((named.map (·.1)).filter (!settingKeys.contains ·)).isEmpty ↔
        ∀ entry ∈ named, entry.1 ∈ settingKeys := by
      simp [List.filter_eq_nil_iff]
    unfold unknownKeys
    dsimp only
    split
    · next ordered =>
      rw [Bool.and_eq_true, known, List.all_eq_true] at ordered
      obtain ⟨none, alike⟩ := ordered
      have kind : ∀ other ∈ key :: others, other.keyKind = key.keyKind :=
        List.forall_mem_cons.mpr ⟨rfl, fun other member => of_decide_eq_true (alike other member)⟩
      refine iff_of_true ⟨_, rfl⟩ ?_
      rintro (⟨-, -, entry, member, unknown⟩ | ⟨first, inFirst, second, inSecond, apart⟩)
      · exact unknown (none entry member)
      · exact apart ((kind first inFirst).trans (kind second inSecond).symm)
    · next unordered =>
      refine iff_of_false nofun (not_not_intro ?_)
      rw [Bool.and_eq_true, known, not_and_or] at unordered
      rcases unordered with some | apart
      · push Not at some
        exact .inl ⟨key, List.mem_cons_self, some⟩
      · obtain ⟨other, member, differs⟩ : ∃ other ∈ others, other.keyKind ≠ key.keyKind := by
          simpa using apart
        exact .inr ⟨other, List.mem_cons_of_mem key member, key, List.mem_cons_self, differs⟩

theorem mem_unknownKeys {settings : RawSettings} {keys : List Text}
    (found : unknownKeys settings = .ok keys) {key : Text} :
    key ∈ keys ↔ IsUnknownKey settings key := by
  obtain ⟨named, unnamed⟩ := settings
  have text : key ∈ (named.map (·.1)).filter (!settingKeys.contains ·) ↔
      ∃ entry ∈ named, entry.1 = key ∧ key ∉ settingKeys := by
    simp only [List.mem_filter, List.mem_map, List.contains_iff_mem, Bool.not_eq_true',
      Bool.eq_false_iff, ne_eq, ← exists_and_right, and_assoc]
  unfold unknownKeys at found
  dsimp only at found
  split at found
  · cases found
    rw [(List.mergeSort_perm _ _).mem_iff, text, IsUnknownKey]
    simp
  · next first others =>
    split at found
    · next ordered =>
      cases found
      rw [Bool.and_eq_true, List.isEmpty_iff] at ordered
      rw [ordered.1] at text
      rw [IsUnknownKey, ← text, List.mem_map]
      simp only [(List.mergeSort_perm _ _).mem_iff, List.not_mem_nil, false_or]
    · cases found

variable {libraries : Libraries}

theorem resolveSettings_crash_iff {settings : RawSettings} :
    (∃ crash, (resolveSettings libraries settings).2 = .error (.crash crash)) ↔
      IsMixed settings ∨
        ∃ key, IsUnknownKey settings key ∧ ¬libraries.shows (ignored key).message := by
  rw [resolveSettings]
  by_cases mixed : IsMixed settings
  · cases keys : unknownKeys settings with
    | error crash => exact iff_of_true ⟨_, rfl⟩ (.inl mixed)
    | ok unknown => exact absurd mixed (unknownKeys_ok_iff.mp ⟨_, keys⟩)
  · obtain ⟨unknown, keys⟩ := unknownKeys_ok_iff.mpr mixed
    rw [keys, or_iff_right mixed]
    have told : libraries.ShowsAll (unknown.map ignored) ↔
        ¬∃ key, IsUnknownKey settings key ∧ ¬libraries.shows (ignored key).message := by
      simp [Libraries.ShowsAll, mem_unknownKeys keys]
    dsimp only
    by_cases all : libraries.ShowsAll (unknown.map ignored)
    · rw [Libraries.heard_of_showsAll all]
      refine iff_of_false ?_ (told.mp all)
      cases validate libraries.validator settings.named <;> simp [Except.mapError]
    · rw [Libraries.heard_of_not_showsAll all]
      exact iff_of_true ⟨_, rfl⟩ (not_not.mp fun none => all (told.mpr none))

theorem resolveSettings_blames {settings : RawSettings} {fault : Fault}
    (failed : (resolveSettings libraries settings).2 = .error (.fault fault)) :
    IsMisfitReport fault := by
  unfold resolveSettings at failed
  split at failed
  · cases failed
  · next unknown _ =>
    by_cases all : libraries.ShowsAll (unknown.map ignored)
    · rw [Libraries.heard_of_showsAll all] at failed
      apply validate_blames libraries.validator settings.named
      cases checked : validate libraries.validator settings.named with
      | ok config =>
        rw [checked] at failed
        cases failed
      | error other =>
        rw [checked] at failed
        cases failed
        rfl
    · rw [Libraries.heard_of_not_showsAll all] at failed
      cases failed

/-! The nearest file -/

/-- A configuration file at or above where a search starts, and no other is nearer. -/
inductive IsNearest (tree : Tree) (start : Path) : Place → Bytes → Prop where
  | intro {directory content} (above : directory <+: tree.place start)
      (found : tree.entry? (directory ++ [fileName]) = some (.file content))
      (nearest : ∀ nearer other, nearer <+: tree.place start →
        tree.entry? (nearer ++ [fileName]) = some (.file other) →
          nearer.length ≤ directory.length) :
    IsNearest tree start (directory ++ [fileName]) content

theorem mem_upwards {place directory : Place} :
    directory ∈ upwards place ↔ directory <+: place := by
  simp only [upwards, List.mem_reverse, List.mem_map, List.mem_range, Nat.lt_add_one_iff]
  constructor
  · rintro ⟨count, -, rfl⟩
    exact List.take_prefix _ _
  · intro above
    exact ⟨directory.length, above.length_le, (List.prefix_iff_eq_take.mp above).symm⟩

theorem pairwise_upwards (place : Place) :
    (upwards place).Pairwise fun inner outer => outer.length < inner.length := by
  rw [upwards, List.pairwise_reverse, List.pairwise_map]
  refine List.pairwise_lt_range.imp_of_mem fun {shorter longer} _ inside less => ?_
  have most := List.mem_range.mp inside
  rw [List.length_take, List.length_take]
  omega

theorem fileIn?_eq_some_iff {tree : Tree} {directory place : Place} {content : Bytes} :
    fileIn? tree directory = some (place, content) ↔
      place = directory ++ [fileName] ∧ tree.entry? place = some (.file content) := by
  unfold fileIn?
  constructor
  · intro found
    split at found
    · next present =>
      cases found
      exact ⟨rfl, present⟩
    · cases found
  · rintro ⟨rfl, present⟩
    simp only [present]

/-- The directories are gone through from the inside out, so the first file is the nearest. -/
theorem nearestFile?_eq_some_iff {tree : Tree} {start : Path} {place : Place} {content : Bytes} :
    nearestFile? tree start = some (place, content) ↔ IsNearest tree start place content := by
  have order := pairwise_upwards (tree.place start)
  rw [nearestFile?, List.findSome?_eq_some_iff]
  constructor
  · rintro ⟨inner, directory, outer, all, found, none⟩
    obtain ⟨rfl, present⟩ := fileIn?_eq_some_iff.mp found
    rw [all, List.pairwise_append] at order
    refine .intro (mem_upwards.mp (all ▸ by simp)) present fun nearer other above given => ?_
    rw [← mem_upwards, all, List.mem_append, List.mem_cons] at above
    rcases above with within | rfl | beyond
    · exact nomatch (fileIn?_eq_some_iff.mpr ⟨rfl, given⟩).symm.trans (none nearer within)
    · exact Nat.le_refl _
    · exact Nat.le_of_lt ((List.pairwise_cons.mp order.2.1).1 nearer beyond)
  · rintro @⟨directory, content, above, found, nearest⟩
    obtain ⟨inner, outer, all⟩ := List.append_of_mem (mem_upwards.mpr above)
    rw [all, List.pairwise_append] at order
    refine ⟨inner, directory, outer, all, fileIn?_eq_some_iff.mpr ⟨rfl, found⟩,
      fun nearer within => ?_⟩
    cases given : fileIn? tree nearer with
    | none => rfl
    | some file =>
      obtain ⟨place, other⟩ := file
      obtain ⟨rfl, present⟩ := fileIn?_eq_some_iff.mp given
      have least := nearest nearer other (mem_upwards.mp (all ▸ by simp [within])) present
      have longer := order.2.2 nearer within directory List.mem_cons_self
      omega

/-! Contents of a file -/

/-- What is read from the contents of a file. -/
def document? (content : Bytes) : Option (Except Toml.Fault Table) :=
  (decodeUtf8 content).toOption.map fun text => Toml.parse (unifyLineFeeds text)

/-- Contents without settings: no TOML, or without anything at `tool.ktbridge`. -/
inductive IsBare (content : Bytes) : Prop where
  | malformed (read : document? content = some (.error .malformed))
  | noTool {document} (read : document? content = some (.ok document))
    (absent : document.lookup "tool".toList = none)
  | noSection {document tools} (read : document? content = some (.ok document))
    (tool : document.lookup "tool".toList = some (.table tools))
    (absent : tools.lookup "ktbridge".toList = none)
  | empty {document tools value} (read : document? content = some (.ok document))
    (tool : document.lookup "tool".toList = some (.table tools))
    (found : tools.lookup "ktbridge".toList = some value) (empty : itemsOf? value = some [])

/-- Contents that end loading in a crash. -/
inductive Crashes (overrides : Table) (content : Bytes) : Prop where
  | undecodable (read : document? content = none)
  | oversized (read : document? content = some (.error .oversized))
  | tool {document value} (read : document? content = some (.ok document))
    (found : document.lookup "tool".toList = some value)
    (tableless : ∀ tools, value ≠ .table tools)
  | entries {document tools value} (read : document? content = some (.ok document))
    (tool : document.lookup "tool".toList = some (.table tools))
    (found : tools.lookup "ktbridge".toList = some value) (unusable : ¬IsSection value)
  | keys {document settings} (read : document? content = some (.ok document))
    (found : RawSettings.ofDocument document = .ok settings)
    (mixed : IsMixed { settings with named := override settings.named overrides })

theorem ofDocument_crash_iff {document : Table} :
    (∃ crash, RawSettings.ofDocument document = .error crash) ↔
      (∃ value, document.lookup "tool".toList = some value ∧ ∀ tools, value ≠ .table tools) ∨
      ∃ tools value, document.lookup "tool".toList = some (.table tools) ∧
        tools.lookup "ktbridge".toList = some value ∧ ¬IsSection value := by
  unfold RawSettings.ofDocument
  generalize "tool".toList = tool, "ktbridge".toList = ktbridge
  split
  · next absent => simp [absent]
  · next tools found =>
    split
    · next absent => simp [found, absent]
    · next value present =>
      have usable := @ofValue_ok_iff value
      cases made : RawSettings.ofValue value <;> simp_all
  · next value tableless found =>
    exact iff_of_true ⟨_, rfl⟩ (.inl ⟨value, found, fun tools same => tableless tools (same ▸ rfl)⟩)

/-- The settings in the contents of a file. -/
def settingsIn (content : Bytes) : Except Crash RawSettings :=
  match document? content with
  | none => .error .undecodable
  | some (.error .oversized) => .error .unusable
  | some (.error .malformed) => .ok {}
  | some (.ok document) => RawSettings.ofDocument document

theorem IsBare.settingsIn_eq {content : Bytes} (bare : IsBare content) :
    settingsIn content = .ok {} := by
  unfold settingsIn
  cases bare with
  | malformed read => rw [read]
  | noTool read absent =>
    rw [read]
    simp only [RawSettings.ofDocument, absent]
  | noSection read tool absent =>
    rw [read]
    simp only [RawSettings.ofDocument, tool, absent]
  | @empty _ _ value read tool found empty =>
    rw [read]
    simp only [RawSettings.ofDocument, tool, found]
    cases value <;> simp_all [RawSettings.ofValue, itemsOf?, pure, Except.pure]

theorem crashes_iff {overrides : Table} {content : Bytes} :
    Crashes overrides content ↔
      (∃ crash, settingsIn content = .error crash) ∨
      ∃ settings, settingsIn content = .ok settings ∧
        IsMixed { settings with named := override settings.named overrides } := by
  constructor
  · rintro (read | read | ⟨read, found, tableless⟩ | ⟨read, tool, found, unusable⟩ |
      ⟨read, found, mixed⟩)
    · exact .inl ⟨_, by rw [settingsIn, read]⟩
    · exact .inl ⟨_, by rw [settingsIn, read]⟩
    · rw [settingsIn, read]
      exact .inl (ofDocument_crash_iff.mpr (.inl ⟨_, found, tableless⟩))
    · rw [settingsIn, read]
      exact .inl (ofDocument_crash_iff.mpr (.inr ⟨_, _, tool, found, unusable⟩))
    · rw [settingsIn, read]
      exact .inr ⟨_, found, mixed⟩
  · intro crashes
    unfold settingsIn at crashes
    split at crashes
    · next read => exact .undecodable read
    · next read => exact .oversized read
    · next read =>
      rcases crashes with ⟨crash, failed⟩ | ⟨settings, made, mixed⟩
      · cases failed
      · cases made
        simp [IsMixed] at mixed
    · next document read =>
      rcases crashes with failed | ⟨settings, made, mixed⟩
      · rcases ofDocument_crash_iff.mp failed with
          ⟨value, found, tableless⟩ | ⟨tools, value, tool, found, unusable⟩
        · exact .tool read found tableless
        · exact .entries read tool found unusable
      · exact .keys read made mixed

/-! Loading -/

section

variable (libraries : Libraries) (tree : Tree) (start : Path)

/-- The settings in the nearest file, if there is one. -/
def nearestSettings : Except Crash RawSettings :=
  match nearestFile? tree start with
  | none => .ok {}
  | some (_, content) => settingsIn content

/-- The settings that take effect, of which some may be unknown. -/
def overridden (settings : RawSettings) (overrides : Table) : RawSettings :=
  { settings with named := override settings.named overrides }

/-- The warning about a nearest file that is not TOML. -/
inductive IsComplaint : Log → Prop where
  | unreadable {place content text} (nearest : nearestFile? tree start = some (place, content))
      (decoded : decodeUtf8 content = .ok text)
      (malformed : Toml.parse (unifyLineFeeds text) = .error .malformed) :
    IsComplaint (unreadable libraries place (unifyLineFeeds text))

/-- The warnings that loading gives: about the file, and about keys that are no settings. -/
inductive IsWarning (overrides : Table) : Log → Prop where
  | complaint {log} (complaint : IsComplaint libraries tree start log) : IsWarning overrides log
  | ignored {settings key} (found : nearestSettings tree start = .ok settings)
      (unknown : IsUnknownKey (overridden settings overrides) key) :
    IsWarning overrides (ignored key)

end

section

variable {tree : Tree} {start : Path} {overrides : Table}

theorem readFile_of_shown
    (shown : ∀ log, IsComplaint libraries tree start log → libraries.shows log.message) :
    (readFile libraries tree start).2 = nearestSettings tree start := by
  unfold readFile nearestSettings settingsIn document?
  cases nearest : nearestFile? tree start with
  | none => rfl
  | some found =>
    obtain ⟨place, content⟩ := found
    dsimp only
    cases decoded : decodeUtf8 content with
    | error fault => rfl
    | ok text =>
      dsimp only [Except.toOption, Option.map]
      cases parsed : Toml.parse (unifyLineFeeds text) with
      | ok document => rfl
      | error fault =>
        cases fault with
        | oversized => rfl
        | malformed =>
          rw [Libraries.heard_of_showsAll]
          exact List.forall_mem_singleton.mpr (shown _ (.unreadable nearest decoded parsed))

theorem readFile_of_not_shown {log : Log} (complaint : IsComplaint libraries tree start log)
    (unshown : ¬libraries.shows log.message) :
    (readFile libraries tree start).2 = .error .markup := by
  obtain ⟨nearest, decoded, malformed⟩ := complaint
  unfold readFile
  simp only [nearest, decoded, malformed]
  exact Libraries.heard_of_not_showsAll fun all => unshown (all _ List.mem_cons_self)

theorem loadFrom_eq (libraries : Libraries) (tree : Tree) (start : Path) (overrides : Table) :
    (loadFrom libraries tree start overrides).2 =
      match (readFile libraries tree start).2 with
      | .error crash => .error (.crash crash)
      | .ok settings => (resolveSettings libraries (overridden settings overrides)).2 := by
  unfold loadFrom
  obtain ⟨said, found⟩ := readFile libraries tree start
  cases found <;> rfl

/-- What settings come to when all that is said about the file can be shown. -/
theorem loadFrom_crash_iff_of_shown
    (shown : ∀ log, IsComplaint libraries tree start log → libraries.shows log.message) :
    (∃ crash, (loadFrom libraries tree start overrides).2 = .error (.crash crash)) ↔
      (∃ crash, nearestSettings tree start = .error crash) ∨
        ∃ settings, nearestSettings tree start = .ok settings ∧
          (IsMixed (overridden settings overrides) ∨
            ∃ key, IsUnknownKey (overridden settings overrides) key ∧
              ¬libraries.shows (ignored key).message) := by
  rw [loadFrom_eq, readFile_of_shown shown]
  cases nearestSettings tree start with
  | error crash => simp
  | ok settings => simp [resolveSettings_crash_iff]

theorem nearest_crashes_iff :
    (∃ place content, nearestFile? tree start = some (place, content) ∧
        Crashes overrides content) ↔
      (∃ crash, nearestSettings tree start = .error crash) ∨
        ∃ settings, nearestSettings tree start = .ok settings ∧
          IsMixed (overridden settings overrides) := by
  unfold nearestSettings
  cases nearestFile? tree start with
  | none => simp [overridden, IsMixed]
  | some found =>
    obtain ⟨place, content⟩ := found
    have only : (∃ other more, some (place, content) = some (other, more) ∧
        Crashes overrides more) ↔ Crashes overrides content := by
      simp
    exact only.trans crashes_iff

theorem loadFrom_crash_iff :
    (∃ crash, (loadFrom libraries tree start overrides).2 = .error (.crash crash)) ↔
      (∃ place content, nearestFile? tree start = some (place, content) ∧
        Crashes overrides content) ∨
      ∃ log, IsWarning libraries tree start overrides log ∧ ¬libraries.shows log.message := by
  by_cases shown : ∀ log, IsComplaint libraries tree start log → libraries.shows log.message
  · rw [loadFrom_crash_iff_of_shown shown, nearest_crashes_iff, or_assoc]
    refine or_congr_right ?_
    constructor
    · rintro ⟨settings, found, mixed | ⟨key, unknown, unshown⟩⟩
      · exact .inl ⟨settings, found, mixed⟩
      · exact .inr ⟨_, .ignored found unknown, unshown⟩
    · rintro (⟨settings, found, mixed⟩ | ⟨_, complaint | ⟨found, unknown⟩, unshown⟩)
      · exact ⟨settings, found, .inl mixed⟩
      · exact absurd (shown _ complaint) unshown
      · exact ⟨_, found, .inr ⟨_, unknown, unshown⟩⟩
  · push Not at shown
    obtain ⟨log, complaint, unshown⟩ := shown
    have unshown : ¬libraries.shows log.message := by simpa using unshown
    rw [loadFrom_eq, readFile_of_not_shown complaint unshown]
    exact iff_of_true ⟨_, rfl⟩ (.inr ⟨log, .complaint complaint, unshown⟩)

theorem loadFrom_blames {fault : Fault}
    (failed : (loadFrom libraries tree start overrides).2 = .error (.fault fault)) :
    IsMisfitReport fault := by
  rw [loadFrom_eq] at failed
  split at failed
  · cases failed
  · exact resolveSettings_blames failed

theorem loadFrom_bare
    (bare : ∀ place content, nearestFile? tree start = some (place, content) → IsBare content)
    (shown : ∀ log, IsComplaint libraries tree start log → libraries.shows log.message) :
    (loadFrom libraries tree start overrides).2 = (loadFrom libraries {} {} overrides).2 := by
  have empty : nearestSettings tree start = .ok {} := by
    unfold nearestSettings
    cases found : nearestFile? tree start with
    | none => rfl
    | some file => exact (bare file.1 file.2 found).settingsIn_eq
  rw [loadFrom_eq, loadFrom_eq, readFile_of_shown shown, empty]
  rfl

end

/-- Loading looks at the nearest file alone. It crashes for overrides that mean the search itself,
for certain contents of that file and for a warning that cannot be shown. Otherwise it fails for a
setting with an unusable value only, and without settings in a file it comes to what the overrides
alone come to. -/
theorem load_outcome (libraries : Libraries) (tree : Tree) (start : Path) (overrides : Table) :
    (∀ place content, nearestFile? tree start = some (place, content) ↔
      IsNearest tree start place content) ∧
    ((∃ crash, (load libraries tree start overrides).2 = .error (.crash crash)) ↔
      (∃ entry ∈ overrides, entry.1 = searchKey ∨ entry.1 = reservedKey) ∨
        (∃ place content, nearestFile? tree start = some (place, content) ∧
          Crashes overrides content) ∨
        ∃ log, IsWarning libraries tree start overrides log ∧ ¬libraries.shows log.message) ∧
    (∀ fault, (load libraries tree start overrides).2 = .error (.fault fault) →
      IsMisfitReport fault) ∧
    ((∀ place content, nearestFile? tree start = some (place, content) → IsBare content) →
      (∀ log, IsComplaint libraries tree start log → libraries.shows log.message) →
      (load libraries tree start overrides).2 = (load libraries {} {} overrides).2) := by
  refine ⟨fun place content => nearestFile?_eq_some_iff, ?_⟩
  unfold load
  split
  · next reserved =>
    have taken : ∃ entry ∈ overrides, entry.1 = searchKey ∨ entry.1 = reservedKey := by
      simpa using reserved
    exact ⟨iff_of_true ⟨_, rfl⟩ (.inl taken), nofun, fun _ _ => rfl⟩
  · next free =>
    have untaken : ¬∃ entry ∈ overrides, entry.1 = searchKey ∨ entry.1 = reservedKey := by
      simpa using free
    exact ⟨loadFrom_crash_iff.trans (or_iff_right untaken).symm, fun _ => loadFrom_blames,
      loadFrom_bare⟩

/-- A key with brackets that close nothing cannot be reported, while an unfinished file can. -/
theorem load_outcome_markup :
    let key := "[/x]".toList
    let holds (message : Text) := firstMatch? (fun rest => (behind? key rest).map ((), ·)) message
    let console : Libraries :=
      { Libraries.plain with
        shows := fun message => (holds message).isNone
        tomlReport := fun _ => "Invalid value (at end of document)".toList }
    let tree : Tree := { entries := [([fileName], .file (encodeUtf8 "tool = ".toList))] }
    (∃ crash, (load console {} {} [(key, .bool true)]).2 = .error (.crash crash)) ∧
      (load console tree {} []).2 = (load console {} {} []).2 := by
  intro key holds console tree
  have unknown : IsUnknownKey (overridden {} [(key, .bool true)]) key :=
    .inl ⟨(key, .bool true), List.mem_singleton_self _, rfl, by decide⟩
  have content : nearestFile? tree {} = some ([fileName], encodeUtf8 "tool = ".toList) := by
    decide +kernel
  have malformed : (document? (encodeUtf8 "tool = ".toList)).map (·.map fun _ => ()) =
      some (.error .malformed) := by
    decide +kernel
  refine ⟨(load_outcome console {} {} _).2.1.mpr (.inr (.inr ⟨_, .ignored rfl unknown, ?_⟩)),
    (load_outcome console tree {} []).2.2.2 (fun place other nearest => ?_) ?_⟩
  · decide +kernel
  · rw [content] at nearest
    cases nearest
    obtain ⟨parsed, read, failed⟩ := Option.map_eq_some_iff.mp malformed
    cases parsed with
    | error fault =>
      cases failed
      exact .malformed read
    | ok document => cases failed
  · rintro _ ⟨nearest, -, -⟩
    rw [content] at nearest
    cases nearest
    show console.shows (unreadable console [fileName] []).message
    decide +kernel

/-- A file whose `tool` is a number, or one that is not encoded in UTF-8, has no settings. It ends
loading all the same. -/
theorem load_scalar_tool :
    let holding (content : Bytes) : Tree := { entries := [([fileName], .file content)] }
    (load .plain (holding (encodeUtf8 "tool = 1\n".toList)) {} []).2 =
        .error (.crash .notATable) ∧
      (load .plain (holding [0xff]) {} []).2 = .error (.crash .undecodable) ∧
      (load .plain {} {} []).2 = .ok {} := by
  decide +kernel

end DeclBridge.Settings
