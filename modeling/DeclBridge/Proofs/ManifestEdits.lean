import DeclBridge.Proofs.ManifestSections
import DeclBridge.Proofs.Readers

/-! What decoding depends on. A section is only asked for the first values of some keys and for all
values of one, so sections that agree on these describe the same declaration. Edits that leave all
sections of a manifest in agreement with what they were do not change what is decoded. -/

namespace DeclBridge

/-- The keys of which a section of the kind holds one value. -/
def Kind.singleKeys : Kind → List String
  | sum => ["name", "namespace", "typeParams", "rename", "exhaustive", "conformances"]
  | async => ["name", "namespace", "return", "typeParams", "failable", "class", "hasAnnotation"]
  | stream => ["name", "namespace", "element", "class", "isProperty", "hasAnnotation"]

/-- The key of which a section of the kind holds many values. -/
def Kind.listKey : Kind → String
  | sum => "subclass"
  | async => "param"
  | stream => "param"

def Kind.Reads (kind : Kind) (key : Text) : Prop :=
  ∃ name ∈ kind.listKey :: kind.singleKeys, key = name.toList

instance (kind : Kind) (key : Text) : Decidable (kind.Reads key) :=
  inferInstanceAs (Decidable (∃ name ∈ _, _))

namespace Manifest

open Text

/-! Sections -/

/-- All values of a key, in the order of the entries. -/
def valuesOf (entries : List (Text × Text)) (key : String) : List Text :=
  (entries.filter (·.1 = key.toList)).map (·.2)

namespace Section

/-- Sections that nobody who reads them can tell apart. -/
structure Agrees (part other : Section) : Prop where
  kind : part.kind = other.kind
  qualifiedName : part.qualifiedName = other.qualifiedName
  first : ∀ key ∈ part.kind.singleKeys, part.first? key = other.first? key
  values : part.values part.kind.listKey = other.values part.kind.listKey

theorem Agrees.declaration? {part other : Section} (agrees : part.Agrees other) :
    part.declaration? = other.declaration? := by
  obtain ⟨kind, name, first, values⟩ := agrees
  rw [Section.declaration?, Section.declaration?, ← kind]
  cases same : part.kind <;>
    simp only [same, Kind.singleKeys, Kind.listKey, List.forall_mem_cons] at first values <;>
    simp only [sumType?, asyncFunction?, stream?, parameters, identity?, nonempty?, package, bool,
      list, name, first, values]

/-- A section with further entries at its end. -/
def extend (part : Section) (more : List (Text × Text)) : Section :=
  { part with entries := part.entries ++ more }

variable (part : Section)

theorem extend_nil : part.extend [] = part := by
  simp [extend]

theorem extend_extend (more others : List (Text × Text)) :
    (part.extend more).extend others = part.extend (more ++ others) := by
  simp [extend]

theorem first?_extend (more : List (Text × Text)) (key : String) :
    (part.extend more).first? key = (part.first? key).or (more.lookup key.toList) :=
  List.lookup_append

theorem values_extend (more : List (Text × Text)) (key : String) :
    (part.extend more).values key = part.values key ++ valuesOf more key := by
  rw [values, extend, List.filter_append, List.map_append, values, valuesOf]

variable {part} {other : Section}

/-- Sections that agree still do so when the same entries are added to both. -/
theorem Agrees.extend (agrees : part.Agrees other) (more : List (Text × Text)) :
    (part.extend more).Agrees (other.extend more) where
  kind := agrees.kind
  qualifiedName := agrees.qualifiedName
  first key member := by rw [first?_extend, first?_extend, agrees.first key member]
  values := by
    have same := agrees.values
    rw [values_extend, values_extend]
    exact congrArg (· ++ _) same

/-- Two ways to go on with a section agree if whoever asks for a key finds the same. -/
theorem agrees_extend {more others : List (Text × Text)}
    (first : ∀ key ∈ part.kind.singleKeys, (part.first? key).or (more.lookup key.toList) =
      (part.first? key).or (others.lookup key.toList))
    (values : valuesOf more part.kind.listKey = valuesOf others part.kind.listKey) :
    (part.extend more).Agrees (part.extend others) where
  kind := rfl
  qualifiedName := rfl
  first key single := by rw [first?_extend, first?_extend, first key single]
  values := by
    rw [values_extend, values_extend]
    exact congrArg (part.values part.kind.listKey ++ ·) values

theorem lookup_singleton_of_ne {entry : Text × Text} {key : Text} (differs : entry.1 ≠ key) :
    [entry].lookup key = none := by
  refine List.lookup_eq_none_iff.mpr fun _ member => ?_
  rw [List.mem_singleton.mp member]
  simpa using differs.symm

/-- An entry whose key is not read makes no difference. -/
theorem agrees_unread {entry : Text × Text} (unread : ¬part.kind.Reads entry.1) :
    (part.extend [entry]).Agrees part := by
  have differs : ∀ key ∈ part.kind.listKey :: part.kind.singleKeys, entry.1 ≠ key.toList :=
    fun key member same => unread ⟨key, member, same⟩
  obtain ⟨list, single⟩ := List.forall_mem_cons.mp differs
  have agrees : (part.extend [entry]).Agrees (part.extend []) := by
    refine agrees_extend (fun key member => ?_) (by simp [valuesOf, list])
    rw [lookup_singleton_of_ne (single key member), List.lookup_nil]
  rwa [extend_nil] at agrees

/-- A further entry for a key makes no difference where one value is all that is asked for. -/
theorem agrees_repeated {entry : Text × Text} (present : ∃ value, (entry.1, value) ∈ part.entries)
    (single : ∀ kind : Kind, entry.1 ≠ kind.listKey.toList) :
    (part.extend [entry]).Agrees part := by
  have agrees : (part.extend [entry]).Agrees (part.extend []) := by
    refine agrees_extend (fun key _ => ?_) (by simp [valuesOf, single])
    rw [List.lookup_nil, Option.or_none]
    by_cases same : entry.1 = key.toList
    · obtain ⟨value, member⟩ := present
      have found : (part.first? key).isSome = true :=
        List.lookup_isSome_iff.mpr ⟨_, member, beq_iff_eq.mpr same.symm⟩
      exact Option.or_of_isSome found
    · rw [lookup_singleton_of_ne same, Option.or_none]
  rwa [extend_nil] at agrees

/-- Entries with different keys may change places. -/
theorem agrees_swapped {first second : Text × Text} (differ : first.1 ≠ second.1) :
    (part.extend [second, first]).Agrees (part.extend [first, second]) := by
  refine agrees_extend (fun key _ => congrArg (part.first? key).or ?_) ?_
  · have apart (one other : Text × Text) :
        [one, other].lookup key.toList =
          ([one].lookup key.toList).or ([other].lookup key.toList) := by
      rw [← List.lookup_append, List.singleton_append]
    rw [apart, apart]
    by_cases same : first.1 = key.toList
    · rw [lookup_singleton_of_ne (same ▸ differ.symm), Option.none_or, Option.or_none]
    · rw [lookup_singleton_of_ne same, Option.none_or, Option.or_none]
  · by_cases same : first.1 = part.kind.listKey.toList
    · simp [valuesOf, same, same ▸ differ.symm]
    · simp [valuesOf, List.filter_cons, same]

end Section

/-! Lines -/

/-- What a line is in a manifest, whatever stands before it. -/
inductive LineRole where
  | header (key : SectionKey)
  | entry (pair : Text × Text)
  | idle
deriving DecidableEq

def LineRole.pair? : LineRole → Option (Text × Text)
  | .entry pair => some pair
  | _ => none

def roleOf (line : Text) : LineRole :=
  let line := trim line
  if isIgnored line then .idle
  else
    match readHeader? line, readEntry? line with
    | some key, _ => .header key
    | none, some pair => .entry pair
    | none, none => .idle

def IsHeader (line : Text) : Prop :=
  ∃ key, roleOf line = .header key

instance (line : Text) : Decidable (IsHeader line) :=
  match role : roleOf line with
  | .header key => isTrue ⟨key, role⟩
  | .entry _ => isFalse fun ⟨_, opens⟩ => by simp [role] at opens
  | .idle => isFalse fun ⟨_, opens⟩ => by simp [role] at opens

/-- Lines that mean nothing wherever they stand. -/
inductive IsIdle : Text → Prop where
  | blank {line} (blank : ∀ c ∈ line, isBlank c = true) : IsIdle line
  | comment (rest) : IsIdle ('#' :: rest)
  | unequal {line} (headless : ¬IsHeader line) (unequal : '=' ∉ line) : IsIdle line
  | keyless {key} (value : Text) (blank : ∀ c ∈ key, isBlank c = true) :
    IsIdle (key ++ '=' :: value)

theorem roleOf_eq_idle {line : Text} (headless : ¬IsHeader line)
    (entryless : readEntry? (trim line) = none) : roleOf line = .idle := by
  have without : ∀ key, roleOf line ≠ .header key := fun key opens => headless ⟨key, opens⟩
  rw [roleOf, entryless] at without ⊢
  cases ignored : isIgnored (trim line) with
  | true => rfl
  | false =>
    cases read : readHeader? (trim line) with
    | none => rfl
    | some key => exact absurd (by simp [ignored, read]) (without key)

theorem IsIdle.roleOf_eq {line : Text} (isIdle : IsIdle line) : roleOf line = .idle := by
  cases isIdle with
  | blank blank =>
    have empty : trim line = [] := by
      have padded : IsTrimmed [] := rfl
      simpa using padded.trim_padded blank (show ∀ c ∈ [], isBlank c = true by simp)
    simp [roleOf, empty, isIgnored]
  | comment rest =>
    have hash : trim ('#' :: rest) = '#' :: trimEnd rest :=
      trim_append_cons (by decide) [] rest
    simp [roleOf, hash, isIgnored]
  | unequal headless unequal =>
    refine roleOf_eq_idle headless ?_
    have absent := cut_eq_none fun inside => unequal (trim_subset line inside)
    unfold readEntry?
    rw [absent]
    rfl
  | @keyless key value blank =>
    have first : trim (key ++ '=' :: value) = '=' :: trimEnd value := by
      have empty : skipBlanks key = [] := List.dropWhile_eq_nil_iff.mpr blank
      rw [trim_append_cons (by decide), empty, List.nil_append]
    rw [roleOf, first]
    rfl

/-- The entries among some lines, in order. -/
def entriesOf (block : List Text) : List (Text × Text) :=
  block.filterMap fun line => (roleOf line).pair?

/-! Reading on -/

/-- Reads on over lines as they stand in a text. -/
def readOn (current : Option Section) (block : List Text) : List Declaration :=
  decodeLines current (significant block)

theorem decode_eq_readOn (text : Text) : decode text = readOn none (lines text) := rfl

section

variable (current : Option Section) {line : Text} (rest : List Text)

theorem readOn_cons (line : Text) :
    readOn current (line :: rest) =
      match roleOf line with
      | .header key => finish current ++ readOn key.open? rest
      | .entry entry => readOn (current.map (·.extend [entry])) rest
      | .idle => readOn current rest := by
  rw [readOn, significant, List.map_cons, List.filter_cons, roleOf]
  cases ignored : isIgnored (trim line) with
  | true => rfl
  | false =>
    simp only [Bool.not_false, if_true, decodeLines]
    cases readHeader? (trim line) with
    | some key => rfl
    | none => cases readEntry? (trim line) <;> cases current <;> rfl

theorem readOn_header {key : SectionKey} (opens : roleOf line = .header key) :
    readOn current (line :: rest) = finish current ++ readOn key.open? rest := by
  rw [readOn_cons, opens]

theorem readOn_entry {entry : Text × Text} (isEntry : roleOf line = .entry entry) :
    readOn current (line :: rest) = readOn (current.map (·.extend [entry])) rest := by
  rw [readOn_cons, isEntry]

theorem readOn_idle (isIdle : roleOf line = .idle) :
    readOn current (line :: rest) = readOn current rest := by
  rw [readOn_cons, isIdle]

end

/-- Who reads on from sections that agree reads the same. -/
theorem readOn_congr {current other : Option Section}
    (agrees : Option.Rel Section.Agrees current other) (block : List Text) :
    readOn current block = readOn other block := by
  have finished {current other : Option Section}
      (agrees : Option.Rel Section.Agrees current other) : finish current = finish other := by
    cases agrees with
    | none => rfl
    | some agrees => exact congrArg Option.toList agrees.declaration?
  induction block generalizing current other with
  | nil => exact finished agrees
  | cons line block ih =>
    cases role : roleOf line with
    | header key => rw [readOn_header _ _ role, readOn_header _ _ role, finished agrees]
    | idle => rw [readOn_idle _ _ role, readOn_idle _ _ role, ih agrees]
    | entry entry =>
      rw [readOn_entry _ _ role, readOn_entry _ _ role]
      refine ih ?_
      cases agrees with
      | none => exact .none
      | some agrees => exact .some (agrees.extend [entry])

/-- Reading on depends on the lines before only through what they declare and the section they end
in. -/
theorem exists_readOn_append (current : Option Section) (front : List Text) :
    ∃ found reached, ∀ rest, readOn current (front ++ rest) = found ++ readOn reached rest := by
  induction front generalizing current with
  | nil => exact ⟨[], current, fun _ => rfl⟩
  | cons line front ih =>
    cases role : roleOf line with
    | header key =>
      obtain ⟨found, reached, read⟩ := ih key.open?
      refine ⟨finish current ++ found, reached, fun rest => ?_⟩
      rw [List.cons_append, readOn_header _ _ role, read, List.append_assoc]
    | entry entry =>
      obtain ⟨found, reached, read⟩ := ih (current.map (·.extend [entry]))
      exact ⟨found, reached, fun rest => by rw [List.cons_append, readOn_entry _ _ role, read]⟩
    | idle =>
      obtain ⟨found, reached, read⟩ := ih current
      exact ⟨found, reached, fun rest => by rw [List.cons_append, readOn_idle _ _ role, read]⟩

/-- The entries of lines without a header are added to the section they stand in. -/
theorem readOn_append {body : List Text} (headless : ∀ line ∈ body, ¬IsHeader line)
    (current : Option Section) (rest : List Text) :
    readOn current (body ++ rest) = readOn (current.map (·.extend (entriesOf body))) rest := by
  induction body generalizing current with
  | nil => simp [entriesOf, Section.extend_nil]
  | cons line body ih =>
    obtain ⟨first, others⟩ := List.forall_mem_cons.mp headless
    cases role : roleOf line with
    | header key => exact absurd ⟨key, role⟩ first
    | idle =>
      have same : entriesOf (line :: body) = entriesOf body := by
        simp [entriesOf, role, LineRole.pair?]
      rw [List.cons_append, readOn_idle _ _ role, ih others, same]
    | entry entry =>
      have longer : entriesOf (line :: body) = [entry] ++ entriesOf body := by
        simp [entriesOf, role, LineRole.pair?]
      rw [List.cons_append, readOn_entry _ _ role, ih others, longer, Option.map_map]
      simp only [Function.comp_def, Section.extend_extend]

/-- A header ends the section before it. -/
theorem readOn_append_header (front : List Text) {header : Text} {key : SectionKey}
    (opens : roleOf header = .header key) (current : Option Section) (rest : List Text) :
    readOn current (front ++ header :: rest) = readOn current front ++ readOn key.open? rest := by
  obtain ⟨found, reached, read⟩ := exists_readOn_append current front
  have alone := read []
  rw [List.append_nil] at alone
  have ended : readOn reached [] = finish reached := rfl
  rw [read, alone, readOn_header _ _ opens, ended, List.append_assoc]

/-! Edits -/

/-- The keys of which some kind holds many values. -/
def IsListKey (key : Text) : Prop :=
  ∃ kind : Kind, key = kind.listKey.toList

/-- Edits of the lines of a manifest: a line that means nothing is inserted, two entries that follow
each other change places, or an entry is inserted that the section does not read, or whose key has a
value there already and only holds one. -/
inductive Edit : List Text → List Text → Prop where
  | idle (front back : List Text) {line} (isIdle : IsIdle line) :
    Edit (front ++ back) (front ++ line :: back)
  | swapped (front back : List Text) {line other first second}
    (isFirst : roleOf line = .entry first) (isSecond : roleOf other = .entry second)
    (differ : first.1 ≠ second.1) :
    Edit (front ++ line :: other :: back) (front ++ other :: line :: back)
  | unread (front back : List Text) {header body line key entry}
    (opens : roleOf header = .header key) (headless : ∀ line ∈ body, ¬IsHeader line)
    (isEntry : roleOf line = .entry entry)
    (unread : ∀ kind ∈ Kind.ofTag? key.tag, ¬kind.Reads entry.1) :
    Edit (front ++ header :: body ++ back) (front ++ header :: body ++ line :: back)
  | repeated (front back : List Text) {present body line first again}
    (isFirst : roleOf present = .entry first) (headless : ∀ line ∈ body, ¬IsHeader line)
    (isAgain : roleOf line = .entry again) (same : again.1 = first.1)
    (single : ¬IsListKey again.1) :
    Edit (front ++ present :: body ++ back) (front ++ present :: body ++ line :: back)

theorem Edit.readOn_eq {block edited : List Text} (edit : Edit block edited)
    (current : Option Section) : readOn current edited = readOn current block := by
  -- In front of the edit both read the same, so the sections behind it have to agree.
  cases edit with
  | @idle front back line isIdle =>
    obtain ⟨found, reached, read⟩ := exists_readOn_append current front
    rw [read, read, readOn_idle _ _ isIdle.roleOf_eq]
  | @swapped front back line other first second isFirst isSecond differ =>
    obtain ⟨found, reached, read⟩ := exists_readOn_append current front
    rw [read, read, readOn_entry _ _ isFirst, readOn_entry _ _ isSecond, readOn_entry _ _ isFirst,
      readOn_entry _ _ isSecond, Option.map_map, Option.map_map]
    refine congrArg (found ++ ·) (readOn_congr ?_ back)
    cases reached with
    | none => exact .none
    | some part =>
      refine .some ?_
      simp only [Function.comp_apply, Section.extend_extend]
      exact Section.agrees_swapped differ
  | @unread front back header body line key entry opens headless isEntry unread =>
    rw [List.append_assoc, List.append_assoc, List.cons_append, List.cons_append,
      readOn_append_header front opens, readOn_append_header front opens, readOn_append headless,
      readOn_append headless, readOn_entry _ _ isEntry]
    refine congrArg (readOn current front ++ ·) (readOn_congr ?_ back)
    rw [SectionKey.open?]
    cases known : Kind.ofTag? key.tag with
    | none => exact .none
    | some kind => exact .some (Section.agrees_unread (unread kind known))
  | @repeated front back present body line first again isFirst headless isAgain same single =>
    obtain ⟨found, reached, read⟩ := exists_readOn_append current front
    rw [List.append_assoc, List.append_assoc, List.cons_append, List.cons_append, read, read,
      readOn_entry _ _ isFirst, readOn_entry _ _ isFirst, readOn_append headless,
      readOn_append headless, readOn_entry _ _ isAgain]
    refine congrArg (found ++ ·) (readOn_congr ?_ back)
    cases reached with
    | none => exact .none
    | some part =>
      refine .some (Section.agrees_repeated ⟨first.2, ?_⟩ fun kind key => single ⟨kind, key⟩)
      simp [Section.extend, same]

/-- In front of a header reading starts anew. -/
theorem readOn_eq_finish_append {back : List Text} (starts : ∀ line ∈ back.head?, IsHeader line)
    (current : Option Section) : readOn current back = finish current ++ readOn none back := by
  cases back with
  | nil => exact (List.append_nil _).symm
  | cons header rest =>
    obtain ⟨key, opens⟩ := starts header rfl
    rw [readOn_header _ _ opens, readOn_header _ _ opens]
    rfl

/-- A declaration has the cases or the parameters that the values tell. -/
def Lists (values : String → List Text) : Declaration → Prop
  | .sum type => type.variants = (values "subclass").filterMap readVariant?
  | .async function => function.parameters = (values "param").filterMap readParameter?
  | .stream stream => stream.parameters = (values "param").filterMap readParameter?

theorem Section.lists_of_declaration? {part : Section} {declaration : Declaration}
    (read : part.declaration? = some declaration) : Lists part.values declaration := by
  unfold Section.declaration? at read
  split at read
  · obtain ⟨type, described, rfl⟩ := Option.map_eq_some_iff.mp read
    obtain ⟨identity, -, rfl⟩ := Option.map_eq_some_iff.mp described
    rfl
  · obtain ⟨function, described, rfl⟩ := Option.map_eq_some_iff.mp read
    obtain ⟨identity, -, rfl⟩ := Option.map_eq_some_iff.mp described
    rfl
  · obtain ⟨stream, described, rfl⟩ := Option.map_eq_some_iff.mp read
    obtain ⟨identity, -, filled⟩ := Option.bind_eq_some_iff.mp described
    obtain ⟨element, -, same⟩ := Option.bind_eq_some_iff.mp filled
    cases same
    rfl

/-- Decoding is not changed by edits that concern nothing a section is read for. Each section is
read on its own, and of the keys for cases and parameters all values are taken, in the order of the
lines. -/
theorem decode_edits :
    (∀ text edited, Edit (lines text) (lines edited) → decode edited = decode text) ∧
      ∀ (text : Text) (front : List Text) (header : Text) (body back : List Text)
        (key : SectionKey),
        lines text = front ++ header :: (body ++ back) → roleOf header = .header key →
        (∀ line ∈ body, ¬IsHeader line) → (∀ line ∈ back.head?, IsHeader line) →
        let described := (key.open?.map (·.extend (entriesOf body))).bind Section.declaration?
        decode text = readOn none front ++ described.toList ++ readOn none back ∧
          ∀ declaration ∈ described, Lists (valuesOf (entriesOf body)) declaration := by
  refine ⟨fun text edited edit => edit.readOn_eq none, ?_⟩
  intro text front header body back key whole opens headless starts described
  refine ⟨?_, fun declaration found => ?_⟩
  · rw [decode_eq_readOn, whole, readOn_append_header front opens, readOn_append headless,
      readOn_eq_finish_append starts, ← List.append_assoc]
    rfl
  · obtain ⟨part, opened, read⟩ := Option.bind_eq_some_iff.mp found
    obtain ⟨empty, known, rfl⟩ := Option.map_eq_some_iff.mp opened
    obtain ⟨kind, -, rfl⟩ := Option.map_eq_some_iff.mp known
    exact Section.lists_of_declaration? read

/-- An entry that sum types do not have is passed over, and both cases are there. -/
theorem decode_edits_cases :
    let text := "[sum:S]\nname=S\nsubclass=A||true\nsubclass=B||true".toList
    let edited := "[sum:S]\nname=S\n return = x\nsubclass=A||true\nsubclass=B||true".toList
    decode edited = decode text ∧
      decode text = [.sum
        { qualifiedName := ['S'], name := ['S'], package := []
          variants :=
            [{ name := ['A'], isObject := true }, { name := ['B'], isObject := true }] }] := by
  intro text edited
  have source : lines text = ["[sum:S]".toList, "name=S".toList] ++
      ["subclass=A||true".toList, "subclass=B||true".toList] := by decide +kernel
  have target : lines edited = ["[sum:S]".toList, "name=S".toList] ++
      [" return = x".toList, "subclass=A||true".toList, "subclass=B||true".toList] := by
    decide +kernel
  have opens : roleOf "[sum:S]".toList = .header ⟨"sum".toList, ['S']⟩ := by decide
  have isEntry : roleOf " return = x".toList = .entry ("return".toList, ['x']) := by decide
  have unread : ∀ kind ∈ Kind.ofTag? "sum".toList, ¬kind.Reads "return".toList := by decide
  let body := ["name=S".toList, "subclass=A||true".toList, "subclass=B||true".toList]
  have headless : ∀ line ∈ body, ¬IsHeader line := by decide
  refine ⟨decode_edits.1 text edited ?_, ?_⟩
  · have first : ∀ line ∈ ["name=S".toList], ¬IsHeader line :=
      fun line member => headless line (List.mem_of_mem_take (i := 1) member)
    rw [source, target]
    exact .unread [] _ opens first isEntry unread
  · obtain ⟨read, -⟩ := decode_edits.2 text [] "[sum:S]".toList body [] _ source opens headless
      (by simp)
    exact read.trans (by decide +kernel)

end Manifest

end DeclBridge
