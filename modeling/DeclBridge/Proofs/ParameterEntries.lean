import DeclBridge.Proofs.QuietTexts

/-! Entries of parameter lists. An entry that is written with single spaces around its marks is read
back: the name ends at the first colon, the type at the first equals sign, and what is left is the
default. -/

namespace DeclBridge.Text

/-- Collapsing leaves single spaces between words. -/
theorem isSpaced_collapse {text : Text} (filled : collapse text ≠ []) :
    IsSpaced (collapse text) := by
  have spaced {parts : List Text} (nonempty : parts ≠ [])
      (inked : ∀ part ∈ parts, part ≠ [] ∧ ∀ c ∈ part, isBlank c = false) :
      IsSpaced ([' '].intercalate parts) := by
    induction parts with
    | nil => exact absurd rfl nonempty
    | cons part parts ih =>
      obtain ⟨⟨filled, ink⟩, others⟩ := List.forall_mem_cons.mp inked
      cases parts with
      | nil =>
        rw [List.intercalate_singleton]
        exact .word filled ink
      | cons next more =>
        rw [List.intercalate_cons_cons, List.append_assoc]
        exact .spaced filled ink (ih (by simp) others)
  refine spaced (fun none => filled ?_) fun _ => of_mem_words
  rw [collapse, none]
  rfl

end DeclBridge.Text

namespace DeclBridge.Kotlin

open Text Syntax

/-! The front of an entry -/

section

variable {name : Text} (word : IsWord name) (rest : Text)
include word

theorem word?_colon_append : word? (name ++ ':' :: rest) = some (name, ':' :: rest) :=
  run?_append word.nonempty word.wordChars (outside_head (by decide) rest)

/-- A name directly before a colon is not taken for a modifier. -/
theorem many_name :
    many (oneKeyword? parameterModifiers) (name ++ ':' :: rest) = ([], name ++ ':' :: rest) := by
  have keywords : ∀ word ∈ parameterModifiers, IsWord word.toList := by decide
  refine many_of_refused (oneKeyword?_eq_none fun modifier member => ?_)
  by_contra read
  obtain ⟨found, read⟩ := Option.ne_none_iff_exists'.mp read
  obtain ⟨more, same, c, head, blank⟩ := exists_of_keyword?_append read
    (keywords modifier member).wordChars (outside_head (by decide) rest)
  cases more with
  | nil =>
    cases head
    exact absurd blank (by decide)
  | cons d more =>
    rw [← Option.some.inj head,
      isBlank_of_isWordChar (word.wordChars d (by simp [same]))] at blank
    cases blank

/-- Before the name there may be one modifier. -/
theorem many_modifier {modifier : String} (member : modifier ∈ parameterModifiers) :
    many (oneKeyword? parameterModifiers) (modifier.toList ++ ' ' :: (name ++ ':' :: rest)) =
      ([modifier], name ++ ':' :: rest) := by
  have apart : ∀ word ∈ parameterModifiers, ∀ other ∈ parameterModifiers, other ≠ word →
      ¬other.toList <:+ word.toList := by decide
  have ink : ∀ c ∈ (name ++ ':' :: rest).head?, isBlank c = false := by
    rw [List.head?_append_of_ne_nil _ word.nonempty]
    exact fun c head => isBlank_of_isWordChar (word.wordChars c (List.mem_of_mem_head? head))
  have read := oneKeyword?_keyword member (by decide) (apart modifier member) ink
  rw [many, read]
  simp only
  rw [if_pos (by simp; omega), many_name word]

theorem parameterName?_of_many {entry : Text} {found : List String}
    (read : many (oneKeyword? parameterModifiers) entry = (found, name ++ ':' :: rest)) :
    parameterName? entry = some ((found, name), rest) := by
  have colon : mark? ':' (':' :: rest) = some rest := by
    simp [mark?, skipBlanks, show isBlank ':' = false from rfl]
  simp [parameterName?, read, word?_colon_append word, colon]

end

theorem skipAnnotations_eq {text : Text} (unmarked : text.head? ≠ some '@') :
    skipAnnotations text = text := by
  have refused : annotated? text = none := by
    rw [annotated?, literal?_eq_none unmarked]
    rfl
  rw [skipAnnotations, many_of_refused refused]

/-! Behind the colon -/

/-- A type, and the default behind it. -/
def typedText (type : Text) (default : Option Text) : Text :=
  type ++ default.elim [] (" = ".toList ++ ·)

section

variable {type : Text} {default : Option Text} (spaced : IsSpaced type)
include spaced

theorem typedText_ne_nil : typedText type default ≠ [] :=
  List.append_ne_nil_of_left_ne_nil spaced.ne_nil _

theorem head_ink_typedText : ∀ c ∈ (typedText type default).head?, isBlank c = false := by
  rw [typedText, List.head?_append_of_ne_nil _ spaced.ne_nil]
  exact fun c head => spaced.isTrimmed.head_ink head

variable (values : ∀ value ∈ default, IsTrimmed value ∧ value ≠ [])
include values

theorem isTrimmedEnd_typedText : IsTrimmedEnd (typedText type default) := by
  rw [typedText]
  cases default with
  | none => simpa using spaced.isTrimmed.trimmedEnd
  | some value =>
    obtain ⟨trimmed, nonempty⟩ := values value rfl
    rw [Option.elim_some, ← List.append_assoc]
    exact trimmed.trimmedEnd.append_left nonempty _

/-- The first equals sign ends the type, whatever the default holds. -/
theorem splitDefault_typedText (undivided : '=' ∉ type) :
    splitDefault (typedText type default) = (type, default) := by
  obtain ⟨c, more, rfl⟩ := List.exists_cons_of_ne_nil spaced.ne_nil
  have absent : '=' ∉ more := List.not_mem_of_not_mem_cons undivided
  rw [typedText]
  cases default with
  | none => rw [Option.elim_none, List.append_nil, splitDefault, cut_eq_none absent]
  | some written =>
    obtain ⟨trimmed, nonempty⟩ := values written rfl
    have divided : cut '=' (more ++ (" = ".toList ++ written)) =
        some (more ++ [' '], ' ' :: written) := by
      have found := cut_append (by simp [absent] : '=' ∉ more ++ [' ']) (' ' :: written)
      simpa using found
    have front : trimEnd (c :: (more ++ [' '])) = c :: more := by
      rw [← List.cons_append, trimEnd_eq_rdropWhile, List.rdropWhile_concat_pos _ _ _ (by decide)]
      exact spaced.isTrimmed.trimmedEnd
    have behind : skipBlanks (' ' :: written) = written :=
      skipBlanks_eq_self_iff.mpr fun d head => trimmed.head_ink head
    rw [Option.elim_some, List.cons_append, splitDefault, divided]
    simp only
    rw [front, behind]

/-- Whatever the modifiers are, name, type and default are read as they were written. -/
theorem readParameter?_of_many (undivided : '=' ∉ type) {name entry : Text} {found : List String}
    (word : IsWord name) (front : skipAnnotations (skipBlanks entry) = entry)
    (read : many (oneKeyword? parameterModifiers) entry =
      (found, name ++ ':' :: ' ' :: typedText type default)) :
    readParameter? entry =
      some ⟨name, (splitNullMark type).1, (splitNullMark type).2, default.map knownDefault,
        found.contains "vararg"⟩ := by
  have behind : skipBlanks (' ' :: typedText type default) = typedText type default :=
    skipBlanks_eq_self_iff.mpr fun c head => head_ink_typedText spaced c head
  have divided := splitDefault_typedText spaced values undivided
  have filled : typedText type default ≠ [] := typedText_ne_nil spaced
  obtain ⟨c, more, same⟩ := List.exists_cons_of_ne_nil filled
  rw [same] at behind divided
  rw [readParameter?, front, parameterName?_of_many word _ read, same]
  simp only [behind, divided, spaced.collapse_eq]

end

end DeclBridge.Kotlin

namespace DeclBridge.Parameter

open Text Kotlin

/-! Entries -/

/-- The type with its null mark. -/
def markedType (parameter : Parameter) : Text :=
  parameter.type ++ if parameter.isNullable then ['?'] else []

/-- `vararg name: type? = default`, where the default is any expression. -/
def entry (parameter : Parameter) : Text :=
  (if parameter.isVararg then "vararg ".toList else []) ++ parameter.name ++ ": ".toList ++
    parameter.markedType ++ parameter.default.elim [] (" = ".toList ++ ·)

/-- What a parameter must be like for its entry to say where each part of it ends. -/
structure IsEntry (parameter : Parameter) : Prop where
  name : IsWord parameter.name
  typed : parameter.type ≠ []
  collapsed : collapse parameter.type = parameter.type
  undivided : '=' ∉ parameter.type
  unmarked : parameter.isNullable = false → parameter.type.getLast? ≠ some '?'
  default : ∀ value ∈ parameter.default, IsTrimmed value ∧ value ≠ []

variable {parameter : Parameter}

/-- The parameter as it is read, where the text of a default is known only for literals. -/
def known (parameter : Parameter) : Parameter :=
  { parameter with
    default := parameter.default.map fun value =>
      if isLiteralDefault value then value else unknownDefault }

theorem entry_eq (parameter : Parameter) : parameter.entry =
    (if parameter.isVararg then "vararg ".toList else []) ++
      (parameter.name ++ ':' :: ' ' :: typedText parameter.markedType parameter.default) := by
  simp only [entry, typedText, List.append_assoc]
  rfl

namespace IsEntry

variable (isEntry : parameter.IsEntry)
include isEntry

theorem spaced : IsSpaced parameter.markedType := by
  have plain : IsSpaced parameter.type := by
    have filled : collapse parameter.type ≠ [] := isEntry.collapsed.symm ▸ isEntry.typed
    exact isEntry.collapsed ▸ isSpaced_collapse filled
  unfold markedType
  split
  · exact plain.append (.word (by simp) (by decide))
  · rwa [List.append_nil]

theorem splitNullMark_markedType :
    splitNullMark parameter.markedType = (parameter.type, parameter.isNullable) := by
  have trimmed : trim parameter.type = parameter.type :=
    isEntry.collapsed ▸ (isPlain_collapse parameter.type).trimmed
  unfold splitNullMark markedType
  cases nullable : parameter.isNullable with
  | false => simp [isEntry.unmarked nullable]
  | true => simp [trimmed]

theorem undivided_markedType : '=' ∉ parameter.markedType := by
  unfold markedType
  split <;> simp [isEntry.undivided]

/-- The front of an entry is its name, or a word and its name. -/
theorem head_entry : ∀ c ∈ parameter.entry.head?, isWordChar c = true := by
  rw [entry_eq]
  split
  · rintro _ ⟨⟩
    decide
  · rw [List.nil_append, List.head?_append_of_ne_nil _ isEntry.name.nonempty]
    exact fun c head => isEntry.name.wordChars c (List.mem_of_mem_head? head)

theorem isTrimmed_entry : IsTrimmed parameter.entry ∧ parameter.entry ≠ [] := by
  have filled : typedText parameter.markedType parameter.default ≠ [] :=
    typedText_ne_nil isEntry.spaced
  have back := isTrimmedEnd_typedText isEntry.spaced isEntry.default
  have whole : parameter.entry =
      ((if parameter.isVararg then "vararg ".toList else []) ++ parameter.name ++ [':', ' ']) ++
        typedText parameter.markedType parameter.default := by
    rw [entry_eq]
    simp only [List.append_assoc, List.cons_append, List.nil_append]
  refine ⟨IsTrimmedEnd.isTrimmed ?_ fun c head => ?_, ?_⟩
  · rw [whole]
    exact back.append_left filled _
  · exact isBlank_of_isWordChar (isEntry.head_entry c head)
  · rw [whole]
    exact List.append_ne_nil_of_right_ne_nil _ filled

theorem readParameter?_entry : readParameter? parameter.entry = some parameter.known := by
  have front : skipAnnotations (skipBlanks parameter.entry) = parameter.entry := by
    have ink : ∀ c ∈ parameter.entry.head?, isBlank c = false :=
      fun c head => isBlank_of_isWordChar (isEntry.head_entry c head)
    rw [skipBlanks_eq_self_iff.mpr ink]
    refine skipAnnotations_eq fun sign => ?_
    exact absurd (isEntry.head_entry '@' sign) (by decide)
  have modifiers : many (oneKeyword? parameterModifiers) parameter.entry =
      (if parameter.isVararg then ["vararg"] else [],
        parameter.name ++ ':' :: ' ' :: typedText parameter.markedType parameter.default) := by
    rw [entry_eq]
    split
    · exact many_modifier isEntry.name _ (by decide : "vararg" ∈ parameterModifiers)
    · exact many_name isEntry.name _
  have values : parameter.default.map knownDefault = parameter.known.default := by
    refine Option.map_congr fun value member => ?_
    rw [knownDefault, (isEntry.default value member).1]
  rw [readParameter?_of_many isEntry.spaced isEntry.default isEntry.undivided_markedType
    isEntry.name front modifiers, isEntry.splitNullMark_markedType, values]
  cases vararg : parameter.isVararg <;> simp [known, vararg]

end IsEntry

end DeclBridge.Parameter

namespace DeclBridge.Kotlin

open Text

/-- Entries that are joined by commas are read one by one, if each closes the brackets and literals
that it opens and has no comma outside of them. -/
theorem readParameters_entries {parameters : List Parameter}
    (entries : ∀ parameter ∈ parameters, parameter.IsEntry ∧ IsSelfContained parameter.entry) :
    readParameters (commaSpaced (parameters.map Parameter.entry)) =
      parameters.map Parameter.known := by
  have selfContained : ∀ entry ∈ parameters.map Parameter.entry, IsSelfContained entry :=
    List.forall_mem_map.mpr fun parameter member => (entries parameter member).2
  have trimmed : ∀ entry ∈ parameters.map Parameter.entry, IsTrimmed entry ∧ entry ≠ [] :=
    List.forall_mem_map.mpr fun parameter member => (entries parameter member).1.isTrimmed_entry
  have read : ∀ parameter ∈ parameters,
      (readParameter? ∘ Parameter.entry) parameter = (some ∘ Parameter.known) parameter :=
    fun parameter member => (entries parameter member).1.readParameter?_entry
  rw [readParameters, splitTopLevel_commaSpaced selfContained trimmed, List.filterMap_map,
    List.filterMap_congr read, ← List.filterMap_map, List.filterMap_some]

/-- A type with a comma in brackets, an arrow in an argument, and defaults with marks of their
own. -/
theorem readParameters_entries_marks :
    let parameters : List Parameter :=
      [{ name := "ids".toList, type := "Map<String, (Int) -> Unit>".toList, isNullable := true,
          default := some "null".toList },
        { name := "val".toList, type := "String".toList, default := some "\", =\"".toList },
        { name := "rest".toList, type := "Int".toList, default := some "a == (b, c)".toList,
          isVararg := true }]
    (∀ parameter ∈ parameters, parameter.IsEntry ∧ IsSelfContained parameter.entry) ∧
      commaSpaced (parameters.map Parameter.entry) =
        ("ids: Map<String, (Int) -> Unit>? = null, val: String = \", =\", ".toList ++
          "vararg rest: Int = a == (b, c)".toList) ∧
      readParameters (commaSpaced (parameters.map Parameter.entry)) =
        [{ name := "ids".toList, type := "Map<String, (Int) -> Unit>".toList, isNullable := true,
            default := some "null".toList },
          { name := "val".toList, type := "String".toList, default := some "\", =\"".toList },
          { name := "rest".toList, type := "Int".toList, default := some "default".toList,
            isVararg := true }] := by
  -- As lists of characters the texts need not be decoded for each decision.
  repeat rw [String.toList_ofList]
  intro parameters
  have entries : ∀ parameter ∈ parameters,
      parameter.IsEntry ∧ IsSelfContained parameter.entry := by
    simp only [parameters, List.forall_mem_cons, List.not_mem_nil, false_implies, implies_true,
      and_true]
    refine ⟨⟨⟨?_, ?_, ?_, ?_, ?_, ?_⟩, ?_⟩, ⟨⟨?_, ?_, ?_, ?_, ?_, ?_⟩, ?_⟩,
      ⟨⟨?_, ?_, ?_, ?_, ?_, ?_⟩, ?_⟩⟩ <;> decide
  exact ⟨entries, by decide, (readParameters_entries entries).trans (by decide)⟩

end DeclBridge.Kotlin
