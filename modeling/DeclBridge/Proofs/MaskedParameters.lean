import DeclBridge.Proofs.MaskedLists
import DeclBridge.Proofs.ParameterLists
import DeclBridge.Proofs.StepwiseReaders

/-! Parameters of a list and of its blank copy. Where the literals neither disturb the cutting, nor
close an annotation, nor stand in a type, both lists have the same parameters but for what the
defaults say. -/

namespace DeclBridge

/-- A parameter without what its default says. -/
def Parameter.outline (parameter : Parameter) : Parameter :=
  { parameter with default := parameter.default.map fun _ => unknownDefault }

namespace Kotlin

open Text

variable {list : List Segment}

/-! Annotations -/

/-- The arguments of an annotation, if there are any. -/
private theorem readsInStep_arguments (lacks : ∀ segment ∈ list, segment.Lacks ')') :
    ReadsInStep (passing fun text => (parenthesised? text).map (·.2)) list := by
  have opening : ReadsInStep (passing (literal? "(")) list :=
    .of_stopsAt (fun quote member => stopsAt_literal? (by revert quote; decide)) list
  have whole := opening.behind fun behind within _ =>
    ReadsInStep.cut ')' (by decide) (by decide) fun segment member =>
      lacks segment (within.subset member)
  have same : (fun text => (literal? "(" text).bind
        (passing fun text => (Text.cut ')' text).map (·.2))) =
      passing fun text => (parenthesised? text).map (·.2) :=
    funext fun text => by cases found : literal? "(" text <;> simp [passing, parenthesised?, found]
  rwa [same] at whole

theorem readsInStep_annotated? (lacks : ∀ segment ∈ list, segment.Lacks ')') :
    ReadsInStep annotated? list := by
  have sign : ReadsInStep (passing (literal? "@")) list :=
    .of_stopsAt (fun quote member => stopsAt_literal? (by revert quote; decide)) list
  have name (list : List Segment) :
      ReadsInStep (run? fun c => isDottedChar c || c = ':') list :=
    .of_stopsAt (fun quote member => stopsAt_run? (by revert quote; decide)) list
  have gap (list : List Segment) : ReadsInStep (passing gap?) list :=
    .of_stopsAt (fun quote member => stopsAt_gap? (isBlank_of_mem_literalQuotes member)) list
  have ends {behind : List Segment} (within : behind <:+ list) (item : Text) :
      ReadsInStep (fun text => (some (((parenthesised? text).map (·.2)).getD text)).bind fun text =>
        (gap? text).bind fun text => some (item, text)) behind := by
    have arguments := readsInStep_arguments fun segment member =>
      lacks segment (within.subset member)
    exact arguments.optional.behind fun last _ _ => (gap last).behind fun _ _ _ => .pure item
  have whole := sign.behind fun named inside _ => (name named).bind fun item rest within _ =>
    ends (within.trans inside) item
  refine (congrArg (ReadsInStep · list) (funext fun text => ?_)).mp whole
  rw [annotated?]
  refine Option.bind_congr fun named _ => Option.bind_congr fun answer _ => ?_
  obtain ⟨found, rest⟩ := answer
  dsimp only
  cases parenthesised? rest <;> rfl

theorem readsInStep_skipAnnotations (lacks : ∀ segment ∈ list, segment.Lacks ')') :
    ReadsInStep (passing fun text => some (skipAnnotations text)) list := by
  have whole := ReadsInStep.many fun behind within =>
    readsInStep_annotated? fun segment member => lacks segment (List.IsSuffix.subset within member)
  exact whole.bind fun _ behind _ _ => .pure ()

/-! The name -/

theorem stopsAt_parameterName? {quote : Char} (member : quote ∈ literalQuotes) :
    StopsAt quote parameterName? := by
  have ink := isBlank_of_mem_literalQuotes member
  have absent : ∀ quote ∈ literalQuotes, ∀ word ∈ parameterModifiers, quote ∉ word.toList := by
    decide
  have outside : ∀ quote ∈ literalQuotes, isWordChar quote = false ∧ quote ≠ ':' := by decide
  have modifiers : StopsAt quote fun text => some (many (oneKeyword? parameterModifiers) text) :=
    (stopsAt_oneKeyword? (absent quote member) ink).many
  have word : StopsAt quote word? := stopsAt_run? (outside quote member).1
  have colon : StopsAt quote (passing (mark? ':')) := stopsAt_mark? (outside quote member).2 ink
  have single : StopsAt quote (passing (literal? ":")) :=
    stopsAt_literal? (by simpa using (outside quote member).2)
  have named (found : List String) := word.bind fun name => colon.behind (.pure (found, name))
  have modifier (found : List String) : StopsAt quote fun text =>
      found.getLast?.bind fun last =>
        (literal? ":" text).bind fun rest => some ((found.dropLast, last.toList), rest) := by
    cases found.getLast? with
    | none => exact .refused
    | some last => exact single.behind (.pure (found.dropLast, last.toList))
  refine (congrArg (StopsAt quote) (funext fun text => ?_)).mp
    (modifiers.bind fun found => (named found).or (modifier found))
  rw [parameterName?, Option.bind_some]
  dsimp only
  generalize many (oneKeyword? parameterModifiers) text = found
  cases read : word? found.2 with
  | none =>
    cases found.1.getLast? with
    | none => rfl
    | some last => cases literal? ":" found.2 <;> simp
  | some last =>
    -- no word begins at a colon, so the second way is closed here as well
    have shut : literal? ":" found.2 = none := by
      refine Option.eq_none_iff_forall_ne_some.mpr fun rest colon => ?_
      have same : found.2 = ':' :: rest := behind?_eq_some_iff.mp colon
      have refused : word? (':' :: rest) = none := rfl
      rw [same, refused] at read
      cases read
    cases mark : mark? ':' last.2 <;> cases found.1.getLast? <;> simp [shut, mark]

/-! The type -/

/-- What stands before the equals sign belongs to the type. -/
theorem mem_splitDefault {first c : Char} {before : Text} (unequal : '=' ∉ before)
    (ink : isBlank c = false) (inside : c ∈ first :: before) (more : Text) :
    c ∈ (splitDefault (first :: (before ++ more))).1 := by
  have whole : c ∈ first :: (before ++ more) := List.mem_append_left more inside
  unfold splitDefault
  split
  · next same => cases same
  · next rest same =>
    obtain ⟨rfl, rfl⟩ := List.cons.inj same
    split
    · next type d value found =>
      rw [cut_append_of_absent unequal] at found
      obtain ⟨⟨type, _⟩, -, same⟩ := Option.map_eq_some_iff.mp found
      cases same
      exact mem_trimEnd ink (List.mem_append_left type inside)
    · exact whole

theorem splitDefault_append {first : Char} {before rest : Text} (unequal : '=' ∉ before)
    (nonempty : rest ≠ []) :
    splitDefault (first :: (before ++ '=' :: rest)) =
      (trimEnd (first :: before), some (skipBlanks rest)) := by
  obtain ⟨c, value, rfl⟩ := List.exists_cons_of_ne_nil nonempty
  rw [splitDefault, cut_append unequal]

/-- Unless the type runs into a quote, the copies only differ within the default. -/
theorem splitDefault_quote (front : Text) {quote : Char} (member : quote ∈ literalQuotes)
    (filled empty : Text) :
    quote ∈ (splitDefault (front ++ quote :: filled)).1 ∨
      (splitDefault (front ++ quote :: filled)).1 = (splitDefault (front ++ quote :: empty)).1 ∧
        (splitDefault (front ++ quote :: filled)).2.isSome =
          (splitDefault (front ++ quote :: empty)).2.isSome := by
  have ink := isBlank_of_mem_literalQuotes member
  have differs : ∀ quote ∈ literalQuotes, '=' ≠ quote := by decide
  cases front with
  | nil => exact .inl (mem_splitDefault List.not_mem_nil ink (by simp) filled)
  | cons first front =>
    by_cases equal : '=' ∈ front
    · obtain ⟨before, after, rfl, unequal⟩ := List.eq_append_cons_of_mem equal
      refine .inr ?_
      simp only [List.cons_append, List.append_assoc]
      rw [splitDefault_append unequal (by simp), splitDefault_append unequal (by simp)]
      exact ⟨rfl, rfl⟩
    · refine .inl ?_
      rw [List.cons_append, List.append_cons]
      refine mem_splitDefault ?_ ink (by simp) filled
      simpa [differs quote member] using equal

/-! Whole parameters -/

theorem head?_joined (blank : Bool) (list : List Segment) :
    (joined blank list).head? = (joined false list).head? := by
  cases list with
  | nil => rfl
  | cons segment list =>
    rcases segment.blank_or_ink with ⟨c, rfl, -⟩ | ⟨c, -, ends⟩
    · rfl
    · obtain ⟨⟨behind, same⟩, -⟩ := ends blank
      obtain ⟨⟨filled, alike⟩, -⟩ := ends false
      rw [joined_cons, joined_cons, same, alike]
      rfl

/-- What is read of an entry up to its type. -/
def typed? (entry : Text) : Option ((List String × Text) × Text) :=
  (some (skipBlanks entry)).bind fun entry => (some (skipAnnotations entry)).bind fun entry =>
    (parameterName? entry).bind fun (item, rest) =>
      (some (skipBlanks rest)).bind fun rest => some (item, rest)

def parameterOf (found : List String) (name rest : Text) : Parameter :=
  let (type, value) := splitDefault rest
  let (type, isNullable) := splitNullMark (collapse type)
  ⟨name, type, isNullable, value.map knownDefault, found.contains "vararg"⟩

theorem readParameter?_eq (entry : Text) :
    readParameter? entry = (typed? entry).bind fun ((found, name), rest) =>
      if rest.isEmpty then none else some (parameterOf found name rest) := by
  rw [readParameter?, typed?, Option.bind_some, Option.bind_some]
  cases parameterName? (skipAnnotations (skipBlanks entry)) with
  | none => rfl
  | some read =>
    obtain ⟨⟨found, name⟩, rest⟩ := read
    dsimp only [Option.bind_some]
    cases skipBlanks rest with
    | nil => rfl
    | cons c rest => rfl

theorem readsInStep_typed? (lacks : (skipBlanks (joined false list)).head? = some '@' →
    ∀ segment ∈ list, segment.Lacks ')') : ReadsInStep typed? list := by
  have blanks (list : List Segment) :
      ReadsInStep (passing fun text => some (skipBlanks text)) list :=
    .of_stopsAt (fun quote member => stopsAt_skipBlanks (isBlank_of_mem_literalQuotes member)) list
  have annotations {behind : List Segment} (within : behind <:+ list)
      (same : skipBlanks (joined false list) = joined false behind) :
      ReadsInStep (passing fun text => some (skipAnnotations text)) behind := by
    by_cases marked : (joined false behind).head? = some '@'
    · rw [same] at lacks
      exact readsInStep_skipAnnotations fun segment member =>
        lacks marked segment (within.subset member)
    · refine ⟨some ((), behind), by rintro _ _ ⟨⟩; exact List.suffix_rfl, fun blank => ?_⟩
      rw [← head?_joined blank] at marked
      rw [passing, skipAnnotations_eq marked]
      rfl
  have name (list : List Segment) : ReadsInStep parameterName? list :=
    .of_stopsAt (fun _ => stopsAt_parameterName?) list
  exact (blanks list).behind fun entry within same =>
    (annotations within (Option.some.inj same)).behind fun named _ _ =>
      (name named).bind fun item rest _ _ => (blanks rest).behind fun _ _ _ => .pure item

/-- Unless the type runs into a literal, both copies give the same parameter but for what its
default says. -/
theorem parameterOf_joined {found : List String} {name : Text}
    (unquoted : ∀ quote ∈ literalQuotes,
      quote ∉ (parameterOf found name (joined false list)).type) :
    (parameterOf found name (joined true list)).outline =
      (parameterOf found name (joined false list)).outline := by
  obtain ⟨front, behind, rfl, -, ends⟩ := exists_unquoted list
  rcases ends with rfl | ⟨quote, member, ends⟩
  · simp only [List.append_nil, joined_plain]
  · obtain ⟨filled, same⟩ := ends false
    obtain ⟨empty, alike⟩ := ends true
    simp only [joined_append, joined_plain, same, alike] at unquoted ⊢
    have ink := isBlank_of_mem_literalQuotes member
    have differs : ∀ quote ∈ literalQuotes, quote ≠ '?' := by decide
    rcases splitDefault_quote front member filled empty with inside | ⟨type, value⟩
    · exact absurd (mem_splitNullMark ink (differs quote member) (mem_collapse ink inside))
        (unquoted quote member)
    · have default : ((splitDefault (front ++ quote :: empty)).2.map knownDefault).map
            (fun _ => unknownDefault) =
          ((splitDefault (front ++ quote :: filled)).2.map knownDefault).map
            fun _ => unknownDefault := by
        cases first : (splitDefault (front ++ quote :: filled)).2 <;>
          cases second : (splitDefault (front ++ quote :: empty)).2 <;> simp_all
      simp only [parameterOf, Parameter.outline, type, default]

theorem outline_readParameter? (lacks : (skipBlanks (joined false list)).head? = some '@' →
      ∀ segment ∈ list, segment.Lacks ')')
    (unquoted : ∀ parameter ∈ readParameter? (joined false list),
      ∀ quote ∈ literalQuotes, quote ∉ parameter.type) :
    (readParameter? (joined true list)).map Parameter.outline =
      (readParameter? (joined false list)).map Parameter.outline := by
  obtain ⟨answer, -, same⟩ := readsInStep_typed? lacks
  rw [readParameter?_eq, same] at unquoted ⊢
  rw [readParameter?_eq, same]
  cases answer with
  | none => rfl
  | some found =>
    obtain ⟨⟨found, name⟩, behind⟩ := found
    simp only [Option.map_some, Option.bind_some, isEmpty_joined] at unquoted ⊢
    split
    · rfl
    · next nonempty =>
      rw [if_neg nonempty] at unquoted
      exact congrArg some (parameterOf_joined (unquoted _ rfl))

/-! Whole lists -/

/-- Literals have no say in how the list is read: they are passed where it is cut, none closes the
arguments of an annotation, and none stands in a type. -/
structure HasInertLiterals (text : Text) : Prop where
  passed : Nesting.start.Passes (segments text)
  annotated : ∀ entry ∈ splitTopLevel text, entry.head? = some '@' →
    ∀ segment ∈ segments entry, segment.Lacks ')'
  typed : ∀ parameter ∈ readParameters text, ∀ quote ∈ literalQuotes, quote ∉ parameter.type

instance (text : Text) : Decidable (HasInertLiterals text) :=
  decidable_of_iff
    (Nesting.start.Passes (segments text) ∧
      (∀ entry ∈ splitTopLevel text, entry.head? = some '@' →
        ∀ segment ∈ segments entry, segment.Lacks ')') ∧
      ∀ parameter ∈ readParameters text, ∀ quote ∈ literalQuotes, quote ∉ parameter.type)
    ⟨fun ⟨passed, annotated, typed⟩ => ⟨passed, annotated, typed⟩,
      fun inert => ⟨inert.passed, inert.annotated, inert.typed⟩⟩

/-- Blanking inert literals leaves the parameters as they are, but for what the defaults say. -/
theorem readParameters_maskLiterals {text : Text} (inert : HasInertLiterals text) :
    (readParameters (maskLiterals text)).map Parameter.outline =
      (readParameters text).map Parameter.outline := by
  rw [readParameters, readParameters, splitTopLevel_maskLiterals inert.passed, List.filterMap_map,
    List.map_filterMap, List.map_filterMap]
  refine List.filterMap_congr fun entry member => ?_
  have whole := joined_segments entry
  have trimmed : skipBlanks entry = entry :=
    skipBlanks_eq_self_iff.mpr fun c head =>
      (isTrimmed_of_mem_splitTopLevel member).1.head_ink head
  have same := @outline_readParameter? (segments entry)
  rw [whole, trimmed, ← maskLiterals_eq_joined] at same
  refine same (inert.annotated entry member) fun parameter read => ?_
  exact inert.typed parameter (List.mem_filterMap.mpr ⟨entry, member, read⟩)

theorem readParameters_maskLiterals_annotated :
    let text :=
      "@Query(\"a, b\") id: Int, vararg names: String = \"x, (y\", mark: Char? = ';'".toList
    HasInertLiterals text ∧
      (readParameters (maskLiterals text)).map Parameter.outline =
        (readParameters text).map Parameter.outline ∧
      (readParameters text).map (·.name) = ["id", "names", "mark"].map String.toList := by
  intro text
  have inert : HasInertLiterals text := by decide +kernel
  exact ⟨inert, readParameters_maskLiterals inert, by decide +kernel⟩

/-- A bracket or a quote in a character literal, a quote in a raw string, and a parenthesis in the
argument of an annotation each lose a parameter. -/
theorem readParameters_maskLiterals_marks :
    let names (text : Text) := (readParameters text).map (·.name)
    let bracket := "a: Char = '(', b: Int".toList
    let quote := "a: Char = '\"', b: Int".toList
    let raw := "a: String = \"\"\"x\"y\"\"\", b: Int".toList
    let argument := "@Query(\"a)b\") a: Int, b: Int".toList
    (names bracket = [['a']] ∧ names (maskLiterals bracket) = [['a'], ['b']]) ∧
      (names quote = [['a']] ∧ names (maskLiterals quote) = [['a'], ['b']]) ∧
      (names raw = [['a']] ∧ names (maskLiterals raw) = [['a'], ['b']]) ∧
      names argument = [['b']] ∧ names (maskLiterals argument) = [['a'], ['b']] := by
  decide +kernel

end Kotlin
end DeclBridge
