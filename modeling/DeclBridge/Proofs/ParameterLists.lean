import DeclBridge.Proofs.MaskedSources
import DeclBridge.Proofs.ParameterEntries

/-! Parameter lists are balanced whether or not their literals are blanked, and reading one gives
back every parameter. -/

namespace DeclBridge.Kotlin.Syntax

open Text

/-! Brackets and commas -/

private theorem unmarked_of_isBareChar {c : Char} (bare : isBareChar c = true) :
    c ∉ Nesting.marks ∧ c ≠ ',' := by
  have marks : ∀ mark ∈ ',' :: Nesting.marks, isBareChar mark = false := by decide
  constructor
  · intro member
    exact absurd bare (by simp [marks c (List.mem_cons_of_mem _ member)])
  · rintro rfl
    exact absurd bare (by simp [marks])

theorem balanced_of_isBare {text : Text} (bare : IsBare text) : Balanced false text := by
  cases bare with
  | unsigned _ bare => exact .of_plain fun c inside => unmarked_of_isBareChar (bare c inside)
  | @signed text nonempty bare =>
    obtain ⟨c, more, rfl⟩ := List.exists_cons_of_ne_nil nonempty
    obtain ⟨first, others⟩ := List.forall_mem_cons.mp bare
    obtain ⟨unmarked, comma⟩ := unmarked_of_isBareChar first
    refine .hyphen unmarked comma (.of_plain fun c inside => ?_)
    exact unmarked_of_isBareChar (others c inside)

theorem Literal.balanced (literal : Literal) : Balanced false literal.text := by
  rcases quoted_or_bare literal.isLiteral literal.singleLine with ⟨inner, same, quoted⟩ | bare
  · rw [same]
    exact .quoted quoted .nil
  · exact balanced_of_isBare bare

theorem Literal.balanced_masked (literal : Literal) : Balanced false literal.masked := by
  have blanks (count : Nat) : IsQuoted (List.replicate count ' ') := by
    induction count with
    | zero => exact .nil
    | succ count ih =>
      rw [List.replicate_succ]
      exact .plain (by decide) (by decide) (by decide) ih
  rcases literal.blank_or_bare with ⟨count, same⟩ | bare
  · rw [same]
    exact .quoted (blanks count) .nil
  · exact balanced_of_isBare bare

theorem Parameter.balanced_front (parameter : Parameter) : Balanced false parameter.front := by
  have vararg : Balanced false (if parameter.isVararg then "vararg ".toList else []) := by
    refine .of_plain ?_
    split <;> decide
  have name : Balanced false parameter.name.text := (Spelling.word parameter.name).balanced
  have colon : Balanced false ": ".toList := .of_plain (by decide)
  exact ((vararg.append name).append colon).append parameter.type.spelling.balanced

theorem Parameter.balanced {literal : Literal → Text}
    (balanced : ∀ other, Balanced false (literal other)) (parameter : Parameter) :
    Balanced false (parameter.print literal) := by
  refine parameter.balanced_front.append ?_
  cases parameter.default with
  | none => exact .nil
  | some other =>
    have mark : Balanced false " = ".toList := .of_plain (by decide)
    exact mark.append (balanced other)

theorem Function.balanced_printParameters (function : Function) :
    Balanced true (function.printParameters Literal.masked) := by
  refine balanced_commaSpaced (List.forall_mem_map.mpr fun parameter _ => ?_)
  exact parameter.balanced Literal.balanced_masked

/-! Reading a parameter -/

theorem Literal.isTrimmed (literal : Literal) : IsTrimmed literal.text ∧ literal.text ≠ [] := by
  rcases quoted_or_bare literal.isLiteral literal.singleLine with ⟨inner, same, -⟩ | bare
  · rw [same]
    refine ⟨isTrimmed_iff.mpr ⟨?_, ?_⟩, by simp⟩
    · rintro _ ⟨⟩
      rfl
    · rw [List.getLast?_concat]
      rintro _ ⟨⟩
      rfl
  · exact ⟨isTrimmed_of_ink bare.ink, bare.ne_nil⟩

theorem Literal.knownDefault_text (literal : Literal) :
    knownDefault literal.text = literal.text := by
  rw [knownDefault, literal.isTrimmed.1, if_pos literal.isLiteral]

namespace Parameter

variable (parameter : Parameter)

/-- What follows the colon. -/
def typed : Text :=
  parameter.type.text ++ parameter.default.elim [] (" = ".toList ++ ·.text)

theorem print_text : parameter.print (·.text) =
    (if parameter.isVararg then "vararg ".toList else []) ++
      (parameter.name.text ++ ':' :: ' ' :: parameter.typed) := by
  rw [print, front, typed, List.append_assoc, List.append_assoc, List.append_assoc]
  rfl

theorem head_ink_print : ∀ c ∈ (parameter.print (·.text)).head?, isBlank c = false := by
  rw [print_text]
  cases parameter.isVararg with
  | false => exact parameter.name.head_ink _
  | true =>
    rintro _ ⟨⟩
    rfl

theorem typed_eq : parameter.typed =
    typedText parameter.type.text (parameter.default.map (·.text)) := by
  rw [typed, typedText]
  cases parameter.default <;> rfl

theorem isTrimmed_default : ∀ value ∈ parameter.default.map (·.text),
    IsTrimmed value ∧ value ≠ [] := by
  intro value member
  obtain ⟨literal, -, rfl⟩ := Option.map_eq_some_iff.mp member
  exact literal.isTrimmed

theorem isTrimmed_print : IsTrimmed (parameter.print (·.text)) ∧ parameter.print (·.text) ≠ [] := by
  have whole : parameter.print (·.text) = ((if parameter.isVararg then "vararg ".toList else []) ++
      parameter.name.text ++ [':', ' ']) ++ parameter.typed := by
    rw [print_text]
    simp only [List.append_assoc, List.cons_append, List.nil_append]
  have spaced := parameter.type.spelling.spaced
  have back := isTrimmedEnd_typedText spaced parameter.isTrimmed_default
  have filled : typedText parameter.type.text (parameter.default.map (·.text)) ≠ [] :=
    typedText_ne_nil spaced
  rw [whole, typed_eq]
  refine ⟨IsTrimmedEnd.isTrimmed (back.append_left filled _) ?_,
    List.append_ne_nil_of_right_ne_nil _ filled⟩
  rw [← typed_eq, ← whole]
  exact parameter.head_ink_print

/-- Whatever the modifiers are, name, type and default are read as they were written. -/
theorem readParameter?_of_many {entry : Text} {found : List String}
    (front : skipAnnotations (skipBlanks entry) = entry)
    (read : many (oneKeyword? parameterModifiers) entry =
      (found, parameter.name.text ++ ':' :: ' ' :: parameter.typed)) :
    readParameter? entry =
      some { parameter.declared with isVararg := found.contains "vararg" } := by
  have undivided : '=' ∉ parameter.type.text := parameter.type.spelling.not_mem (by decide)
  have known : knownDefault ∘ (fun literal : Literal => literal.text) = (·.text) := by
    funext literal
    exact literal.knownDefault_text
  rw [typed_eq] at read
  rw [Kotlin.readParameter?_of_many parameter.type.spelling.spaced parameter.isTrimmed_default
    undivided parameter.name.word front read, parameter.type.splitNullMark_text, Option.map_map,
    known, declared]

theorem readParameter?_print :
    readParameter? (parameter.print (·.text)) = some parameter.declared := by
  have front : skipAnnotations (skipBlanks (parameter.print (·.text))) =
      parameter.print (·.text) := by
    have unmarked : (parameter.print (·.text)).head? ≠ some '@' := by
      rw [print_text]
      cases parameter.isVararg with
      | false =>
        rw [if_neg (by simp), List.nil_append,
          List.head?_append_of_ne_nil _ parameter.name.word.nonempty]
        intro head
        exact absurd (parameter.name.word.wordChars '@' (List.mem_of_head? head)) (by decide)
      | true => exact fun head => absurd (Option.some.inj head) (by decide)
    rw [skipBlanks_eq_self_iff.mpr parameter.head_ink_print, skipAnnotations_eq unmarked]
  cases vararg : parameter.isVararg with
  | false =>
    have modifiers : many (oneKeyword? parameterModifiers) (parameter.print (·.text)) =
        ([], parameter.name.text ++ ':' :: ' ' :: parameter.typed) := by
      rw [print_text, vararg]
      exact many_name parameter.name.word _
    rw [parameter.readParameter?_of_many front modifiers, declared, vararg]
    rfl
  | true =>
    have modifiers : many (oneKeyword? parameterModifiers) (parameter.print (·.text)) =
        (["vararg"], parameter.name.text ++ ':' :: ' ' :: parameter.typed) := by
      have member : "vararg" ∈ parameterModifiers := by decide
      rw [print_text, vararg]
      exact many_modifier parameter.name.word _ member
    rw [parameter.readParameter?_of_many front modifiers, declared, vararg]
    rfl

end Parameter

theorem Function.readParameters_print (function : Function) :
    readParameters (function.printParameters (·.text)) = function.parameters.map (·.declared) := by
  have selfContained : ∀ entry ∈ function.parameters.map (·.print (·.text)),
      IsSelfContained entry :=
    List.forall_mem_map.mpr fun parameter _ =>
      (parameter.balanced Literal.balanced).isSelfContained
  have trimmed : ∀ entry ∈ function.parameters.map (·.print (·.text)),
      IsTrimmed entry ∧ entry ≠ [] :=
    List.forall_mem_map.mpr fun parameter _ => parameter.isTrimmed_print
  rw [readParameters, printParameters, splitTopLevel_commaSpaced selfContained trimmed,
    List.filterMap_map]
  have read : readParameter? ∘ (fun parameter : Parameter => parameter.print (·.text)) =
      some ∘ Parameter.declared := by
    funext parameter
    exact parameter.readParameter?_print
  rw [read, ← List.filterMap_map, List.filterMap_some]

end DeclBridge.Kotlin.Syntax
