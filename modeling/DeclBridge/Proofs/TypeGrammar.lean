import DeclBridge.Proofs.BracketStacks
import DeclBridge.Proofs.TypeTexts

/-! What types look like, and that reading one takes over all of it. Only the outline of a type is
fixed: between brackets anything may stand that closes what it opens. -/

namespace DeclBridge.Kotlin

open Text

/-- Names with or without arguments, types in parentheses, and function types. Each may have a null
mark, and behind the arrow of a function type the result may have one of its own. -/
inductive IsTypeText : (isMarked : Bool) → Text → Prop where
  | named {name} (nonempty : name ≠ []) (dotted : ∀ c ∈ name, isDottedChar c = true) :
    IsTypeText false name
  | generic {name arguments} (nonempty : name ≠ []) (dotted : ∀ c ∈ name, isDottedChar c = true)
    (enclosed : IsEnclosed arguments) : IsTypeText false (name ++ '<' :: arguments ++ ['>'])
  | grouped {inner} (enclosed : IsEnclosed inner) : IsTypeText false ('(' :: inner ++ [')'])
  | function {isMarked parameters before after result} (enclosed : IsEnclosed parameters)
    (leading : ∀ c ∈ before, isBlank c = true) (trailing : ∀ c ∈ after, isBlank c = true)
    (type : IsTypeText isMarked result) :
    IsTypeText false ('(' :: parameters ++ ')' :: before ++ "->".toList ++ after ++ result)
  | marked {text} (type : IsTypeText false text) : IsTypeText true (text ++ ['?'])

/-- What follows goes on with no type. -/
def EndsType (rest : Text) : Prop :=
  ∀ c ∈ rest.head?, isDottedChar c = false ∧ c ≠ '<' ∧ c ≠ '?'

/-- What follows makes no function type of one in parentheses. -/
def BeginsArrow (rest : Text) : Prop :=
  "->".toList <+: skipBlanks rest

instance (rest : Text) : Decidable (BeginsArrow rest) :=
  inferInstanceAs (Decidable (_ <+: _))

theorem not_beginsArrow_cons {c : Char} {rest : Text} (ink : isBlank c = false)
    (unhyphened : c ≠ '-') : ¬BeginsArrow (c :: rest) := by
  have kept : skipBlanks (c :: rest) = c :: rest :=
    skipBlanks_eq_self_iff.mpr (by rintro _ ⟨⟩; exact ink)
  rintro ⟨more, same⟩
  rw [kept] at same
  exact unhyphened (List.cons.inj same).1.symm

/-! Null marks -/

theorem skipNullMark_replicate (count : Nat) {rest : Text} (ends : EndsType rest) :
    skipNullMark (List.replicate count '?' ++ rest) = List.replicate (count - 1) '?' ++ rest := by
  cases count with
  | zero =>
    unfold skipNullMark
    split
    · next more same =>
      have differs := (ends '?' (by rw [show rest = _ from same]; rfl)).2.2
      exact absurd rfl differs
    · rfl
  | succ count => rw [List.replicate_succ]; rfl

/-- Marks and what ends a type are not part of a name. -/
theorem undotted_head (count : Nat) {rest : Text} (ends : EndsType rest) :
    ∀ c ∈ (List.replicate count '?' ++ rest).head?, isDottedChar c = false ∧ c ≠ '<' := by
  cases count with
  | zero => exact fun c head => ⟨(ends c head).1, (ends c head).2.1⟩
  | succ count =>
    rw [List.replicate_succ]
    rintro _ ⟨⟩
    decide

/-! Arrows -/

theorem afterArrow?_eq_none_iff {text : Text} : afterArrow? text = none ↔ ¬BeginsArrow text := by
  rw [afterArrow?, Option.map_eq_none_iff]
  constructor
  · rintro refused ⟨rest, same⟩
    have found := literal?_append "->" rest
    rw [same, refused] at found
    cases found
  · intro unarrowed
    cases found : literal? "->" (skipBlanks text) with
    | none => rfl
    | some rest => exact absurd ⟨rest, (behind?_eq_some_iff.mp found).symm⟩ unarrowed

theorem afterArrow?_append {before after result : Text} (leading : ∀ c ∈ before, isBlank c = true)
    (trailing : ∀ c ∈ after, isBlank c = true) (ink : ∀ c ∈ result.head?, isBlank c = false) :
    afterArrow? (before ++ "->".toList ++ after ++ result) = some result := by
  have lead : skipBlanks (before ++ ("->".toList ++ (after ++ result))) =
      "->".toList ++ (after ++ result) := by
    rw [skipBlanks, List.dropWhile_append_of_pos leading]
    rfl
  have behind : skipBlanks (after ++ result) = result := by
    rw [skipBlanks, List.dropWhile_append_of_pos trailing]
    exact skipBlanks_eq_self_iff.mpr ink
  rw [afterArrow?, List.append_assoc, List.append_assoc, lead, literal?_append, Option.map_some,
    behind]

/-- The text behind an arrow and a result type, both of which may be missing. -/
def behindResult (text : Text) : Text :=
  ((afterArrow? text).map fun result => (afterType? result).getD result).getD text

theorem afterType?_round (parameters : Text) : afterType? ('(' :: parameters) =
    (Bracket.round.inside parameters).map fun (_, after) => skipNullMark (behindResult after) := by
  rw [afterType?]
  split
  · next closed => rw [closed, Option.map_none]
  · next closed =>
    rw [closed, Option.map_some]
    split
    · next arrow => simp [behindResult, arrow]
    · next arrow => simp [behindResult, arrow]

/-- Parentheses are read together with the function type they may begin. -/
theorem IsEnclosed.afterType?_round {inner : Text} (enclosed : IsEnclosed inner) (rest : Text) :
    afterType? ('(' :: (inner ++ ')' :: rest)) = some (skipNullMark (behindResult rest)) := by
  have closed := enclosed.inside .round rest
  rw [Bracket.closer] at closed
  rw [Kotlin.afterType?_round, closed, Option.map_some]

theorem behindResult_of_not_beginsArrow {text : Text} (unarrowed : ¬BeginsArrow text) :
    behindResult text = text := by
  rw [behindResult, afterArrow?_eq_none_iff.mpr unarrowed]
  rfl

theorem behindResult_append {before after result rest : Text}
    (leading : ∀ c ∈ before, isBlank c = true) (trailing : ∀ c ∈ after, isBlank c = true)
    (read : afterType? result = some rest) :
    behindResult (before ++ "->".toList ++ after ++ result) = rest := by
  obtain ⟨c, more, rfl, ink, -⟩ := exists_of_afterType? read
  have arrow : afterArrow? (before ++ "->".toList ++ after ++ c :: more) = some (c :: more) := by
    refine afterArrow?_append leading trailing ?_
    rintro _ ⟨⟩
    exact ink
  rw [behindResult, arrow, Option.map_some, read]
  rfl

/-! Named types -/

theorem afterType?_named {text : Text} (round : ∀ rest, text ≠ '(' :: rest) :
    afterType? text = afterNamedType? text := by
  rw [afterType?]
  exact round

section

variable {name : Text} (nonempty : name ≠ []) (dotted : ∀ c ∈ name, isDottedChar c = true)
include nonempty dotted

/-- What begins with a name is read as a named type. -/
theorem afterType?_name (rest : Text) :
    afterType? (name ++ rest) = afterNamedType? (name ++ rest) := by
  refine afterType?_named fun more same => ?_
  obtain ⟨c, others, rfl⟩ := List.exists_cons_of_ne_nil nonempty
  have head := dotted c (by simp)
  rw [(List.cons.inj same).1] at head
  exact absurd head (by decide)

theorem afterNamedType?_plain {rest : Text}
    (ends : ∀ c ∈ rest.head?, isDottedChar c = false ∧ c ≠ '<') :
    afterNamedType? (name ++ rest) = some (skipNullMark rest) := by
  have named : dotted? (name ++ rest) = some (name, rest) :=
    run?_append nonempty dotted fun c head => (ends c head).1
  simp only [afterNamedType?, named, Option.bind_eq_bind, Option.bind_some]
  split
  · next more same =>
    have behind : rest = '<' :: more := (Prod.mk.inj same).2
    rw [behind] at ends
    exact absurd rfl (ends '<' rfl).2
  · next same =>
    cases same
    rfl

theorem afterNamedType?_generic {arguments inner rest : Text}
    (closed : Bracket.angle.inside arguments = some (inner, rest)) :
    afterNamedType? (name ++ '<' :: arguments) = some (skipNullMark rest) := by
  have named : dotted? (name ++ '<' :: arguments) = some (name, '<' :: arguments) :=
    run?_append nonempty dotted (by rintro _ ⟨⟩; decide)
  simp [afterNamedType?, named, closed]

end

namespace IsTypeText

variable {isMarked : Bool} {text : Text}

/-- Reading a type takes all of its null marks, and as many more as it could have had. -/
theorem exists_slack (type : IsTypeText isMarked text) :
    ∃ slack, (isMarked = false → 0 < slack) ∧
      ∀ count rest, EndsType rest →
        (text.getLast? = some ')' → ¬BeginsArrow (List.replicate count '?' ++ rest)) →
        afterType? (text ++ (List.replicate count '?' ++ rest)) =
          some (List.replicate (count - slack) '?' ++ rest) := by
  induction type with
  | @named name nonempty dotted =>
    refine ⟨1, by simp, fun count rest ends _ => ?_⟩
    rw [afterType?_name nonempty dotted,
      afterNamedType?_plain nonempty dotted (undotted_head count ends),
      skipNullMark_replicate count ends]
  | @generic name arguments nonempty dotted enclosed =>
    refine ⟨1, by simp, fun count rest ends _ => ?_⟩
    have closed := enclosed.inside .angle (List.replicate count '?' ++ rest)
    have read := afterNamedType?_generic nonempty dotted closed
    rw [skipNullMark_replicate count ends, ← afterType?_name nonempty dotted] at read
    simpa [Bracket.closer] using read
  | @grouped inner enclosed =>
    refine ⟨1, by simp, fun count rest ends unarrowed => ?_⟩
    have last : ('(' :: inner ++ [')']).getLast? = some ')' := List.getLast?_concat
    have read := enclosed.afterType?_round (List.replicate count '?' ++ rest)
    rw [behindResult_of_not_beginsArrow (unarrowed last), skipNullMark_replicate count ends] at read
    simpa using read
  | @function isMarked parameters before after result enclosed leading trailing type ih =>
    -- Behind the result the function type may have a mark of its own.
    obtain ⟨slack, -, read⟩ := ih
    refine ⟨slack + 1, by simp, fun count rest ends unarrowed => ?_⟩
    have inner := read count rest ends fun last => unarrowed (by
      rw [List.getLast?_append, last, Option.some_or])
    have outer := enclosed.afterType?_round (before ++ "->".toList ++ after ++
      (result ++ (List.replicate count '?' ++ rest)))
    rw [behindResult_append leading trailing inner, skipNullMark_replicate _ ends,
      Nat.sub_sub] at outer
    simpa using outer
  | @marked text type ih =>
    obtain ⟨slack, positive, read⟩ := ih
    refine ⟨slack - 1, by simp, fun count rest ends _ => ?_⟩
    have own : count + 1 - slack = count - (slack - 1) := by
      have room := positive rfl
      omega
    have more := read (count + 1) rest ends fun _ => by
      rw [List.replicate_succ]
      exact not_beginsArrow_cons (by decide) (by decide)
    rw [own] at more
    simpa [List.replicate_succ] using more

theorem afterType?_append (type : IsTypeText isMarked text) {rest : Text} (ends : EndsType rest)
    (unarrowed : text.getLast? = some ')' → ¬BeginsArrow rest) :
    afterType? (text ++ rest) = some rest := by
  obtain ⟨slack, -, read⟩ := type.exists_slack
  simpa using read 0 rest ends unarrowed

/-- A type is read to its end, without the spaces and tabs before it. -/
theorem readType?_append (type : IsTypeText isMarked text) {blanks rest : Text}
    (blank : ∀ c ∈ blanks, c = ' ' ∨ c = '\t') (ends : EndsType rest)
    (unarrowed : text.getLast? = some ')' → ¬BeginsArrow rest) :
    readType? (blanks ++ (text ++ rest)) = some (text, rest) := by
  have behind := type.afterType?_append ends unarrowed
  obtain ⟨c, more, whole, ink, -⟩ := exists_of_afterType? behind
  have front : (blanks ++ (text ++ rest)).dropWhile (fun c => c = ' ' || c = '\t') =
      text ++ rest := by
    rw [List.dropWhile_append_of_pos fun c inside => by simpa using blank c inside, whole,
      List.dropWhile_cons_of_neg]
    rw [Bool.or_eq_true, decide_eq_true_eq, decide_eq_true_eq]
    rintro (rfl | rfl) <;> exact absurd ink (by decide)
  simp [readType?, front, behind]

end IsTypeText

/-- Reading a type anywhere in a text finds exactly the type, and the offset behind it. -/
theorem typeAt_typeText {isMarked : Bool} {type : Text} (isType : IsTypeText isMarked type)
    (before : Text) {blanks : Text} (blank : ∀ c ∈ blanks, c = ' ' ∨ c = '\t') {rest : Text}
    (ends : EndsType rest) (unarrowed : type.getLast? = some ')' → ¬BeginsArrow rest) :
    typeAt (before ++ blanks ++ type ++ rest) before.length =
      (some type, (before ++ blanks ++ type).length) := by
  have behind : (before ++ blanks ++ type ++ rest).drop before.length =
      blanks ++ (type ++ rest) := by
    simp
  have offset : (before ++ blanks ++ type ++ rest).length - rest.length =
      (before ++ blanks ++ type).length := by
    rw [List.length_append, Nat.add_sub_cancel]
  rw [typeAt, behind, isType.readType?_append blank ends unarrowed]
  exact congrArg (some type, ·) offset

/-- A function type from a function to one in parentheses, behind a colon and in front of a body. -/
theorem typeAt_typeText_function :
    typeAt "fun f():\t ((K) -> Map<K, V>, \">\") -> (V) = g".toList 8 =
      (some "((K) -> Map<K, V>, \">\") -> (V)".toList, 40) := by
  have parameters : IsEnclosed "(K) -> Map<K, V>, \">\"".toList := ⟨by decide, by decide⟩
  have inner : IsEnclosed ['V'] := ⟨by decide, by decide⟩
  have blank : ∀ c ∈ [' '], isBlank c = true := by decide
  have blanks : ∀ c ∈ ['\t', ' '], c = ' ' ∨ c = '\t' := by decide
  have ends : EndsType " = g".toList := by
    rintro _ ⟨⟩
    decide
  -- As lists of characters the texts are compared without being decoded.
  rw [String.toList_ofList] at parameters ends
  repeat rw [String.toList_ofList]
  exact typeAt_typeText (.function parameters blank blank (.grouped inner)) "fun f():".toList blanks
    ends fun _ => by decide

end DeclBridge.Kotlin
