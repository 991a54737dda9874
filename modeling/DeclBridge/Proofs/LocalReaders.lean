import DeclBridge.Kotlin.Header
import DeclBridge.Kotlin.TypeText
import DeclBridge.Proofs.Readers

/-! Readers that a mark stops. They find the same whatever stands behind the mark, and so do all
readers that are put together from them. The readers of headers that follow no brackets are of this
kind. -/

namespace DeclBridge.Text

/-- A reader that goes on up to the mark at most. -/
structure StopsAt (mark : Char) (read : Text → Option (α × Text)) : Prop where
  append : ∀ text rest, mark ∉ text → read (text ++ mark :: rest) =
    (read text).map fun (found, behind) => (found, behind ++ mark :: rest)
  suffix : ∀ text found behind, read text = some (found, behind) → behind <:+ text

/-- A reader that finds nothing but the place to read on from. -/
def passing (skip : Text → Option Text) (text : Text) : Option (Unit × Text) :=
  (skip text).map ((), ·)

namespace StopsAt

variable {mark : Char}

theorem pure (item : α) : StopsAt mark fun text => some (item, text) where
  append _ _ _ := rfl
  suffix text _ behind read := by
    obtain ⟨-, rfl⟩ := Prod.mk.inj (Option.some.inj read)
    exact List.suffix_rfl

theorem stay : StopsAt mark (passing some) :=
  .pure ()

theorem refused : StopsAt mark fun _ => (none : Option (α × Text)) where
  append _ _ _ := rfl
  suffix _ _ _ read := by cases read

theorem bind {first : Text → Option (α × Text)} {next : α → Text → Option (β × Text)}
    (stops : StopsAt mark first) (others : ∀ item, StopsAt mark (next item)) :
    StopsAt mark fun text => (first text).bind fun (item, rest) => next item rest where
  append text rest absent := by
    dsimp only
    rw [stops.append text rest absent]
    cases read : first text with
    | none => rfl
    | some found =>
      obtain ⟨item, behind⟩ := found
      have inside : mark ∉ behind := fun member =>
        absent ((stops.suffix _ _ _ read).subset member)
      exact (others item).append behind rest inside
  suffix text found behind read := by
    obtain ⟨⟨item, middle⟩, begun, read⟩ := Option.bind_eq_some_iff.mp read
    exact ((others item).suffix _ _ _ read).trans (stops.suffix _ _ _ begun)

/-- Reading on from where another reader stops. -/
theorem behind {skip : Text → Option Text} {read : Text → Option (α × Text)}
    (stops : StopsAt mark (passing skip)) (reads : StopsAt mark read) :
    StopsAt mark fun text => (skip text).bind read := by
  have whole := stops.bind fun _ => reads
  have same : (fun text => (passing skip text).bind fun (_, rest) => read rest) =
      fun text => (skip text).bind read :=
    funext fun text => by cases found : skip text <;> simp [passing, found]
  rwa [same] at whole

theorem passing_bind {first : Text → Option (α × Text)} {next : α → Text → Option Text}
    (stops : StopsAt mark first) (others : ∀ item, StopsAt mark (passing (next item))) :
    StopsAt mark (passing fun text => (first text).bind fun (item, rest) => next item rest) := by
  have whole := stops.bind others
  have same : (fun text => (first text).bind fun (item, rest) => passing (next item) rest) =
      passing fun text => (first text).bind fun (item, rest) => next item rest :=
    funext fun text => by cases found : first text <;> simp [passing, found]
  rwa [same] at whole

theorem passing_behind {first second : Text → Option Text} (stops : StopsAt mark (passing first))
    (others : StopsAt mark (passing second)) :
    StopsAt mark (passing fun text => (first text).bind second) := by
  have whole := stops.behind others
  have same : (fun text => (first text).bind (passing second)) =
      passing fun text => (first text).bind second :=
    funext fun text => by cases found : first text <;> simp [passing, found]
  rwa [same] at whole

theorem or {first second : Text → Option (α × Text)} (stops : StopsAt mark first)
    (others : StopsAt mark second) : StopsAt mark fun text => (first text).or (second text) where
  append text rest absent := by
    dsimp only
    rw [stops.append text rest absent, others.append text rest absent, Option.map_or]
  suffix text found behind read := by
    rcases Option.or_eq_some_iff.mp read with read | ⟨-, read⟩
    · exact stops.suffix _ _ _ read
    · exact others.suffix _ _ _ read

/-- What may be missing is passed over if it is there. -/
theorem optional {skip : Text → Option Text} (stops : StopsAt mark (passing skip)) :
    StopsAt mark fun text => some ((skip text).isSome, (skip text).getD text) where
  append text rest absent := by
    have same := stops.append text rest absent
    cases read : skip text with
    | none =>
      have refused : skip (text ++ mark :: rest) = none := by simpa [passing, read] using same
      simp [refused]
    | some behind =>
      have found : skip (text ++ mark :: rest) = some (behind ++ mark :: rest) := by
        simpa [passing, read] using same
      simp [found]
  suffix text found behind read := by
    obtain ⟨-, rfl⟩ := Prod.mk.inj (Option.some.inj read)
    cases begun : skip text with
    | none => exact List.suffix_rfl
    | some last => exact stops.suffix text () last (by simp [passing, begun])

end StopsAt

/-! Single steps -/

section

variable {mark : Char}

theorem takeWhile_append_mark {member : Char → Bool} (outside : member mark = false)
    (text rest : Text) : (text ++ mark :: rest).takeWhile member = text.takeWhile member := by
  induction text with
  | nil => simp [outside]
  | cons c text ih => simp [List.takeWhile_cons, ih]

theorem dropWhile_append_mark {member : Char → Bool} (outside : member mark = false)
    (text rest : Text) :
    (text ++ mark :: rest).dropWhile member = text.dropWhile member ++ mark :: rest := by
  induction text with
  | nil => simp [outside]
  | cons c text ih =>
    rw [List.cons_append, List.dropWhile_cons, List.dropWhile_cons, ih]
    split <;> rfl

theorem stopsAt_run? {member : Char → Bool} (outside : member mark = false) :
    StopsAt mark (run? member) where
  append text rest _ := by
    rw [run?, run?, takeWhile_append_mark outside, dropWhile_append_mark outside]
    split <;> rfl
  suffix text found behind read := by
    obtain ⟨-, -, rfl⟩ := run?_eq_some_iff.mp read
    exact List.dropWhile_suffix _

theorem stopsAt_dropWhile {member : Char → Bool} (outside : member mark = false) :
    StopsAt mark (passing fun text => some (text.dropWhile member)) where
  append text rest _ :=
    congrArg (fun text => some ((), text)) (dropWhile_append_mark outside text rest)
  suffix text found behind read := by
    obtain ⟨-, rfl⟩ := Prod.mk.inj (Option.some.inj read)
    exact List.dropWhile_suffix _

theorem stopsAt_skipBlanks (ink : isBlank mark = false) :
    StopsAt mark (passing fun text => some (skipBlanks text)) :=
  stopsAt_dropWhile ink

theorem behind?_append_mark {start : Text} (absent : mark ∉ start) (text rest : Text) :
    behind? start (text ++ mark :: rest) = (behind? start text).map (· ++ mark :: rest) := by
  fun_induction behind? start text with
  | case1 text => rfl
  | case2 c start =>
    rw [List.mem_cons, not_or] at absent
    simp [behind?, Ne.symm absent.1]
  | case3 start c text ih =>
    rw [List.cons_append, behind?, if_pos rfl]
    exact ih (List.not_mem_of_not_mem_cons absent)
  | case4 c start d text different => simp [behind?, different]

theorem stopsAt_behind? {start : Text} (absent : mark ∉ start) :
    StopsAt mark (passing (behind? start)) where
  append text rest _ := by
    rw [passing, behind?_append_mark absent]
    simp [passing, Function.comp_def]
  suffix text found behind read := by
    obtain ⟨rest, begun, same⟩ := Option.map_eq_some_iff.mp read
    obtain ⟨-, rfl⟩ := Prod.mk.inj same
    exact ⟨_, (behind?_eq_some_iff.mp begun).symm⟩

theorem stopsAt_literal? {expected : String} (absent : mark ∉ expected.toList) :
    StopsAt mark (passing (literal? expected)) :=
  stopsAt_behind? absent

theorem stopsAt_gap? (ink : isBlank mark = false) : StopsAt mark (passing gap?) := by
  have blanks : StopsAt mark (run? isBlank) := stopsAt_run? ink
  refine (congrArg (StopsAt mark) (funext fun text => ?_)).mp
    (blanks.passing_bind fun _ => StopsAt.stay)
  cases found : run? isBlank text <;> simp [passing, gap?, found]

theorem stopsAt_keyword? {expected : String} (absent : mark ∉ expected.toList)
    (ink : isBlank mark = false) : StopsAt mark (passing (keyword? expected)) :=
  (stopsAt_literal? absent).passing_behind (stopsAt_gap? ink)

theorem StopsAt.findSome? {read : β → Text → Option (α × Text)} {choices : List β}
    (stops : ∀ choice ∈ choices, StopsAt mark (read choice)) :
    StopsAt mark fun text => choices.findSome? fun choice => read choice text := by
  induction choices with
  | nil => exact .refused
  | cons choice others ih =>
    obtain ⟨first, behind⟩ := List.forall_mem_cons.mp stops
    have whole := first.or (ih behind)
    have same : (fun text => (choice :: others).findSome? fun choice => read choice text) =
        fun text => (read choice text).or (others.findSome? fun choice => read choice text) := by
      funext text
      rw [List.findSome?_cons]
      cases read choice text <;> rfl
    rwa [same]

theorem StopsAt.passing_findSome? {skip : β → Text → Option Text} {choices : List β}
    (stops : ∀ choice ∈ choices, StopsAt mark (passing (skip choice))) :
    StopsAt mark (passing fun text => choices.findSome? fun choice => skip choice text) := by
  have same : (passing fun text => choices.findSome? fun choice => skip choice text) =
      fun text => choices.findSome? fun choice => passing (skip choice) text :=
    funext fun _ => List.map_findSome?
  rw [same]
  exact StopsAt.findSome? stops

theorem stopsAt_oneKeyword? {expected : List String}
    (absent : ∀ word ∈ expected, mark ∉ word.toList) (ink : isBlank mark = false) :
    StopsAt mark (oneKeyword? expected) := by
  have keyword (word : String) (member : word ∈ expected) :
      StopsAt mark fun text => (keyword? word text).bind fun rest => some (word, rest) :=
    (stopsAt_keyword? (absent word member) ink).behind (.pure word)
  have whole := StopsAt.findSome? keyword
  have same : oneKeyword? expected = fun text => expected.findSome? fun word =>
      (keyword? word text).bind fun rest => some (word, rest) := by
    funext text
    exact congrArg expected.findSome? (funext fun word => Option.map_eq_bind)
  rwa [same]

theorem stopsAt_mark? {expected : Char} (differs : mark ≠ expected) (ink : isBlank mark = false) :
    StopsAt mark (passing (mark? expected)) := by
  have single : StopsAt mark (passing (behind? [expected])) := stopsAt_behind? (by simp [differs])
  refine (congrArg (fun skip => StopsAt mark (passing skip)) (funext fun text => ?_)).mp
    ((stopsAt_skipBlanks ink).passing_behind single)
  rw [Option.bind_some, mark?_eq]

theorem StopsAt.many {read : Text → Option (α × Text)} (stops : StopsAt mark read) :
    StopsAt mark fun text => some (many read text) where
  append text rest absent := by
    refine congrArg some ?_
    fun_induction Text.many read text with
    | case1 text refused =>
      have here := stops.append text rest absent
      rw [refused, Option.map_none] at here
      exact many_of_refused here
    | case2 text item behind found shorter more last following ih =>
      have here := stops.append text rest absent
      rw [found, Option.map_some] at here
      have inside : mark ∉ behind := fun member => absent ((stops.suffix _ _ _ found).subset member)
      have longer : (behind ++ mark :: rest).length < (text ++ mark :: rest).length := by
        simpa using shorter
      have others := ih inside
      rw [following] at others
      rw [Text.many, here]
      simp only [if_pos longer, others]
    | case3 text item behind found longer =>
      have here := stops.append text rest absent
      rw [found, Option.map_some] at here
      have long : ¬(behind ++ mark :: rest).length < (text ++ mark :: rest).length := by
        simpa using longer
      rw [Text.many, here]
      simp only [if_neg long]
  suffix text found behind answer := by
    obtain rfl : (Text.many read text).2 = behind := by rw [Option.some.inj answer]
    clear answer
    fun_induction Text.many read text with
    | case1 | case3 => exact List.suffix_rfl
    | case2 text item behind found shorter more last following ih =>
      rw [following] at ih
      exact ih.trans (stops.suffix _ _ _ found)

end

end DeclBridge.Text

/-! Headers -/

namespace DeclBridge.Kotlin

open Text

/-- A mark that stands neither in headers nor in types, outside of brackets. -/
structure IsOuter (mark : Char) : Prop where
  undotted : isDottedChar mark = false
  ink : isBlank mark = false
  apart : mark ∉ ['@', ':', '<', '(', '?', '-', '>']

theorem isOuter_quote : IsOuter '"' :=
  ⟨rfl, rfl, by decide⟩

namespace IsOuter

variable {mark : Char} (outer : IsOuter mark)
include outer

theorem outside : isWordChar mark = false := by
  have undotted := outer.undotted
  rw [isDottedChar, Bool.or_eq_false_iff] at undotted
  exact undotted.1

theorem not_mem {words : List String} (keywords : ∀ word ∈ words, IsWord word.toList) :
    ∀ word ∈ words, mark ∉ word.toList :=
  fun word member => (keywords word member).not_mem outer.outside

theorem ne (other : Char) (member : other ∈ ['@', ':', '<', '(', '?', '-', '>']) :
    mark ≠ other := by
  rintro rfl
  exact outer.apart member

theorem stopsAt_keyword? {word : String} (isWord : IsWord word.toList) :
    StopsAt mark (passing (keyword? word)) :=
  Text.stopsAt_keyword? (isWord.not_mem outer.outside) outer.ink

theorem stopsAt_oneKeyword? {words : List String} (keywords : ∀ word ∈ words, IsWord word.toList) :
    StopsAt mark (oneKeyword? words) :=
  Text.stopsAt_oneKeyword? (outer.not_mem keywords) outer.ink

/-- The name of a marker ends where its word does. -/
theorem stopsAt_markerName {names : List String} (absent : ∀ name ∈ names, mark ∉ name.toList) :
    StopsAt mark (passing fun text => names.findSome? fun name =>
      (literal? "@" text).bind fun rest => (literal? name rest).bind fun rest =>
        if rest.head?.any isWordChar then none else some rest) := by
  have ends : StopsAt mark (passing fun text =>
      if text.head?.any isWordChar then none else some text) := by
    constructor
    · intro text rest _
      cases text with
      | nil => simp [passing, outer.outside]
      | cons c text => cases word : isWordChar c <;> simp [passing, word]
    · intro text found behind read
      cases word : text.head?.any isWordChar with
      | true => simp [passing, word] at read
      | false =>
        obtain rfl : text = behind := by simpa [passing, word] using read
        exact List.suffix_rfl
  have at_ : StopsAt mark (passing (literal? "@")) :=
    stopsAt_literal? (by simpa using outer.ne '@' (by decide))
  exact StopsAt.passing_findSome? fun name member =>
    at_.passing_behind ((stopsAt_literal? (absent name member)).passing_behind ends)

theorem stopsAt_skipModifiers : StopsAt mark (passing fun text => some (skipModifiers text)) := by
  have modifier : StopsAt mark (oneKeyword? modifiers) := outer.stopsAt_oneKeyword? (by decide)
  exact modifier.many.passing_bind fun _ => .stay

theorem stopsAt_word? : StopsAt mark word? :=
  stopsAt_run? outer.outside

theorem stopsAt_dotted? : StopsAt mark dotted? :=
  stopsAt_run? outer.undotted

theorem stopsAt_sealedHeader? : StopsAt mark sealedHeader? :=
  outer.stopsAt_skipModifiers.behind <| (outer.stopsAt_keyword? (by decide)).behind <|
    (outer.stopsAt_oneKeyword? (by decide)).bind fun _ => outer.stopsAt_word?

theorem stopsAt_afterColon? : StopsAt mark (passing afterColon?) := by
  have colon : StopsAt mark (passing (mark? ':')) :=
    stopsAt_mark? (outer.ne ':' (by decide)) outer.ink
  have whole := colon.passing_behind (stopsAt_skipBlanks outer.ink)
  have same : afterColon? = fun text => (mark? ':' text).bind fun rest => some (skipBlanks rest) :=
    funext fun _ => Option.map_eq_bind
  rwa [same]

theorem stopsAt_afterFlowType? : StopsAt mark (passing afterFlowType?) := by
  have angle (type : Text) : StopsAt mark (passing fun rest =>
      if flowTypes.contains (afterLast '.' type) then mark? '<' rest else none) := by
    split
    · exact stopsAt_mark? (outer.ne '<' (by decide)) outer.ink
    · exact .refused
  exact outer.stopsAt_dotted?.passing_bind angle

theorem stopsAt_afterFlowReturn? : StopsAt mark (passing afterFlowReturn?) :=
  outer.stopsAt_afterColon?.passing_behind outer.stopsAt_afterFlowType?

theorem stopsAt_flowPropertyHeader? : StopsAt mark flowPropertyHeader? :=
  outer.stopsAt_skipModifiers.behind <| (outer.stopsAt_oneKeyword? (by decide)).bind fun _ =>
    outer.stopsAt_word?.bind fun name => outer.stopsAt_afterColon?.behind <|
      outer.stopsAt_afterFlowType?.behind (.pure name)

theorem stopsAt_supertype? : StopsAt mark supertype? :=
  outer.stopsAt_afterColon?.behind outer.stopsAt_dotted?

theorem stopsAt_objectHeader? (before : Option Char) : StopsAt mark (objectHeader? before) := by
  have data : StopsAt mark (passing (keyword? "data")) := outer.stopsAt_keyword? (by decide)
  have keyword : StopsAt mark (passing (keyword? "object")) := outer.stopsAt_keyword? (by decide)
  unfold objectHeader?
  split
  · exact data.optional.bind fun _ => keyword.behind <| outer.stopsAt_word?.bind fun name =>
      outer.stopsAt_supertype?.bind fun supertype => .pure (ObjectHeader.mk name supertype)
  · exact .refused

theorem stopsAt_typeHeader? (before : Option Char) : StopsAt mark (typeHeader? before) := by
  unfold typeHeader?
  split
  · exact (outer.stopsAt_oneKeyword? (by decide)).bind fun _ => outer.stopsAt_word?
  · exact .refused

/-! Types -/

theorem stopsAt_skipNullMark : StopsAt mark (passing fun text => some (skipNullMark text)) where
  append text rest _ := by
    cases text with
    | nil => simp [passing, skipNullMark, outer.ne '?' (by decide)]
    | cons c text => by_cases mark : c = '?' <;> simp [passing, skipNullMark, mark]
  suffix text found behind read := by
    obtain ⟨-, rfl⟩ := Prod.mk.inj (Option.some.inj read)
    unfold skipNullMark
    split
    · exact List.suffix_cons _ _
    · exact List.suffix_rfl

theorem stopsAt_afterArrow? : StopsAt mark (passing afterArrow?) := by
  have blanks : StopsAt mark (passing fun text => some (skipBlanks text)) :=
    stopsAt_skipBlanks outer.ink
  have unarrowed : mark ∉ "->".toList := by
    simpa using And.intro (outer.ne '-' (by decide)) (outer.ne '>' (by decide))
  have arrow : StopsAt mark (passing (literal? "->")) := stopsAt_literal? unarrowed
  have whole := blanks.passing_behind (arrow.passing_behind blanks)
  have same : afterArrow? = fun text => (some (skipBlanks text)).bind fun rest =>
      (literal? "->" rest).bind fun rest => some (skipBlanks rest) :=
    funext fun _ => Option.map_eq_bind
  rwa [same]

end IsOuter

end DeclBridge.Kotlin
