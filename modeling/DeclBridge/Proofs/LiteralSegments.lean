import DeclBridge.Proofs.RawStrings

/-! A text as segments: its literals and the characters between them. Blanking works on one segment
at a time, and a stretch of segments is read as the same segments when it stands alone. -/

namespace DeclBridge.Kotlin

open Text

/-! What encloses a literal -/

inductive Enclosure where
  | raw
  | double
  | single
deriving DecidableEq, Repr

namespace Enclosure

def quote : Enclosure → Char
  | raw | double => '"'
  | single => '\''

/-- What stands at either end. -/
def quotes : Enclosure → Text
  | raw => ['"', '"', '"']
  | double => ['"']
  | single => ['\'']

def after? : Enclosure → Text → Option Text
  | raw => afterRaw?
  | double => afterQuoted? '"'
  | single => afterQuoted? '\''

end Enclosure

def literalQuotes : List Char :=
  ['"', '\'']

theorem Enclosure.quote_mem (enclosure : Enclosure) : enclosure.quote ∈ literalQuotes := by
  cases enclosure <;> decide

private theorem exists_of_afterQuoted? {quote : Char} (unescaping : quote ≠ '\\') {text rest : Text}
    (found : afterQuoted? quote text = some rest) :
    ∃ inner, text = inner ++ quote :: rest ∧
      ∀ other, afterQuoted? quote (inner ++ quote :: other) = some other := by
  fun_induction afterQuoted? quote text with
  | case1 | case2 | case3 => cases found
  | case4 c more single ih =>
    obtain ⟨inner, rfl, closes⟩ := ih found
    exact ⟨'\\' :: c :: inner, rfl, fun other => by simpa [afterQuoted?, single] using closes other⟩
  | case5 more =>
    cases found
    refine ⟨[], rfl, fun other => ?_⟩
    rw [List.nil_append, afterQuoted?, if_pos rfl] <;> simp [unescaping]
  | case6 => cases found
  | case7 c more lone paired different single ih =>
    obtain ⟨inner, rfl, closes⟩ := ih found
    have plain : c ≠ '\\' := by
      rintro rfl
      cases inner with
      | nil => exact paired quote rest rfl rfl
      | cons d inner => exact paired d (inner ++ quote :: rest) rfl rfl
    refine ⟨c :: inner, rfl, fun other => ?_⟩
    rw [List.cons_append, afterQuoted?, if_neg different, if_neg single]
    · exact closes other
    · simp [plain]
    · simp [plain]

private theorem exists_of_afterRaw? {text rest : Text} (found : afterRaw? text = some rest) :
    ∃ inner, text = inner ++ '"' :: '"' :: '"' :: rest ∧
      ∀ other, afterRaw? (inner ++ '"' :: '"' :: '"' :: other) = some other := by
  fun_induction afterRaw? text with
  | case1 => cases found
  | case2 more =>
    cases found
    exact ⟨[], rfl, fun other => rfl⟩
  | case3 c more unclosed ih =>
    obtain ⟨inner, rfl, closes⟩ := ih found
    refine ⟨c :: inner, rfl, fun other => ?_⟩
    rw [List.cons_append, afterRaw?]
    · exact closes other
    · rintro behind rfl same
      rcases inner with - | ⟨d, - | ⟨e, inner⟩⟩
      · exact unclosed _ rfl rfl
      · simp_all
      · simp_all

/-- Where a literal ends does not depend on what follows. -/
theorem Enclosure.exists_of_after? {enclosure : Enclosure} {text rest : Text}
    (found : enclosure.after? text = some rest) :
    ∃ inner, text = inner ++ enclosure.quotes ++ rest ∧
      ∀ other, enclosure.after? (inner ++ enclosure.quotes ++ other) = some other := by
  cases enclosure with
  | raw => simpa [quotes, after?] using exists_of_afterRaw? found
  | double => simpa [quotes, after?] using exists_of_afterQuoted? (by decide) found
  | single => simpa [quotes, after?] using exists_of_afterQuoted? (by decide) found

/-! Literals -/

structure Quoted where
  enclosure : Enclosure
  inner : Text
deriving DecidableEq, Repr

namespace Quoted

def text (literal : Quoted) : Text :=
  literal.enclosure.quotes ++ literal.inner ++ literal.enclosure.quotes

def blank (literal : Quoted) : Quoted :=
  { literal with inner := blankOut literal.inner }

theorem exists_text (literal : Quoted) :
    ∃ behind, literal.text = literal.enclosure.quote :: behind := by
  unfold text
  cases literal.enclosure <;> simp [Enclosure.quotes, Enclosure.quote]

theorem text_ne_nil (literal : Quoted) : literal.text ≠ [] := by
  obtain ⟨behind, same⟩ := literal.exists_text
  simp [same]

theorem blankLiteral_text (literal : Quoted) (rest : Text) :
    blankLiteral literal.enclosure.quotes.length (literal.text ++ rest) rest =
      literal.blank.text :=
  blankLiteral_enclosed literal.enclosure.quotes literal.inner rest

end Quoted

/-- A literal in this enclosure, and the text behind it. -/
def Enclosure.quoted? (enclosure : Enclosure) (text : Text) : Option (Quoted × Text) :=
  (behind? enclosure.quotes text).bind fun behind => (enclosure.after? behind).map fun rest =>
    (⟨enclosure, behind.take (behind.length - rest.length - enclosure.quotes.length)⟩, rest)

/-- Three quotes that are never closed begin an empty string. -/
def quoted? (text : Text) : Option (Quoted × Text) :=
  [.raw, .double, .single].findSome? fun enclosure => Enclosure.quoted? enclosure text

namespace Enclosure

variable {enclosure : Enclosure} {literal : Quoted} {text rest : Text}

theorem quoted?_of_after? {inner : Text}
    (closes : enclosure.after? (inner ++ enclosure.quotes ++ rest) = some rest) :
    enclosure.quoted? ((Quoted.mk enclosure inner).text ++ rest) =
      some (⟨enclosure, inner⟩, rest) := by
  have begun : behind? enclosure.quotes ((Quoted.mk enclosure inner).text ++ rest) =
      some (inner ++ enclosure.quotes ++ rest) := by
    rw [behind?_eq_some_iff]
    simp [Quoted.text]
  have length : (inner ++ enclosure.quotes ++ rest).length - rest.length -
      enclosure.quotes.length = inner.length := by
    simp only [List.length_append]
    omega
  rw [quoted?, begun, Option.bind_some, closes, Option.map_some, length, List.append_assoc,
    List.take_left]

theorem of_quoted? (read : enclosure.quoted? text = some (literal, rest)) :
    text = literal.text ++ rest ∧ literal.enclosure = enclosure ∧
      ∀ other, enclosure.after? (literal.inner ++ enclosure.quotes ++ other) = some other := by
  obtain ⟨behind, begun, closing⟩ := Option.bind_eq_some_iff.mp read
  obtain ⟨after, closed, -⟩ := Option.map_eq_some_iff.mp closing
  obtain ⟨inner, rfl, closes⟩ := exists_of_after? closed
  have whole : text = (Quoted.mk enclosure inner).text ++ after := by
    rw [behind?_eq_some_iff.mp begun]
    simp [Quoted.text]
  have found := quoted?_of_after? (closes after)
  rw [← whole, read] at found
  cases found
  exact ⟨whole, rfl, closes⟩

/-- What a literal is read as does not depend on what follows. -/
theorem quoted?_other (read : enclosure.quoted? text = some (literal, rest)) (other : Text) :
    enclosure.quoted? (literal.text ++ other) = some (literal, other) := by
  obtain ⟨-, rfl, closes⟩ := of_quoted? read
  exact quoted?_of_after? (closes other)

theorem quoted?_eq_none_of_append (refused : enclosure.quoted? (text ++ rest) = none) :
    enclosure.quoted? text = none := by
  by_contra found
  obtain ⟨⟨literal, behind⟩, read⟩ := Option.ne_none_iff_exists'.mp found
  obtain ⟨rfl, -, -⟩ := of_quoted? read
  rw [List.append_assoc, quoted?_other read] at refused
  cases refused

end Enclosure

theorem eq_append_of_quoted? {text rest : Text} {literal : Quoted}
    (read : quoted? text = some (literal, rest)) : text = literal.text ++ rest := by
  obtain ⟨enclosure, -, read⟩ := List.exists_of_findSome?_eq_some read
  exact (Enclosure.of_quoted? read).1

/-- Nothing more is read as a literal when less follows. -/
theorem quoted?_eq_none_of_append {text rest : Text} (refused : quoted? (text ++ rest) = none) :
    quoted? text = none := by
  rw [quoted?, List.findSome?_eq_none_iff] at refused ⊢
  exact fun enclosure member => Enclosure.quoted?_eq_none_of_append (refused enclosure member)

theorem quoted?_of_append {literal : Quoted} {rest more : Text}
    (read : quoted? (literal.text ++ (rest ++ more)) = some (literal, rest ++ more)) :
    quoted? (literal.text ++ rest) = some (literal, rest) := by
  rw [quoted?, List.findSome?_eq_some_iff] at read ⊢
  obtain ⟨before, enclosure, after, same, read, refused⟩ := read
  refine ⟨before, enclosure, after, same, Enclosure.quoted?_other read rest,
    fun other member => ?_⟩
  have longer := refused other member
  rw [← List.append_assoc] at longer
  exact Enclosure.quoted?_eq_none_of_append longer

private theorem match_quote (quote : Char) (read : Text → Option (Text × Text)) (text : Text) :
    (match text with
      | c :: rest => if c = quote then read rest else none
      | [] => none) = (behind? [quote] text).bind read := by
  cases text with
  | nil => rfl
  | cons c rest => by_cases same : quote = c <;> simp [behind?, same, Ne.symm]

private theorem match_quotes (read : Text → Option (Text × Text)) (text : Text) :
    (match text with
      | '"' :: '"' :: '"' :: rest => read rest
      | _ => none) = (behind? ['"', '"', '"'] text).bind read := by
  split
  · rfl
  · next unmarked =>
    cases found : behind? ['"', '"', '"'] text with
    | none => rfl
    | some rest => exact absurd (behind?_eq_some_iff.mp found) (unmarked rest)

/-- Blanking literals finds these literals and no others. -/
theorem maskedLiteral?_eq (text : Text) :
    maskedLiteral? text =
      (quoted? text).map fun (literal, rest) => (literal.blank.text, rest) := by
  have blanks (enclosure : Enclosure) :
      (enclosure.quoted? text).map (fun (literal, rest) => (literal.blank.text, rest)) =
        (behind? enclosure.quotes text).bind fun behind => (enclosure.after? behind).map fun rest =>
          (blankLiteral enclosure.quotes.length text rest, rest) := by
    cases begun : behind? enclosure.quotes text with
    | none => simp [Enclosure.quoted?, begun]
    | some behind =>
      cases closed : enclosure.after? behind with
      | none => simp [Enclosure.quoted?, begun, closed]
      | some rest =>
        obtain ⟨inner, rfl, closes⟩ := Enclosure.exists_of_after? closed
        have whole : text = (Quoted.mk enclosure inner).text ++ rest := by
          rw [behind?_eq_some_iff.mp begun]
          simp [Quoted.text]
        have blank := Quoted.blankLiteral_text ⟨enclosure, inner⟩ rest
        rw [whole, Enclosure.quoted?_of_after? closed, Option.bind_some, closed]
        exact congrArg (fun blank => some (blank, rest)) blank.symm
  have choices : quoted? text = (Enclosure.raw.quoted? text).or
      ((Enclosure.double.quoted? text).or (Enclosure.single.quoted? text)) := by
    rw [quoted?, List.findSome?_cons, List.findSome?_cons, List.findSome?_cons]
    cases Enclosure.raw.quoted? text <;> cases Enclosure.double.quoted? text <;>
      cases Enclosure.single.quoted? text <;> rfl
  rw [choices, Option.map_or, Option.map_or, blanks, blanks, blanks]
  unfold maskedLiteral?
  simp only [Option.orElse_eq_orElse, Option.orElse_eq_or]
  exact congrArg₂ Option.or (match_quotes _ text)
    (congrArg₂ Option.or (match_quote '"' _ text) (match_quote '\'' _ text))

/-! Segments -/

inductive Segment where
  | plain (c : Char)
  | quoted (literal : Quoted)
deriving DecidableEq, Repr

def Segment.text (blank : Bool) : Segment → Text
  | plain c => [c]
  | quoted literal => if blank then literal.blank.text else literal.text

/-- The text of segments, or its blank copy. -/
def joined (blank : Bool) (segments : List Segment) : Text :=
  segments.flatMap (Segment.text blank)

def segments : Text → List Segment
  | [] => []
  | c :: cs =>
    match quoted? (c :: cs) with
    | none => .plain c :: segments cs
    | some (literal, rest) =>
      if rest.length ≤ cs.length then .quoted literal :: segments rest
      else .plain c :: segments cs
termination_by text => text.length
decreasing_by all_goals simp; try omega

theorem segments_plain {c : Char} {text : Text} (refused : quoted? (c :: text) = none) :
    segments (c :: text) = .plain c :: segments text := by
  rw [segments, refused]

theorem segments_quoted {literal : Quoted} {rest : Text}
    (read : quoted? (literal.text ++ rest) = some (literal, rest)) :
    segments (literal.text ++ rest) = .quoted literal :: segments rest := by
  obtain ⟨behind, same⟩ := literal.exists_text
  rw [same, List.cons_append] at read ⊢
  rw [segments, read]
  exact if_pos (by simp)

@[simp]
theorem joined_nil (blank : Bool) : joined blank [] = [] := rfl

@[simp]
theorem joined_cons (blank : Bool) (segment : Segment) (others : List Segment) :
    joined blank (segment :: others) = segment.text blank ++ joined blank others := rfl

@[simp]
theorem joined_append (blank : Bool) (first second : List Segment) :
    joined blank (first ++ second) = joined blank first ++ joined blank second :=
  List.flatMap_append

/-- The segments are what the text is read as, from each of them on. -/
inductive Divides : List Segment → Prop where
  | nil : Divides []
  | plain {c : Char} {others : List Segment} (refused : quoted? (c :: joined false others) = none)
    (behind : Divides others) : Divides (.plain c :: others)
  | quoted {literal : Quoted} {others : List Segment}
    (read : quoted? (literal.text ++ joined false others) = some (literal, joined false others))
    (behind : Divides others) : Divides (.quoted literal :: others)

theorem divides_segments (text : Text) :
    Divides (segments text) ∧ joined false (segments text) = text := by
  fun_induction segments text with
  | case1 => exact ⟨.nil, rfl⟩
  | case2 c text refused ih =>
    obtain ⟨divides, same⟩ := ih
    exact ⟨.plain (by rwa [same]) divides, congrArg (c :: ·) same⟩
  | case3 c text literal rest read shorter ih =>
    obtain ⟨divides, same⟩ := ih
    have whole := eq_append_of_quoted? read
    refine ⟨.quoted (by rwa [same, ← whole]) divides, ?_⟩
    rw [joined_cons, same, whole]
    rfl
  | case4 c text literal rest read longer =>
    have whole := congrArg List.length (eq_append_of_quoted? read)
    obtain ⟨behind, same⟩ := literal.exists_text
    simp only [same, List.length_cons, List.length_append] at whole
    omega

namespace Divides

variable {list first second : List Segment}

theorem segments_eq (divides : Divides list) : segments (joined false list) = list := by
  induction divides with
  | nil => simp [segments]
  | plain refused _ ih => exact (segments_plain refused).trans (by rw [ih])
  | quoted read _ ih => exact (segments_quoted read).trans (by rw [ih])

theorem maskLiterals_eq (divides : Divides list) :
    maskLiterals (joined false list) = joined true list := by
  induction divides with
  | nil => simp [maskLiterals, replaceAll]
  | @plain c others refused _ ih =>
    have idle : maskedLiteral? (c :: joined false others) = none := by
      rw [maskedLiteral?_eq, refused, Option.map_none]
    exact (replaceAll_cons idle).trans (congrArg (c :: ·) ih)
  | @quoted literal others read _ ih =>
    have blanked : maskedLiteral? (literal.text ++ joined false others) =
        some (literal.blank.text, joined false others) := by
      rw [maskedLiteral?_eq, read, Option.map_some]
    exact (replaceAll_append literal.text_ne_nil blanked).trans (congrArg _ ih)

theorem right (divides : Divides (first ++ second)) : Divides second := by
  induction first with
  | nil => exact divides
  | cons segment first ih =>
    cases divides with
    | plain _ behind => exact ih behind
    | quoted _ behind => exact ih behind

theorem left (divides : Divides (first ++ second)) : Divides first := by
  induction first with
  | nil => exact .nil
  | cons segment first ih =>
    rw [List.cons_append] at divides
    cases divides with
    | plain refused behind =>
      rw [joined_append, ← List.cons_append] at refused
      exact .plain (quoted?_eq_none_of_append refused) (ih behind)
    | quoted read behind =>
      rw [joined_append] at read
      exact .quoted (quoted?_of_append read) (ih behind)

theorem within (divides : Divides list) (stretch : first <:+: list) : Divides first := by
  obtain ⟨before, after, rfl⟩ := stretch
  exact divides.left.right

end Divides

theorem joined_segments (text : Text) : joined false (segments text) = text :=
  (divides_segments text).2

theorem maskLiterals_eq_joined (text : Text) : maskLiterals text = joined true (segments text) := by
  have same := (divides_segments text).1.maskLiterals_eq
  rwa [joined_segments] at same

end DeclBridge.Kotlin
