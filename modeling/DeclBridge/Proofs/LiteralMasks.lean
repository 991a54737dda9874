import DeclBridge.Proofs.LiteralSegments
import Mathlib.Data.List.Forall2

/-! Blanking literals keeps every place of a text and what it is read as: the blank copy has the
same segments, with blanks in its literals. A quote without a partner stays without one, because the
search for a partner, which goes on over later literals, meets less in their blank copies. -/

namespace DeclBridge.Kotlin

open Text

/-! The closing quote, character by character -/

/-- The text behind the closing quote, where `escaped` tells whether a backslash takes the first
character with it. -/
def closing? (quote : Char) (escaped : Bool) : Text → Option Text
  | [] => none
  | c :: rest =>
    if c = '\n' then none
    else if escaped then closing? quote false rest
    else if c = '\\' then closing? quote true rest
    else if c = quote then some rest
    else closing? quote false rest

section

variable {quote c : Char} {escaped : Bool} {text rest : Text}

theorem afterQuoted?_eq_closing? (visible : quote ≠ '\n') (unescaping : quote ≠ '\\')
    (text : Text) : afterQuoted? quote text = closing? quote false text := by
  fun_induction afterQuoted? quote text with
  | case1 => rfl
  | case2 => simp [closing?]
  | case3 => simp [closing?]
  | case4 c more single ih => simpa [closing?, single] using ih
  | case5 more => simp [closing?, visible, unescaping]
  | case6 more => simp [closing?]
  | case7 c more lone paired different single ih =>
    have plain : c ≠ '\\' := by
      rintro rfl
      cases more with
      | nil => exact lone rfl rfl
      | cons d more => exact paired d more rfl rfl
    simpa [closing?, plain, different, single] using ih

/-- A line feed ends the search. -/
theorem closing?_broken (unquoted : quote ∉ text) (broken : '\n' ∈ text) (rest : Text) :
    closing? quote escaped (text ++ rest) = none := by
  induction text generalizing escaped with
  | nil => cases broken
  | cons c text ih =>
    rw [List.mem_cons, not_or] at unquoted
    rw [List.cons_append, closing?]
    split
    · rfl
    · next single =>
      have behind : '\n' ∈ text := (List.mem_cons.mp broken).resolve_left (Ne.symm single)
      have search (escaped : Bool) : closing? quote escaped (text ++ rest) = none :=
        ih unquoted.2 behind
      simp [search, Ne.symm unquoted.1]

/-- What neither closes nor escapes is passed over. -/
theorem closing?_plain (nonempty : text ≠ [])
    (plain : ∀ c ∈ text, c ≠ '\n' ∧ c ≠ '\\' ∧ c ≠ quote) (rest : Text) :
    closing? quote escaped (text ++ rest) = closing? quote false rest := by
  induction text generalizing escaped with
  | nil => exact absurd rfl nonempty
  | cons c text ih =>
    obtain ⟨⟨single, unescaping, unquoted⟩, others⟩ := List.forall_mem_cons.mp plain
    have step : closing? quote escaped (c :: (text ++ rest)) =
        closing? quote false (text ++ rest) := by
      simp [closing?, single, unescaping, unquoted]
    rw [List.cons_append, step]
    cases text with
    | nil => rfl
    | cons d text => exact ih (by simp) others

/-- A search that finds nothing finds nothing from a later place of the line on, as long as no
backslash stands before it. -/
theorem closing?_eq_none_of_append (single : '\n' ∉ text) (visible : c ≠ '\n')
    (unescaping : c ≠ '\\') (refused : closing? quote escaped (text ++ c :: rest) = none) :
    closing? quote false rest = none := by
  induction text generalizing escaped with
  | nil =>
    rw [List.nil_append, closing?] at refused
    split_ifs at refused with broken
    · exact absurd broken visible
    all_goals exact refused
  | cons d text ih =>
    rw [List.mem_cons, not_or] at single
    rw [List.cons_append, closing?] at refused
    split_ifs at refused with broken
    · exact absurd broken.symm single.1
    all_goals exact ih single.2 refused

/-- Up to the quote that is found the text stays on its line. -/
theorem not_mem_of_closing? {found : Text}
    (closed : closing? quote escaped (text ++ quote :: rest) = some found)
    (late : found.length ≤ rest.length) : '\n' ∉ text := by
  induction text generalizing escaped with
  | nil => simp
  | cons d text ih =>
    rw [List.cons_append, closing?] at closed
    split_ifs at closed with broken _ _ early
    · exact List.not_mem_cons_of_ne_of_not_mem (Ne.symm broken) (ih closed)
    · exact List.not_mem_cons_of_ne_of_not_mem (Ne.symm broken) (ih closed)
    · cases closed
      simp only [List.length_append, List.length_cons] at late
      omega
    · exact List.not_mem_cons_of_ne_of_not_mem (Ne.symm broken) (ih closed)

end

/-! Searching on over a literal -/

namespace Enclosure

theorem quote_visible (enclosure : Enclosure) :
    enclosure.quote ≠ '\n' ∧ enclosure.quote ≠ '\\' ∧ enclosure.quote ≠ ' ' := by
  cases enclosure <;> decide

theorem eq_quote_of_mem {enclosure : Enclosure} {c : Char} (inside : c ∈ enclosure.quotes) :
    c = enclosure.quote := by
  cases enclosure <;> simpa [quotes, quote] using inside

end Enclosure

namespace Quoted

variable {literal : Quoted} {c : Char}

theorem mem_blank_text (inside : c ∈ literal.blank.text) :
    c = literal.enclosure.quote ∨ c = ' ' ∨ c = '\n' ∧ '\n' ∈ literal.inner := by
  simp only [text, blank, List.mem_append] at inside
  rcases inside with (opening | blank) | closing
  · exact .inl (Enclosure.eq_quote_of_mem opening)
  · obtain ⟨d, within, rfl⟩ := List.mem_map.mp blank
    split
    · next same => exact .inr (.inr ⟨same, same ▸ within⟩)
    · exact .inr (.inl rfl)
  · exact .inl (Enclosure.eq_quote_of_mem closing)

theorem newline_mem_blank_text (broken : '\n' ∈ literal.inner) : '\n' ∈ literal.blank.text := by
  have blank : '\n' ∈ blankOut literal.inner := List.mem_map.mpr ⟨'\n', broken, if_pos rfl⟩
  simp [text, Quoted.blank, blank]

theorem blank_blank (literal : Quoted) : literal.blank.blank = literal.blank := by
  have same : blankOut (blankOut literal.inner) = blankOut literal.inner := by
    simp only [blankOut, List.map_map]
    refine List.map_congr_left fun c _ => ?_
    by_cases broken : c = '\n' <;> simp [broken]
  simp [blank, same]

/-- The last character is a quote. -/
theorem exists_text_eq_concat (literal : Quoted) :
    ∃ front, literal.text = front ++ [literal.enclosure.quote] ∧
      ∀ c ∈ front, c = literal.enclosure.quote ∨ c ∈ literal.inner := by
  obtain ⟨enclosure, inner⟩ := literal
  cases enclosure with
  | raw =>
    refine ⟨'"' :: '"' :: '"' :: inner ++ ['"', '"'], by simp [text, Enclosure.quotes,
      Enclosure.quote], ?_⟩
    simp only [Enclosure.quote, List.mem_append, List.mem_cons, List.not_mem_nil]
    tauto
  | double | single =>
    refine ⟨_ :: inner, rfl, ?_⟩
    simp only [Enclosure.quote, List.mem_cons]
    tauto

/-- A search for the quote that encloses a literal does not get past the literal. -/
theorem exists_closing?_text {rest : Text}
    (closes : literal.enclosure.after? (literal.inner ++ literal.enclosure.quotes ++ rest) =
      some rest) (escaped : Bool) :
    ∃ found, closing? literal.enclosure.quote escaped (literal.text ++ rest) = some found := by
  obtain ⟨enclosure, inner⟩ := literal
  cases escaped with
  | false => cases enclosure <;> simp [closing?, text, Enclosure.quotes, Enclosure.quote]
  | true =>
    -- The first quote is escaped. A raw string has another, any other literal the closing one.
    cases enclosure with
    | raw => simp [closing?, text, Enclosure.quotes, Enclosure.quote]
    | double =>
      rw [Enclosure.after?, afterQuoted?_eq_closing? (by decide) (by decide)] at closes
      exact ⟨rest, by simpa [closing?, text, Enclosure.quotes, Enclosure.quote] using closes⟩
    | single =>
      rw [Enclosure.after?, afterQuoted?_eq_closing? (by decide) (by decide)] at closes
      exact ⟨rest, by simpa [closing?, text, Enclosure.quotes, Enclosure.quote] using closes⟩

end Quoted

theorem after?_of_quoted? {literal : Quoted} {text rest : Text}
    (read : quoted? text = some (literal, rest)) (other : Text) :
    literal.enclosure.after? (literal.inner ++ literal.enclosure.quotes ++ other) = some other := by
  obtain ⟨enclosure, -, found⟩ := List.exists_of_findSome?_eq_some read
  obtain ⟨-, rfl, closes⟩ := Enclosure.of_quoted? found
  exact closes other

/-! The same segments in the blank copy -/

namespace Divides

variable {list : List Segment}

/-- The search for a closing quote that finds none finds none in the blank copy. -/
theorem closing?_joined (divides : Divides list) {enclosure : Enclosure} {escaped : Bool}
    (refused : closing? enclosure.quote escaped (joined false list) = none) :
    closing? enclosure.quote escaped (joined true list) = none := by
  induction divides generalizing escaped with
  | nil => exact refused
  | @plain c others _ _ ih =>
    change closing? enclosure.quote escaped (c :: joined false others) = none at refused
    change closing? enclosure.quote escaped (c :: joined true others) = none
    rw [closing?] at refused ⊢
    split_ifs at refused ⊢ <;> first | rfl | exact ih refused
  | @quoted literal others read _ ih =>
    change closing? enclosure.quote escaped (literal.text ++ joined false others) = none at refused
    change closing? enclosure.quote escaped (literal.blank.text ++ joined true others) = none
    have unquoted : literal.enclosure.quote ≠ enclosure.quote := by
      intro same
      obtain ⟨found, closed⟩ := Quoted.exists_closing?_text (after?_of_quoted? read _) escaped
      rw [same, refused] at closed
      cases closed
    obtain ⟨visible, unescaping, ink⟩ := enclosure.quote_visible
    by_cases broken : '\n' ∈ literal.inner
    · refine closing?_broken (fun inside => ?_) (Quoted.newline_mem_blank_text broken) _
      rcases Quoted.mem_blank_text inside with same | same | ⟨same, -⟩
      · exact unquoted same.symm
      · exact ink same
      · exact visible same
    · obtain ⟨unbroken, plain, -⟩ := literal.enclosure.quote_visible
      have behind : closing? enclosure.quote false (joined false others) = none := by
        obtain ⟨front, whole, inside⟩ := literal.exists_text_eq_concat
        rw [whole, List.append_assoc, List.singleton_append] at refused
        refine closing?_eq_none_of_append (fun newline => ?_) unbroken plain refused
        exact (inside _ newline).elim (Ne.symm unbroken) broken
      rw [closing?_plain literal.blank.text_ne_nil, ih behind]
      intro c inside
      rcases Quoted.mem_blank_text inside with rfl | rfl | ⟨-, newline⟩
      · exact ⟨unbroken, plain, unquoted⟩
      · exact ⟨by decide, by decide, Ne.symm ink⟩
      · exact absurd newline broken

end Divides

/-- A character of a text and the one in its blank copy. -/
def Fades (c faded : Char) : Prop :=
  faded = ' ' ∨ c = faded

theorem forall₂_joined (list : List Segment) :
    List.Forall₂ Fades (joined false list) (joined true list) := by
  have kept (text : Text) : List.Forall₂ Fades text text :=
    List.forall₂_same.mpr fun c _ => .inr rfl
  induction list with
  | nil => exact .nil
  | cons segment list ih =>
    refine List.rel_append ?_ ih
    cases segment with
    | plain c => exact kept [c]
    | quoted literal =>
      refine List.rel_append (List.rel_append (kept _) ?_) (kept _)
      refine List.forall₂_map_right_iff.mpr (List.forall₂_same.mpr fun c _ => ?_)
      by_cases broken : c = '\n' <;> simp [Fades, broken]

/-- Three quotes in the blank copy are three quotes in the text. -/
theorem afterRaw?_fades {text faded : Text} (fades : List.Forall₂ Fades text faded)
    (refused : afterRaw? text = none) : afterRaw? faded = none := by
  induction fades with
  | nil => rfl
  | @cons c d text faded first behind ih =>
    have inner : afterRaw? text = none := by
      unfold afterRaw? at refused
      split at refused <;> simp_all
    unfold afterRaw?
    split
    · rfl
    · next rest same =>
      cases same
      obtain - | ⟨second, - | ⟨third, -⟩⟩ := behind
      simp only [Fades, Char.reduceEq, false_or] at first second third
      subst first second third
      cases refused
    · next same =>
      cases same
      exact ih inner

namespace Enclosure

variable {enclosure : Enclosure}

theorem quoted?_eq_none_iff {text : Text} : enclosure.quoted? text = none ↔
    ∀ behind, text = enclosure.quotes ++ behind → enclosure.after? behind = none := by
  cases begun : behind? enclosure.quotes text with
  | none =>
    simp only [quoted?, begun, Option.bind_none, true_iff]
    intro behind same
    rw [behind?_eq_some_iff.mpr same] at begun
    cases begun
  | some behind =>
    have whole := behind?_eq_some_iff.mp begun
    simp only [quoted?, begun, Option.bind_some, Option.map_eq_none_iff]
    refine ⟨fun refused other same => ?_, fun refused => refused behind whole⟩
    rwa [← List.append_cancel_left (whole.symm.trans same)]

theorem exists_of_fades {text faded : Text}
    (fades : List.Forall₂ Fades text (enclosure.quotes ++ faded)) :
    ∃ behind, text = enclosure.quotes ++ behind ∧ List.Forall₂ Fades behind faded := by
  cases enclosure with
  | raw =>
    obtain - | ⟨first, - | ⟨second, - | ⟨third, behind⟩⟩⟩ := fades
    simp only [Fades, Char.reduceEq, false_or] at first second third
    subst first second third
    exact ⟨_, rfl, behind⟩
  | double | single =>
    obtain - | ⟨first, behind⟩ := fades
    simp only [Fades, Char.reduceEq, false_or] at first
    subst first
    exact ⟨_, rfl, behind⟩

end Enclosure

namespace Divides

variable {list : List Segment}

/-- What is no literal of a kind is none in the blank copy. -/
theorem quoted?_joined (divides : Divides list) {enclosure : Enclosure}
    (refused : enclosure.quoted? (joined false list) = none) :
    enclosure.quoted? (joined true list) = none := by
  rw [Enclosure.quoted?_eq_none_iff] at refused ⊢
  intro faded same
  obtain ⟨behind, whole, fades⟩ := Enclosure.exists_of_fades (same ▸ forall₂_joined list)
  have unclosed := refused behind whole
  -- A search from behind the opening quote is one from the quote on that takes it for escaped.
  have onLine (single : enclosure.quotes = [enclosure.quote])
      (closing : ∀ text, enclosure.after? text = closing? enclosure.quote false text) :
      enclosure.after? faded = none := by
    have step (text : Text) : closing? enclosure.quote true (enclosure.quotes ++ text) =
        closing? enclosure.quote false text := by
      simp [single, closing?, enclosure.quote_visible.1]
    rw [closing, ← step, ← same]
    refine divides.closing?_joined ?_
    rw [whole, step, ← closing, unclosed]
  cases enclosure with
  | raw => exact afterRaw?_fades fades unclosed
  | double => exact onLine rfl (afterQuoted?_eq_closing? (by decide) (by decide))
  | single => exact onLine rfl (afterQuoted?_eq_closing? (by decide) (by decide))

end Divides

/-- The blank copy of a literal ends where the literal ends. -/
theorem Quoted.after?_blank {literal : Quoted} {rest : Text}
    (closes : literal.enclosure.after? (literal.inner ++ literal.enclosure.quotes ++ rest) =
      some rest) (other : Text) :
    literal.enclosure.after? (literal.blank.inner ++ literal.enclosure.quotes ++ other) =
      some other := by
  obtain ⟨enclosure, inner⟩ := literal
  have onLine (single : enclosure.quotes = [enclosure.quote])
      (closing : ∀ text, enclosure.after? text = closing? enclosure.quote false text) :
      enclosure.after? (blankOut inner ++ enclosure.quotes ++ other) = some other := by
    obtain ⟨visible, unescaping, ink⟩ := enclosure.quote_visible
    have last : closing? enclosure.quote false (enclosure.quotes ++ other) = some other := by
      simp [single, closing?, visible, unescaping]
    rw [closing, List.append_assoc] at closes ⊢
    rw [single, List.singleton_append] at closes
    have unbroken := not_mem_of_closing? closes le_rfl
    by_cases nonempty : blankOut inner = []
    · rwa [nonempty]
    · rw [closing?_plain nonempty, last]
      intro c inside
      obtain ⟨d, within, rfl⟩ := List.mem_map.mp inside
      have same : d ≠ '\n' := fun newline => unbroken (newline ▸ within)
      rw [if_neg same]
      exact ⟨by decide, by decide, Ne.symm ink⟩
  cases enclosure with
  | raw =>
    have unquoted : '"' ∉ blankOut inner := by
      intro inside
      obtain ⟨d, -, same⟩ := List.mem_map.mp inside
      split_ifs at same with newline
      · rw [newline] at same
        cases same
      · cases same
    simpa [Enclosure.after?, Enclosure.quotes, blank] using afterRaw?_append unquoted other
  | double => exact onLine rfl (afterQuoted?_eq_closing? (by decide) (by decide))
  | single => exact onLine rfl (afterQuoted?_eq_closing? (by decide) (by decide))

def Segment.blank : Segment → Segment
  | plain c => plain c
  | quoted literal => quoted literal.blank

theorem joined_map_blank (list : List Segment) (blank : Bool) :
    joined blank (list.map Segment.blank) = joined true list := by
  rw [joined, joined, List.flatMap_map]
  congr 1
  funext segment
  cases segment with
  | plain c => rfl
  | quoted literal => cases blank <;> simp [Segment.text, Segment.blank, Quoted.blank_blank]

theorem Divides.map_blank {list : List Segment} (divides : Divides list) :
    Divides (list.map Segment.blank) := by
  induction divides with
  | nil => exact .nil
  | @plain c others refused behind ih =>
    refine .plain ?_ ih
    rw [joined_map_blank]
    have whole : Divides (.plain c :: others) := .plain refused behind
    rw [quoted?, List.findSome?_eq_none_iff] at refused ⊢
    exact fun enclosure member => whole.quoted?_joined (refused enclosure member)
  | @quoted literal others read behind ih =>
    refine .quoted ?_ ih
    rw [joined_map_blank]
    have whole : Divides (.quoted literal :: others) := .quoted read behind
    have closes := after?_of_quoted? read
    rw [quoted?, List.findSome?_eq_some_iff] at read ⊢
    obtain ⟨before, enclosure, after, same, read, refused⟩ := read
    refine ⟨before, enclosure, after, same, ?_, fun other member => ?_⟩
    · obtain ⟨-, rfl, -⟩ := Enclosure.of_quoted? read
      exact Enclosure.quoted?_of_after? (Quoted.after?_blank (closes []) _)
    · exact whole.quoted?_joined (refused other member)

/-- Every literal is read as its blank copy, and all else as before. -/
theorem segments_maskLiterals (text : Text) :
    segments (maskLiterals text) = (segments text).map Segment.blank := by
  have blanked := (divides_segments text).1.map_blank.segments_eq
  rwa [joined_map_blank, ← maskLiterals_eq_joined] at blanked

/-! Places in the text -/

/-- The offset lies strictly between the quotes of a literal among the segments. -/
def IsInside (list : List Segment) (offset : Nat) : Prop :=
  ∃ front literal back, list = front ++ .quoted literal :: back ∧
    (joined false front).length + literal.enclosure.quotes.length ≤ offset ∧
    offset < (joined false front).length + literal.enclosure.quotes.length + literal.inner.length

theorem isInside_cons {segment : Segment} {list : List Segment} {offset : Nat} :
    IsInside (segment :: list) offset ↔
      (∃ literal, segment = .quoted literal ∧ literal.enclosure.quotes.length ≤ offset ∧
        offset < literal.enclosure.quotes.length + literal.inner.length) ∨
      (segment.text false).length ≤ offset ∧
        IsInside list (offset - (segment.text false).length) := by
  constructor
  · rintro ⟨- | ⟨first, front⟩, literal, back, same, low, high⟩
    · obtain ⟨rfl, rfl⟩ := List.cons.inj same
      simp only [joined_nil, List.length_nil, Nat.zero_add] at low high
      exact .inl ⟨literal, rfl, low, high⟩
    · obtain ⟨rfl, rfl⟩ := List.cons.inj same
      simp only [joined_cons, List.length_append] at low high
      exact .inr ⟨by omega, front, literal, back, rfl, by omega, by omega⟩
  · rintro (⟨literal, rfl, low, high⟩ | ⟨late, front, literal, back, rfl, low, high⟩)
    · exact ⟨[], literal, list, rfl, by simpa using low, by simpa using high⟩
    · refine ⟨segment :: front, literal, back, rfl, ?_, ?_⟩ <;>
      · simp only [joined_cons, List.length_append]
        omega

theorem Segment.length_text (segment : Segment) :
    (segment.text true).length = (segment.text false).length := by
  cases segment <;> simp [text, Quoted.text, Quoted.blank, blankOut]

theorem getElem?_blankOut_between (before inner after : Text) (offset : Nat) :
    (before.length ≤ offset ∧ offset < before.length + inner.length) ∧
        (before ++ blankOut inner ++ after)[offset]? =
          (before ++ inner ++ after)[offset]?.map (fun c => if c = '\n' then c else ' ') ∨
      ¬(before.length ≤ offset ∧ offset < before.length + inner.length) ∧
        (before ++ blankOut inner ++ after)[offset]? = (before ++ inner ++ after)[offset]? := by
  have length : (blankOut inner).length = inner.length := List.length_map _
  rcases Nat.lt_or_ge offset before.length with early | late
  · refine .inr ⟨by omega, ?_⟩
    simp [early, Nat.lt_add_right]
  · obtain ⟨shift, rfl⟩ := Nat.exists_eq_add_of_le late
    simp only [List.append_assoc, List.getElem?_append_right late, Nat.add_sub_cancel_left]
    rcases Nat.lt_or_ge shift inner.length with within | behind
    · refine .inl ⟨by omega, ?_⟩
      rw [List.getElem?_append_left within, List.getElem?_append_left (length.symm ▸ within)]
      exact List.getElem?_map
    · refine .inr ⟨by omega, ?_⟩
      rw [List.getElem?_append_right behind, List.getElem?_append_right (length.symm ▸ behind),
        length]

/-- Inside of literals there are blanks and line feeds. All other characters are kept. -/
theorem getElem?_joined (list : List Segment) (offset : Nat) :
    IsInside list offset ∧ (joined true list)[offset]? =
        (joined false list)[offset]?.map (fun c => if c = '\n' then c else ' ') ∨
      ¬IsInside list offset ∧ (joined true list)[offset]? = (joined false list)[offset]? := by
  induction list generalizing offset with
  | nil => exact .inr ⟨by rintro ⟨front, literal, back, same, -⟩; simp at same, rfl⟩
  | cons segment list ih =>
    have length := segment.length_text
    rw [isInside_cons, joined_cons, joined_cons]
    rcases Nat.lt_or_ge offset (segment.text false).length with here | behind
    · rw [List.getElem?_append_left here, List.getElem?_append_left (length ▸ here)]
      simp only [Nat.not_le.mpr here, false_and, or_false]
      cases segment with
      | plain c => exact .inr ⟨by simp, rfl⟩
      | quoted literal =>
        simpa [Segment.text, Quoted.text, Quoted.blank] using
          getElem?_blankOut_between literal.enclosure.quotes literal.inner literal.enclosure.quotes
            offset
    · have past : ¬∃ literal, segment = .quoted literal ∧ literal.enclosure.quotes.length ≤ offset ∧
          offset < literal.enclosure.quotes.length + literal.inner.length := by
        rintro ⟨literal, rfl, -, early⟩
        simp only [Segment.text, Bool.false_eq_true, if_false, Quoted.text, List.length_append]
          at behind
        omega
      rw [List.getElem?_append_right behind, List.getElem?_append_right (length ▸ behind), length]
      simpa [past, behind] using ih (offset - (segment.text false).length)

/-- Blanking the literals keeps the length of a text, all that stands outside of their contents and
the line feeds. The blank copy is read as the same literals and stays as it is when it is blanked
again. -/
theorem maskLiterals_projection (text : Text) :
    (maskLiterals text).length = text.length ∧
    (∀ offset : Nat,
      IsInside (segments text) offset ∧ (maskLiterals text)[offset]? =
          text[offset]?.map (fun c => if c = '\n' then c else ' ') ∨
        ¬IsInside (segments text) offset ∧ (maskLiterals text)[offset]? = text[offset]?) ∧
    (∀ offset : Nat, (maskLiterals text)[offset]? = some '\n' ↔ text[offset]? = some '\n') ∧
    segments (maskLiterals text) = (segments text).map Segment.blank ∧
    maskLiterals (maskLiterals text) = maskLiterals text := by
  have places (offset : Nat) := getElem?_joined (segments text) offset
  simp only [← maskLiterals_eq_joined, joined_segments] at places
  refine ⟨length_maskLiterals text, places, fun offset => ?_, segments_maskLiterals text, ?_⟩
  · rcases places offset with ⟨-, blank⟩ | ⟨-, kept⟩
    · rw [blank]
      cases text[offset]? with
      | none => rfl
      | some c => by_cases broken : c = '\n' <;> simp [broken]
    · rw [kept]
  · rw [maskLiterals_eq_joined (maskLiterals text), segments_maskLiterals, joined_map_blank,
      ← maskLiterals_eq_joined]

end DeclBridge.Kotlin
