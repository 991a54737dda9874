import DeclBridge.Text.Basic

/-!
Brackets and double-quoted literals. A bracket inside a literal does not count, nor does the `>` of
an arrow `->`. Two readers follow the nesting: `Bracket.inside` finds the partner of one bracket and
counts only brackets of that kind, `splitTopLevel` cuts a list apart and counts all kinds together.
-/

namespace DeclBridge.Kotlin

inductive Bracket where
  | round
  | angle
  | square
  | curly
deriving DecidableEq, Repr

namespace Bracket

def opener : Bracket → Char
  | round => '('
  | angle => '<'
  | square => '['
  | curly => '{'

def closer : Bracket → Char
  | round => ')'
  | angle => '>'
  | square => ']'
  | curly => '}'

def ofOpener? : Char → Option Bracket
  | '(' => some round
  | '<' => some angle
  | '[' => some square
  | '{' => some curly
  | _ => none

end Bracket

/-- Where a reader stands with respect to double-quoted literals. -/
inductive Quoting where
  | outside
  | inside
  | escaped
deriving DecidableEq, Repr

/-- A backslash inside a literal takes the next character with it, whatever that is. -/
def Quoting.next : Quoting → Char → Quoting
  | .outside, c => if c = '"' then .inside else .outside
  | .inside, c => if c = '"' then .outside else if c = '\\' then .escaped else .inside
  | .escaped, _ => .inside

def isOpener (c : Char) : Bool :=
  (Bracket.ofOpener? c).isSome

/-- Closes a bracket when it comes after `before`: a `>` after `-` is the head of an arrow. -/
def closesAfter (before : Option Char) (c : Char) : Bool :=
  (c = ')' || c = '>' || c = ']' || c = '}') && !(c = '>' && before = some '-')

namespace Bracket

/-- The text up to the closing partner and the text after it. `depth` brackets of this kind were
opened since; `before` is the character in front of the text. -/
def splitAtPartner (bracket : Bracket) (quoting : Quoting) (before : Option Char) (depth : Nat) :
    Text → Option (Text × Text)
  | [] => none
  | c :: rest =>
    let active := quoting = .outside
    let closes := active ∧ c = bracket.closer ∧ closesAfter before c
    if closes ∧ depth = 0 then some ([], rest)
    else
      let depth :=
        if closes then depth - 1
        else if active ∧ c = bracket.opener then depth + 1
        else depth
      (bracket.splitAtPartner (quoting.next c) (some c) depth rest).map
        fun (inner, after) => (c :: inner, after)

/-- Reads on from directly behind an opening bracket. -/
def inside (bracket : Bracket) (text : Text) : Option (Text × Text) :=
  bracket.splitAtPartner .outside (some bracket.opener) 0 text

theorem length_splitAtPartner {bracket : Bracket} {quoting : Quoting} {before : Option Char}
    {depth : Nat} {text inner after : Text}
    (h : bracket.splitAtPartner quoting before depth text = some (inner, after)) :
    inner.length + after.length + 1 = text.length := by
  induction text generalizing quoting before depth inner with
  | nil => simp [splitAtPartner] at h
  | cons c rest ih =>
    simp only [splitAtPartner] at h
    split at h
    · obtain ⟨rfl, rfl⟩ := Prod.mk.inj (Option.some.inj h)
      simp
    · obtain ⟨⟨more, last⟩, found, same⟩ := Option.map_eq_some_iff.1 h
      obtain ⟨rfl, rfl⟩ := Prod.mk.inj same
      simp only [List.length_cons, ← ih found]
      omega

theorem length_inside {bracket : Bracket} {text inner after : Text}
    (h : bracket.inside text = some (inner, after)) :
    inner.length + after.length + 1 = text.length :=
  length_splitAtPartner h

end Bracket

/-- Why a bracket could not be looked up: no character at the offset, or none that opens. -/
inductive BracketFault where
  | beyondText
  | notAnOpener
deriving DecidableEq, Repr

/-- The text inside the bracket that opens at an offset, if the bracket is closed at all. -/
def bracketed (text : Text) (offset : Nat) : Except BracketFault (Option Text) :=
  match text.drop offset with
  | [] => .error .beyondText
  | c :: rest =>
    match Bracket.ofOpener? c with
    | none => .error .notAnOpener
    | some bracket => .ok ((bracket.inside rest).map (·.1))

/-- The offset of the partner of the bracket that opens at an offset. -/
def closingOffset (text : Text) (offset : Nat) : Except BracketFault (Option Nat) :=
  (bracketed text offset).map fun inner => inner.map fun inner => offset + 1 + inner.length

/-- The argument list of a generic type whose `<` stands at an offset. -/
def genericArgument (text : Text) (offset : Nat) : Except BracketFault (Option Text) :=
  (bracketed text offset).map fun inner => inner.map Text.trim

/-- A closing bracket without a partner leaves the depth at zero. -/
def depthAfter (before : Option Char) (depth : Nat) (c : Char) : Nat :=
  if isOpener c then depth + 1 else if closesAfter before c then depth - 1 else depth

/-- A separator counts outside literals and brackets, and never where it is itself a quote or a
bracket. -/
def separatesAt (isSeparator : Char → Bool) (quoting : Quoting) (before : Option Char)
    (depth : Nat) (c : Char) : Bool :=
  quoting = .outside && depth == 0 && isSeparator c && c ≠ '"' && !isOpener c &&
    !closesAfter before c

/-- The pieces between separators, as they stand. There is always at least one. -/
def pieces (isSeparator : Char → Bool) (quoting : Quoting) (before : Option Char) (depth : Nat) :
    Text → List Text
  | [] => [[]]
  | c :: rest =>
    if separatesAt isSeparator quoting before depth c then
      [] :: pieces isSeparator quoting (some c) depth rest
    else
      let depth := if quoting = .outside then depthAfter before depth c else depth
      match pieces isSeparator (quoting.next c) (some c) depth rest with
      | [] => [[c]]
      | first :: others => (c :: first) :: others

/-- The pieces of a list, trimmed, without those that are blank. -/
def splitTopLevelBy (isSeparator : Char → Bool) (text : Text) : List Text :=
  ((pieces isSeparator .outside none 0 text).map Text.trim).filter (!·.isEmpty)

def splitTopLevel : Text → List Text :=
  splitTopLevelBy (· = ',')

theorem length_le_of_mem_pieces {isSeparator : Char → Bool} {quoting : Quoting}
    {before : Option Char} {depth : Nat} {text piece : Text}
    (h : piece ∈ pieces isSeparator quoting before depth text) : piece.length ≤ text.length := by
  induction text generalizing quoting before depth piece with
  | nil => simp_all [pieces]
  | cons c rest ih =>
    simp only [pieces] at h
    split at h
    · rcases List.mem_cons.1 h with rfl | h
      · simp
      · exact Nat.le_succ_of_le (ih h)
    · split at h
      · simp_all
      · next first others found =>
        rcases List.mem_cons.1 h with rfl | h
        · exact Nat.succ_le_succ (ih (found ▸ List.mem_cons_self))
        · exact Nat.le_succ_of_le (ih (found ▸ List.mem_cons_of_mem _ h))

theorem length_le_of_mem_splitTopLevel {text entry : Text} (h : entry ∈ splitTopLevel text) :
    entry.length ≤ text.length := by
  obtain ⟨piece, isPiece, rfl⟩ := List.mem_map.1 (List.mem_filter.1 h).1
  exact Nat.le_trans (Text.length_trim_le piece) (length_le_of_mem_pieces isPiece)

end DeclBridge.Kotlin
