import DeclBridge.Text.Basic
import DeclBridge.Text.Word

/-!
Readers take a text apart from the left: each answers with what it found and the text that is left,
or refuses. Two drivers apply a reader all along a text: `occurrences` lists the places where it
succeeds, and `replaceAll` puts other text there.
-/

namespace DeclBridge.Text

/-- A nonempty run of characters of one class, as long as possible. -/
def run? (member : Char → Bool) (text : Text) : Option (Text × Text) :=
  match text.takeWhile member with
  | [] => none
  | found => some (found, text.dropWhile member)

theorem run?_eq_some_iff {member : Char → Bool} {text found rest : Text} :
    run? member text = some (found, rest) ↔
      found ≠ [] ∧ text.takeWhile member = found ∧ text.dropWhile member = rest := by
  unfold run?
  split
  · next empty => grind
  · next empty => grind

theorem length_run? {member : Char → Bool} {text found rest : Text}
    (h : run? member text = some (found, rest)) :
    found.length + rest.length = text.length ∧ rest.length < text.length := by
  obtain ⟨nonempty, rfl, rfl⟩ := run?_eq_some_iff.1 h
  have whole := congrArg List.length (text.takeWhile_append_dropWhile (p := member))
  have := List.length_pos_iff.2 nonempty
  simp only [List.length_append] at whole
  omega

/-- At least one blank, and all that follow it. -/
def gap? (text : Text) : Option Text :=
  (run? isBlank text).map (·.2)

def word? : Text → Option (Text × Text) :=
  run? isWordChar

def isDottedChar (c : Char) : Bool :=
  isWordChar c || c == '.'

/-- Names joined by points. -/
def dotted? : Text → Option (Text × Text) :=
  run? isDottedChar

def literal? (expected : String) (text : Text) : Option Text :=
  behind? expected.toList text

/-- A word that blanks separate from what follows. -/
def keyword? (expected : String) (text : Text) : Option Text := do
  gap? (← literal? expected text)

/-- The first of several keywords that can be read. -/
def oneKeyword? (expected : List String) (text : Text) : Option (String × Text) :=
  expected.findSome? fun word => (keyword? word text).map (word, ·)

/-- A single mark, blanks before it allowed. -/
def mark? (expected : Char) (text : Text) : Option Text :=
  match skipBlanks text with
  | c :: rest => if c = expected then some rest else none
  | [] => none

theorem length_skipBlanks_le (text : Text) : (skipBlanks text).length ≤ text.length :=
  (List.dropWhile_sublist isBlank).length_le

theorem length_mark? {expected : Char} {text rest : Text} (h : mark? expected text = some rest) :
    rest.length < text.length := by
  have skipped := length_skipBlanks_le text
  unfold mark? at h
  split at h
  · next c more same =>
    simp only [same, List.length_cons] at skipped
    split at h
    · obtain rfl := Option.some.inj h
      omega
    · contradiction
  · contradiction

/-- Repeats a reader for as long as it succeeds and makes the text shorter. -/
def many (read : Text → Option (α × Text)) (text : Text) : List α × Text :=
  match read text with
  | none => ([], text)
  | some (found, rest) =>
    if rest.length < text.length then
      let (more, last) := many read rest
      (found :: more, last)
    else ([], text)
termination_by text.length

/-- The result of a reader at the first place where it succeeds. -/
def firstMatch? (read : Text → Option (α × Text)) : Text → Option α
  | [] => none
  | c :: rest =>
    match read (c :: rest) with
    | some (found, _) => some found
    | none => firstMatch? read rest

/-- A place where a reader succeeded: the offsets around it, the result, and the text after it. -/
structure Occurrence (α : Type) where
  start : Nat
  stop : Nat
  found : α
  rest : Text

/-- A reader that may also look at the character before its text. -/
abbrev Lookbehind (α : Type) := Option Char → Text → Option (α × Text)

/-- All places from left to right, none overlapping an earlier one. The text starts at `offset`,
behind the character `before`. -/
def occurrencesFrom (read : Lookbehind α) (offset : Nat) (before : Option Char) :
    Text → List (Occurrence α)
  | [] => []
  | c :: cs =>
    match read before (c :: cs) with
    | none => occurrencesFrom read (offset + 1) (some c) cs
    | some (found, rest) =>
      if rest.length ≤ cs.length then
        let used := (c :: cs).take (cs.length + 1 - rest.length)
        ⟨offset, offset + used.length, found, rest⟩ ::
          occurrencesFrom read (offset + used.length) used.getLast? rest
      else occurrencesFrom read (offset + 1) (some c) cs
termination_by text => text.length
decreasing_by all_goals simp; try omega

def occurrences (read : Lookbehind α) (text : Text) : List (Occurrence α) :=
  occurrencesFrom read 0 none text

/-- Replaces what a reader accepts by the text it answers with, and keeps everything else. -/
def replaceAll (read : Text → Option (Text × Text)) : Text → Text
  | [] => []
  | c :: cs =>
    match read (c :: cs) with
    | none => c :: replaceAll read cs
    | some (replacement, rest) =>
      if rest.length ≤ cs.length then replacement ++ replaceAll read rest
      else c :: replaceAll read cs
termination_by text => text.length
decreasing_by all_goals simp; try omega

/-- No word character stands directly before, so a name can start here. -/
def atBoundary (before : Option Char) : Bool :=
  !before.any isWordChar

end DeclBridge.Text
