import DeclBridge.Text.Blank

/-!
Text as a list of characters, so that a reader is a function on lists and an offset counts code
points. Trimming, splitting into words and lines, and cutting at a character.
-/

namespace DeclBridge

abbrev Text := List Char

namespace Text

def skipBlanks (text : Text) : Text :=
  text.dropWhile isBlank

def trimEnd (text : Text) : Text :=
  (text.reverse.dropWhile isBlank).reverse

def trim (text : Text) : Text :=
  trimEnd (skipBlanks text)

theorem length_trim_le (text : Text) : (trim text).length ≤ text.length := by
  have back := (List.dropWhile_sublist isBlank (l := (skipBlanks text).reverse)).length_le
  have front := (List.dropWhile_sublist isBlank (l := text)).length_le
  simp only [trim, trimEnd, List.length_reverse, skipBlanks] at *
  omega

def isBlankText (text : Text) : Bool :=
  text.all isBlank

/-- The maximal runs of characters that are not blank. -/
def words (text : Text) : List Text :=
  (text.splitOnP isBlank).filter (!·.isEmpty)

/-- Leaves one space between words and none around them, so the result stays on one line. -/
def collapse (text : Text) : Text :=
  [' '].intercalate (words text)

/-- The text behind an expected start. -/
def behind? : Text → Text → Option Text
  | [], text => some text
  | _ :: _, [] => none
  | a :: start, b :: text => if a = b then behind? start text else none

theorem behind?_eq_some_iff {start text rest : Text} :
    behind? start text = some rest ↔ text = start ++ rest := by
  fun_induction behind? start text with
  | case1 text => simp
  | case2 => simp
  | case3 start a text ih => simpa using ih
  | case4 a start b text different =>
    simp only [reduceCtorEq, List.cons_append, List.cons.injEq, false_iff]
    exact fun same => different same.1.symm

/-- The text before and after the first occurrence of `mark`. -/
def cut (mark : Char) : Text → Option (Text × Text)
  | [] => none
  | c :: rest =>
    if c = mark then some ([], rest)
    else (cut mark rest).map fun (before, after) => (c :: before, after)

/-- The text before and after the last occurrence of `mark`. -/
def cutLast (mark : Char) (text : Text) : Option (Text × Text) :=
  (cut mark text.reverse).map fun (after, before) => (before.reverse, after.reverse)

/-- What follows the last `mark`, or everything when there is none. -/
def afterLast (mark : Char) (text : Text) : Text :=
  (text.reverse.takeWhile (· ≠ mark)).reverse

/-- The lines, without their breaks. A carriage return and the line feed after it are one break, and
a break at the very end starts no further line. -/
def lines : Text → List Text
  | [] => []
  | '\r' :: '\n' :: rest => [] :: lines rest
  | c :: rest =>
    if isLineBreak c then [] :: lines rest
    else
      match lines rest with
      | [] => [[c]]
      | line :: more => (c :: line) :: more

def unlines (parts : List Text) : Text :=
  ['\n'].intercalate parts

/-- Paragraphs are separated by one empty line. -/
def unparagraphs (parts : List Text) : Text :=
  ['\n', '\n'].intercalate parts

def commaSpaced (parts : List Text) : Text :=
  [',', ' '].intercalate parts

/-- Reads like a decimal number without a sign. -/
def ofNat (n : Nat) : Text :=
  Nat.toDigits 10 n

/-- Order by code point, as for words in a dictionary. -/
def precedes (a b : Text) : Bool :=
  a.lex b fun x y => x.toNat < y.toNat

end Text
end DeclBridge
