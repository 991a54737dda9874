import DeclBridge.Number.Binary64
import DeclBridge.Text.Case
import DeclBridge.Text.Digit
import DeclBridge.Text.Reader

/-!
Reading numbers: digits with single underscores between them, whole numbers, and decimal numbers
with a fraction and an exponent.
-/

namespace DeclBridge.Number

open Text

/-- A digit below ten in ASCII. -/
def asciiDigit? (c : Char) : Option Nat :=
  if c.isDigit then some (c.toNat - '0'.toNat) else none

/-- Further digits. An underscore needs a digit behind it. -/
def moreDigits (digit? : Char → Option Nat) : Text → List Nat × Text
  | [] => ([], [])
  | '_' :: c :: rest =>
    match digit? c with
    | some digit =>
      let (more, rest) := moreDigits digit? rest
      (digit :: more, rest)
    | none => ([], '_' :: c :: rest)
  | c :: rest =>
    match digit? c with
    | some digit =>
      let (more, rest) := moreDigits digit? rest
      (digit :: more, rest)
    | none => ([], c :: rest)

def digits? (digit? : Char → Option Nat) : Text → Option (List Nat × Text)
  | [] => none
  | c :: rest => do
    let digit ← digit? c
    let (more, rest) := moreDigits digit? rest
    pure (digit :: more, rest)

def ofDigits (base : Nat) (digits : List Nat) : Nat :=
  digits.foldl (fun value digit => base * value + digit) 0

/-- An optional sign, and whether it is a minus. -/
def sign : Text → Bool × Text
  | '-' :: rest => (true, rest)
  | '+' :: rest => (false, rest)
  | text => (false, text)

def signed (isNegative : Bool) (magnitude : Nat) : Int :=
  if isNegative then -(magnitude : Int) else magnitude

/-- The exponent of a decimal number, zero when there is none. -/
def exponent (digit? : Char → Option Nat) (text : Text) : Int × Text :=
  match text with
  | c :: rest =>
    let (isNegative, behind) := sign rest
    match digits? digit? behind with
    | some (digits, behind) =>
      if c = 'e' || c = 'E' then (signed isNegative (ofDigits 10 digits), behind) else (0, text)
    | none => (0, text)
  | [] => (0, text)

/-- More digits than this make no whole number. -/
def greatestLength : Nat := 4300

/-- A whole number that takes up the text, with the digits of any script. -/
def wholeNumber? (text : Text) : Option Int := do
  let (isNegative, text) := sign text
  let (digits, rest) ← digits? digitValue? text
  if rest.isEmpty && digits.length ≤ greatestLength then
    some (signed isNegative (ofDigits 10 digits))
  else none

/-- A decimal number without sign that takes up the text. The digits before or behind the point may
be missing, but not both. -/
def decimal? (isNegative : Bool) (text : Text) : Option Binary64 :=
  let (whole, rest) := (digits? digitValue? text).getD ([], text)
  let (fraction, rest) :=
    match rest with
    | '.' :: behind => (digits? digitValue? behind).getD ([], behind)
    | _ => ([], rest)
  let (power, rest) := exponent digitValue? rest
  if rest.isEmpty && !(whole.isEmpty && fraction.isEmpty) then
    some (Binary64.ofDecimal isNegative (ofDigits 10 (whole ++ fraction)) (power - fraction.length))
  else none

/-- A number of the format binary64 that takes up the text: decimal, infinite, or not a number. -/
def binary64? (text : Text) : Option Binary64 :=
  let (isNegative, text) := sign text
  let word := text.flatMap lowerChar
  if word = "inf".toList || word = "infinity".toList then some (.infinite isNegative)
  else if word = "nan".toList then some .nan
  else decimal? isNegative text

end DeclBridge.Number
