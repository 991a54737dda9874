import DeclBridge.Number.Literal
import DeclBridge.Settings.Validation

/-!
A validator that admits values of other types where they can only mean one thing: numbers and words
for truth values, texts for numbers.
-/

namespace DeclBridge.Settings

open Text

def trueWords : List Text :=
  ["1", "on", "t", "true", "y", "yes"].map String.toList

def falseWords : List Text :=
  ["0", "off", "f", "false", "n", "no"].map String.toList

def notBoolean : Misfit :=
  { message := "Input should be a valid boolean".toList }

def unclearBoolean : Misfit :=
  { message := "Input should be a valid boolean, unable to interpret input".toList }

def oversizedInteger : Misfit :=
  { message :=
      "Unable to parse input string as an integer, exceeded maximum size".toList }

/-- A number of 64 bits with a sign, other than the least one. -/
def isMachineInt (number : Int) : Bool :=
  number.natAbs < 9223372036854775808

/-- Whole numbers other than zero and one are unclear, as long as they are of a usual size. -/
def boolOfInt (number : Int) : Except Misfit Bool :=
  if number = 0 then .ok false
  else if number = 1 then .ok true
  else .error (if isMachineInt number then unclearBoolean else notBoolean)

def readBool : Value → Except Misfit Bool
  | .bool value => .ok value
  | .int number => boolOfInt number
  | .float number =>
    match number.toInt? with
    | some number => boolOfInt number
    | none => .error notBoolean
  | .string text =>
    let word := text.map Char.toLower
    if trueWords.contains word then .ok true
    else if falseWords.contains word then .ok false
    else .error unclearBoolean
  | _ => .error notBoolean

def readOptionalBool : Value → Except Misfit (Option Bool)
  | .null => .ok none
  | value => (readBool value).map some

/-- White space as Unicode defines it, so without the separators from U+001C on. -/
def isSpace (c : Char) : Bool :=
  isBlank c && !(28 ≤ c.toNat && c.toNat ≤ 31)

/-- A whole number written in ASCII digits, where a fraction of zeros does no harm. -/
def intOfText? (text : Text) : Option Int := do
  let (isNegative, text) := Number.sign text
  let (digits, rest) ← Number.digits? Number.asciiDigit? text
  let isWhole :=
    match rest with
    | [] => true
    | '.' :: zeros => !zeros.isEmpty && zeros.all (· = '0')
    | _ => false
  if isWhole then some (Number.signed isNegative (Number.ofDigits 10 digits)) else none

def readInt : Value → Except Misfit Int
  | .bool value => .ok (if value then 1 else 0)
  | .int number => .ok number
  | .float number =>
    match number.toInt? with
    | some number => if isMachineInt number then .ok number else .error oversizedInteger
    | none =>
      let message :=
        if number.isFinite then
          "Input should be a valid integer, got a number with a fractional part"
        else "Input should be a finite number"
      .error { message := message.toList }
  | .string text =>
    let text := ((text.dropWhile isSpace).reverse.dropWhile isSpace).reverse
    if Number.greatestLength < text.length then .error oversizedInteger
    else
      match intOfText? text with
      | some number => .ok number
      | none =>
        let message := "Input should be a valid integer, unable to parse string as an integer"
        .error { message := message.toList }
  | _ => .error { message := "Input should be a valid integer".toList }

def readNat (value : Value) : Except Misfit Nat := do
  let number ← readInt value
  if number < 0 then
    throw { message := "Input should be greater than or equal to 0".toList }
  pure number.toNat

/-- The items of a list from some index on, which must all be texts. -/
def readTexts (index : Nat) : List Value → Except Misfit (List Text)
  | [] => .ok []
  | .string text :: rest => do
    pure (text :: (← readTexts (index + 1) rest))
  | _ :: _ => .error { message := "Input should be a valid string".toList, within := [ofNat index] }

def readTextList : Value → Except Misfit (List Text)
  | .list items => readTexts 0 items
  | _ => .error { message := "Input should be a valid list".toList }

def Validator.coercing : Validator where
  bool := readBool
  optionalBool := readOptionalBool
  natural := readNat
  texts := readTextList

end DeclBridge.Settings
