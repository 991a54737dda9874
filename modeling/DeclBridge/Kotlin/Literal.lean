import DeclBridge.Text.Reader
import DeclBridge.Text.Digit

/-!
String and character literals: where one ends, how its contents are blanked, and which default
values of parameters are literals.
-/

namespace DeclBridge.Kotlin

/-- The text behind the closing quote of a literal on one line. A backslash takes the next character
with it, which must not be a line feed. -/
def afterQuoted? (quote : Char) : Text → Option Text
  | [] => none
  | ['\\'] => none
  | '\\' :: c :: rest => if c = '\n' then none else afterQuoted? quote rest
  | c :: rest =>
    if c = quote then some rest else if c = '\n' then none else afterQuoted? quote rest

/-- The text behind the first three quotes in a row. -/
def afterRaw? : Text → Option Text
  | [] => none
  | '"' :: '"' :: '"' :: rest => some rest
  | _ :: rest => afterRaw? rest

def string? : Text → Option (Text × Text)
  | '"' :: rest =>
    (afterQuoted? '"' rest).map fun after => ('"' :: rest.take (rest.length - after.length), after)
  | _ => none

/-- Blanks keep line breaks, so the text keeps its lines. -/
def blankOut (inner : Text) : Text :=
  inner.map fun c => if c = '\n' then c else ' '

/-- Blanks what stands between `quotes` quotes at either end of the literal that leads from `text`
to `after`. -/
def blankLiteral (quotes : Nat) (text after : Text) : Text :=
  let literal := text.take (text.length - after.length)
  let inner := (literal.drop quotes).take (literal.length - 2 * quotes)
  literal.take quotes ++ blankOut inner ++ literal.drop (literal.length - quotes)

/-- A raw string, else a string, else a character literal, with its contents blanked. Three quotes
that are never closed are read as an empty string and a quote. -/
def maskedLiteral? (text : Text) : Option (Text × Text) :=
  let raw :=
    match text with
    | '"' :: '"' :: '"' :: rest =>
      (afterRaw? rest).map fun after => (blankLiteral 3 text after, after)
    | _ => none
  let plain (quote : Char) : Option (Text × Text) :=
    match text with
    | c :: rest =>
      if c = quote then
        (afterQuoted? quote rest).map fun after => (blankLiteral 1 text after, after)
      else none
    | [] => none
  raw <|> plain '"' <|> plain '\''

/-- Blanks the contents of all literals. Every offset stays valid. -/
def maskLiterals : Text → Text :=
  Text.replaceAll maskedLiteral?

/-- Digits, then possibly a point and digits. -/
def decimal? (text : Text) : Option (Text × Text) := do
  let (whole, rest) ← Text.run? Text.isDigit text
  match rest with
  | '.' :: fraction =>
    match Text.run? Text.isDigit fraction with
    | some (digits, rest) => some (whole ++ '.' :: digits, rest)
    | none => some (whole, rest)
  | _ => some (whole, rest)

/-- A decimal number with its sign, and the text after it. -/
def signedDecimal? (text : Text) : Option (Text × Text) :=
  match text with
  | '-' :: rest => (decimal? rest).map fun (digits, rest) => ('-' :: digits, rest)
  | _ => decimal? text

def isNumberSuffix (c : Char) : Bool :=
  c = 'L' || c = 'f' || c = 'F'

def isNumber (text : Text) : Bool :=
  match signedDecimal? text with
  | some (_, []) => true
  | some (_, [c]) => isNumberSuffix c
  | _ => false

/-- One string literal and nothing else. Unlike elsewhere it may contain line feeds. -/
def isStringBody : Text → Bool
  | [] => false
  | ['"'] => true
  | ['\\'] => false
  | '\\' :: c :: rest => c ≠ '\n' && isStringBody rest
  | c :: rest => c ≠ '"' && isStringBody rest

def isString : Text → Bool
  | '"' :: rest => isStringBody rest
  | _ => false

/-- Two names joined by a point, as for an entry of an enumeration. -/
def isEntryName (text : Text) : Bool :=
  match Text.cut '.' text with
  | some (owner, entry) =>
    !owner.isEmpty && owner.all Text.isWordChar && !entry.isEmpty && entry.all Text.isWordChar
  | none => false

/-- Literals that are words. -/
def literalWords : List Text :=
  ["null", "true", "false"].map String.toList

def isLiteralDefault (text : Text) : Bool :=
  literalWords.contains text || isNumber text || isString text || isEntryName text

end DeclBridge.Kotlin
