import DeclBridge.Number.Literal
import DeclBridge.Settings.TomlTree

/-!
Reading TOML. The grammar is that of version 1.0: comments, tables, arrays of tables, dotted keys,
strings of all four kinds, numbers, truth values, dates and times, arrays, and inline tables. Line
breaks are plain line feeds.
-/

namespace DeclBridge.Settings.Toml

open Text

inductive Fault where
  | malformed
  /-- A decimal whole number with too many digits. -/
  | oversized
deriving DecidableEq, Repr

/-- A reader that succeeds or finds the document malformed. -/
def required (found : Option α) : Except Fault α :=
  found.elim (.error .malformed) .ok

def skipSpaces (text : Text) : Text :=
  text.dropWhile fun c => c = ' ' || c = '\t'

def skipSpacesAndLines (text : Text) : Text :=
  text.dropWhile fun c => c = ' ' || c = '\t' || c = '\n'

/-- Control characters stand nowhere in a document, the tab apart. -/
def isForbidden (c : Char) : Bool :=
  (c.toNat < 32 || c.toNat = 127) && c ≠ '\t'

/-- The text behind a comment, which leaves the line feed in place. -/
def skipComment (text : Text) : Except Fault Text :=
  match text with
  | '#' :: rest =>
    if (rest.takeWhile (· ≠ '\n')).any isForbidden then .error .malformed
    else .ok (rest.dropWhile (· ≠ '\n'))
  | _ => .ok text

def skipBetween : Nat → Text → Except Fault Text
  | 0, text => .ok text
  | fuel + 1, text => do
    let spaces := skipSpacesAndLines text
    let rest ← skipComment spaces
    if rest.length = text.length then pure rest else skipBetween fuel rest

def isBareKeyChar (c : Char) : Bool :=
  c.isAlphanum || c = '-' || c = '_'

def hexDigit? (c : Char) : Option Nat :=
  if c.isDigit then some (c.toNat - '0'.toNat)
  else if 'a' ≤ c && c ≤ 'f' then some (c.toNat - 'a'.toNat + 10)
  else if 'A' ≤ c && c ≤ 'F' then some (c.toNat - 'A'.toNat + 10)
  else none

/-- The character with a number of exactly so many hexadecimal digits. -/
def hexChar? (length : Nat) (text : Text) : Option (Char × Text) := do
  let digits ← (text.take length).mapM hexDigit?
  let point := Number.ofDigits 16 digits
  if digits.length = length && (point < 0xd800 || (0xdfff < point && point < 0x110000)) then
    some (Char.ofNat point, text.drop length)
  else none

/-- The character that a backslash and the text behind it stand for. -/
def escape? : Text → Option (Char × Text)
  | 'b' :: rest => some ('\x08', rest)
  | 't' :: rest => some ('\t', rest)
  | 'n' :: rest => some ('\n', rest)
  | 'f' :: rest => some ('\x0c', rest)
  | 'r' :: rest => some ('\r', rest)
  | '"' :: rest => some ('"', rest)
  | '\\' :: rest => some ('\\', rest)
  | 'u' :: rest => hexChar? 4 rest
  | 'U' :: rest => hexChar? 8 rest
  | _ => none

/-- The text behind a backslash that ends a line. Nothing but spaces may stand before the line feed,
and all spaces and line feeds behind it are skipped as well. -/
def afterLineEnd? (text : Text) : Option Text :=
  match skipSpaces text with
  | '\n' :: rest => some (skipSpacesAndLines rest)
  | [] => if text.isEmpty then none else some []
  | _ => none

/-- A string in double quotes, from behind the opening quotes on. -/
def basicString (isMultiline : Bool) : Nat → Text → Except Fault (Text × Text)
  | 0, _ | _, [] => .error .malformed
  | fuel + 1, '\\' :: rest =>
    match if isMultiline then afterLineEnd? rest else none with
    | some rest => basicString isMultiline fuel rest
    | none => do
      let (c, rest) ← required (escape? rest)
      let (more, rest) ← basicString isMultiline fuel rest
      pure (c :: more, rest)
  | fuel + 1, '"' :: rest =>
    match isMultiline, rest with
    | false, _ => .ok ([], rest)
    | true, '"' :: '"' :: rest => .ok ([], rest)
    | true, _ => do
      let (more, rest) ← basicString isMultiline fuel rest
      pure ('"' :: more, rest)
  | fuel + 1, c :: rest => do
    if isForbidden c && !(isMultiline && c = '\n') then throw .malformed
    let (more, rest) ← basicString isMultiline fuel rest
    pure (c :: more, rest)

/-- A string in single quotes, from behind the opening quotes on. Nothing is escaped. -/
def literalString (isMultiline : Bool) : Text → Except Fault (Text × Text)
  | [] => .error .malformed
  | '\'' :: rest =>
    match isMultiline, rest with
    | false, _ => .ok ([], rest)
    | true, '\'' :: '\'' :: rest => .ok ([], rest)
    | true, _ => do
      let (more, rest) ← literalString isMultiline rest
      pure ('\'' :: more, rest)
  | c :: rest => do
    if isForbidden c && !(isMultiline && c = '\n') then throw .malformed
    let (more, rest) ← literalString isMultiline rest
    pure (c :: more, rest)

/-- Up to two further quotes before the closing ones belong to the string. -/
def trailingQuotes (quote : Char) (text : Text) : Text × Text :=
  match text with
  | a :: b :: rest =>
    if a = quote && b = quote then ([a, b], rest)
    else if a = quote then ([a], b :: rest)
    else ([], text)
  | [a] => if a = quote then ([a], []) else ([], text)
  | [] => ([], [])

/-- A line feed directly behind the opening quotes does not belong to the string. -/
def skipLineFeed : Text → Text
  | '\n' :: rest => rest
  | text => text

/-- Any string, from its first quote on. -/
def string (text : Text) : Except Fault (Text × Text) :=
  match text with
  | '"' :: '"' :: '"' :: rest => do
    let (content, rest) ← basicString true (rest.length + 1) (skipLineFeed rest)
    let (quotes, rest) := trailingQuotes '"' rest
    pure (content ++ quotes, rest)
  | '\'' :: '\'' :: '\'' :: rest => do
    let (content, rest) ← literalString true (skipLineFeed rest)
    let (quotes, rest) := trailingQuotes '\'' rest
    pure (content ++ quotes, rest)
  | '"' :: rest => basicString false (rest.length + 1) rest
  | '\'' :: rest => literalString false rest
  | _ => .error .malformed

/-- One part of a key: bare, or a string on one line. -/
def keyPart (text : Text) : Except Fault (Text × Text) :=
  match text with
  | '"' :: rest => basicString false (rest.length + 1) rest
  | '\'' :: rest => literalString false rest
  | _ => required (run? isBareKeyChar text)

/-- Parts of a key that follow points. -/
def moreKeyParts : Nat → Text → Except Fault (KeyPath × Text)
  | 0, text => .ok ([], text)
  | fuel + 1, text =>
    match skipSpaces text with
    | '.' :: rest => do
      let (part, rest) ← keyPart (skipSpaces rest)
      let (more, rest) ← moreKeyParts fuel rest
      pure (part :: more, rest)
    | rest => .ok ([], rest)

def key (text : Text) : Except Fault (KeyPath × Text) := do
  let (part, rest) ← keyPart text
  let (more, rest) ← moreKeyParts rest.length rest
  pure (part :: more, rest)

def field? (length least greatest : Nat) (text : Text) : Option (Nat × Text) := do
  let digits ← (text.take length).mapM Number.asciiDigit?
  let value := Number.ofDigits 10 digits
  if digits.length = length && least ≤ value && value ≤ greatest then
    some (value, text.drop length)
  else none

/-- Hours, minutes and seconds, and possibly a fraction. -/
def afterTime? (text : Text) : Option Text := do
  let (_, rest) ← field? 2 0 23 text
  let (_, rest) ← field? 2 0 59 (← literal? ":" rest)
  let (_, rest) ← field? 2 0 59 (← literal? ":" rest)
  match rest with
  | '.' :: fraction => pure (((run? Char.isDigit fraction).map (·.2)).getD rest)
  | _ => pure rest

/-- The distance from universal time, if any. -/
def skipZone (text : Text) : Text :=
  match text with
  | 'Z' :: rest | 'z' :: rest => rest
  | c :: rest =>
    let behind := do
      let (_, rest) ← field? 2 0 23 rest
      let (_, rest) ← field? 2 0 59 (← literal? ":" rest)
      pure rest
    if c = '+' || c = '-' then behind.getD text else text
  | [] => []

def isLeapYear (year : Nat) : Bool :=
  year % 4 == 0 && (year % 100 != 0 || year % 400 == 0)

def daysIn (year month : Nat) : Nat :=
  if month = 2 then if isLeapYear year then 29 else 28
  else if month ∈ [4, 6, 9, 11] then 30
  else 31

/-- A date, possibly with a time. One that no calendar has makes the document malformed. -/
def date? (text : Text) : Option (Except Fault Text) := do
  let (year, rest) ← field? 4 0 9999 text
  let (month, rest) ← field? 2 1 12 (← literal? "-" rest)
  let (day, rest) ← field? 2 1 31 (← literal? "-" rest)
  let rest :=
    match rest with
    | c :: time =>
      if c = 'T' || c = 't' || c = ' ' then ((afterTime? time).map skipZone).getD rest else rest
    | [] => []
  if year = 0 || daysIn year month < day then some (.error .malformed) else some (.ok rest)

/-- A whole number in one of the bases that a letter behind a zero announces. -/
def basedNumber? (text : Text) : Option (Value × Text) := do
  let read (base : Nat) (digit? : Char → Option Nat) (rest : Text) := do
    let (digits, rest) ← Number.digits? digit? rest
    pure (Value.int (Number.ofDigits base digits), rest)
  let below (limit : Nat) (c : Char) := (Number.asciiDigit? c).filter (· < limit)
  match text with
  | '0' :: 'x' :: rest => read 16 hexDigit? rest
  | '0' :: 'o' :: rest => read 8 (below 8) rest
  | '0' :: 'b' :: rest => read 2 (below 2) rest
  | _ => none

/-- The digits before the point. A zero stands alone. -/
def wholePart? (text : Text) : Option (List Nat × Text) :=
  match text with
  | '0' :: rest => some ([0], rest)
  | _ => Number.digits? Number.asciiDigit? text

/-- A decimal number, of the format binary64 when it has a fraction or an exponent. -/
def decimalNumber? (text : Text) : Option (Except Fault (Value × Text)) := do
  let (isNegative, unsigned) := Number.sign text
  let (whole, rest) ← wholePart? unsigned
  let (fraction, behind) :=
    match rest with
    | '.' :: digits => (Number.digits? Number.asciiDigit? digits).getD ([], rest)
    | _ => ([], rest)
  let (power, behind) := Number.exponent Number.asciiDigit? behind
  if behind.length < rest.length then
    let digits := Number.ofDigits 10 (whole ++ fraction)
    let number := Binary64.ofDecimal isNegative digits (power - fraction.length)
    some (.ok (.float number, behind))
  else if whole.length ≤ Number.greatestLength then
    some (.ok (.int (Number.signed isNegative (Number.ofDigits 10 whole)), rest))
  else some (.error .oversized)

/-- The numbers that have no digits. -/
def wordNumber? (text : Text) : Option (Value × Text) := do
  let (isNegative, rest) := Number.sign text
  ((literal? "inf" rest).map (Value.float (.infinite isNegative), ·)) <|>
    ((literal? "nan" rest).map (Value.float .nan, ·))

/-- A truth value, a date, a time or a number. -/
def plainValue (text : Text) : Except Fault (Value × Text) :=
  match literal? "true" text, literal? "false" text, date? text, afterTime? text with
  | some rest, _, _, _ => .ok (.bool true, rest)
  | _, some rest, _, _ => .ok (.bool false, rest)
  | _, _, some rest, _ => do
    let rest ← rest
    pure (.moment (text.take (text.length - rest.length)), rest)
  | _, _, _, some rest => .ok (.moment (text.take (text.length - rest.length)), rest)
  | none, none, none, none =>
    match basedNumber? text, decimalNumber? text, wordNumber? text with
    | some found, _, _ => .ok found
    | none, some found, _ => found
    | none, none, some found => .ok found
    | none, none, none => .error .malformed

/-- Adds an entry to an inline table, where no value is extended later. -/
def extendInline (table : Table) (frozen : List KeyPath) (keys : KeyPath) (value : Value) :
    Except Fault Table := do
  if frozen.any (·.isPrefixOf keys) then throw .malformed
  required (updateAt false (addNew (keys.getLast?.getD []) value) keys.dropLast table)

mutual

def value : Nat → Text → Except Fault (Value × Text)
  | 0, _ => .error .malformed
  | fuel + 1, text =>
    match text with
    | '"' :: _ | '\'' :: _ => do
      let (content, rest) ← string text
      pure (.string content, rest)
    | '[' :: rest => do
      let rest ← skipBetween rest.length rest
      let (items, rest) ← arrayItems fuel rest
      pure (.list items, rest)
    | '{' :: rest =>
      match skipSpaces rest with
      | '}' :: rest => .ok (.table [], rest)
      | rest => do
        let (entries, rest) ← inlineEntries fuel [] [] rest
        pure (.table entries, rest)
    | _ => plainValue text

/-- The items of an array and its closing bracket, which a comma may precede. -/
def arrayItems : Nat → Text → Except Fault (List Value × Text)
  | 0, _ => .error .malformed
  | fuel + 1, text =>
    match text with
    | ']' :: rest => .ok ([], rest)
    | _ => do
      let (item, rest) ← value fuel text
      let rest ← skipBetween rest.length rest
      match rest with
      | ',' :: rest =>
        let rest ← skipBetween rest.length rest
        let (items, rest) ← arrayItems fuel rest
        pure (item :: items, rest)
      | ']' :: rest => pure ([item], rest)
      | _ => throw .malformed

/-- The entries of an inline table and its closing brace, which no comma may precede. -/
def inlineEntries : Nat → Table → List KeyPath → Text → Except Fault (Table × Text)
  | 0, _, _, _ => .error .malformed
  | fuel + 1, table, frozen, text => do
    let (keys, rest) ← key text
    let (found, rest) ← value fuel (skipSpaces (← required (literal? "=" rest)))
    let table ← extendInline table frozen keys found
    match skipSpaces rest with
    | '}' :: rest => pure (table, rest)
    | ',' :: rest =>
      let frozen :=
        match found with
        | .table _ | .list _ => keys :: frozen
        | _ => frozen
      inlineEntries fuel table frozen (skipSpaces rest)
    | _ => throw .malformed

end

def assignment (document : Document) (text : Text) : Except Fault (Document × Text) := do
  let (keys, rest) ← key text
  let afterEquals := skipSpaces (← required (literal? "=" rest))
  let (found, rest) ← value (2 * afterEquals.length + 1) afterEquals
  pure (← required (document.assign keys found), rest)

/-- The header of a table or of an entry of an array of tables. -/
def tableHeader (document : Document) (text : Text) : Except Fault (Document × Text) :=
  match text with
  | '[' :: rest => do
    let (path, rest) ← key (skipSpaces rest)
    let document ← required (document.openArrayEntry path)
    pure (document, ← required (literal? "]]" rest))
  | _ => do
    let (path, rest) ← key (skipSpaces text)
    let document ← required (document.openTable path)
    pure (document, ← required (literal? "]" rest))

/-- One statement, which may also be blank. -/
def statement (document : Document) (text : Text) : Except Fault (Document × Text) :=
  match text with
  | '[' :: rest => tableHeader document rest
  | c :: _ =>
    if isBareKeyChar c || c = '"' || c = '\'' then assignment document text
    else if c = '\n' || c = '#' then .ok (document, text)
    else .error .malformed
  | [] => .ok (document, text)

def statements : Nat → Document → Text → Except Fault Document
  | 0, document, _ => .ok document
  | fuel + 1, document, text => do
    let (document, rest) ← statement document (skipSpaces text)
    match ← skipComment (skipSpaces rest) with
    | [] => pure document
    | '\n' :: rest => statements fuel document rest
    | _ => throw .malformed

def parse (text : Text) : Except Fault Table :=
  (statements (text.length + 1) {} text).map (·.table)

end DeclBridge.Settings.Toml
