import DeclBridge.Settings.Toml

/-!
Keys that are no texts, which settings have when they are given as a sequence of pairs: which of
them are the same, in which order they come, and how they are shown.
-/

namespace DeclBridge.Settings

open Text

/-- Keys of different kinds have no order. -/
inductive KeyKind where
  | text
  | number
  | date
  | time
  | localTime
  | zonedTime
deriving DecidableEq, Repr

/-- Where a key stands among those of its kind. What is infinite comes before or after all else. -/
structure Rank where
  extent : Int := 0
  amount : Int := 0
deriving DecidableEq, Repr

def Rank.notAfter (a b : Rank) : Bool :=
  a.extent < b.extent || (a.extent == b.extent && a.amount ≤ b.amount)

/-! Dates and times -/

/-- A date, a time, or both. -/
structure Moment where
  /-- Year, month and day, as they are written. -/
  day : Option Text := none
  /-- Hours, minutes and seconds, as they are written. -/
  clock : Option Text := none
  /-- Millionths of a second. -/
  fraction : Nat := 0
  /-- How many minutes the clock is ahead of universal time. -/
  zone : Option Int := none

namespace Moment

def number (digits : Text) : Nat :=
  Number.ofDigits 10 (digits.filterMap Number.asciiDigit?)

def padded (length n : Nat) : Text :=
  let digits := ofNat n
  List.replicate (length - digits.length) '0' ++ digits

def readZone : Text → Option Int
  | [] => none
  | c :: rest =>
    let minutes : Int := 60 * number (rest.take 2) + number (rest.drop 3)
    if c = 'Z' || c = 'z' then some 0
    else if c = '-' then some (-minutes)
    else some minutes

/-- A fraction of a second has six digits. Any further ones are dropped. -/
def ofClock (text : Text) : Moment :=
  let (digits, zone) :=
    match text.drop 8 with
    | '.' :: rest => rest.span Char.isDigit
    | rest => ([], rest)
  { clock := some (text.take 8)
    fraction := number ((digits ++ List.replicate 6 '0').take 6)
    zone := readZone zone }

/-- The moment that a document gives in this form. -/
def ofText (text : Text) : Moment :=
  match text.drop 4, text.drop 10 with
  | '-' :: _, [] => { day := some text }
  | '-' :: _, _ :: clock => { ofClock clock with day := some (text.take 10) }
  | _, _ => ofClock text

def kind (moment : Moment) : KeyKind :=
  match moment.day, moment.clock, moment.zone with
  | some _, none, _ => .date
  | none, _, _ => .time
  | some _, some _, none => .localTime
  | some _, some _, some _ => .zonedTime

/-- How many days have passed since before the first year. -/
def days (day : Text) : Nat :=
  let year := number (day.take 4)
  let month := number ((day.drop 5).take 2)
  let years := year - 1
  let months := (List.range (month - 1)).foldl
    (fun total earlier => total + Toml.daysIn year (earlier + 1)) 0
  365 * years + years / 4 - years / 100 + years / 400 + months + number (day.drop 8)

def seconds (clock : Text) : Nat :=
  3600 * number (clock.take 2) + 60 * number ((clock.drop 3).take 2) + number (clock.drop 6)

/-- Millionths of a second, in universal time where the zone is known. -/
def amount (moment : Moment) : Int :=
  let here : Int := 86400 * moment.day.elim 0 days + moment.clock.elim 0 seconds
  1000000 * (here - 60 * moment.zone.getD 0) + moment.fraction

def text (moment : Moment) : Text :=
  let fraction := if moment.fraction = 0 then [] else '.' :: padded 6 moment.fraction
  let zone := moment.zone.elim [] fun minutes =>
    (if minutes < 0 then '-' else '+') ::
      (padded 2 (minutes.natAbs / 60) ++ ':' :: padded 2 (minutes.natAbs % 60))
  let clock := moment.clock.map (· ++ fraction ++ zone)
  [' '].intercalate (moment.day.toList ++ clock.toList)

end Moment

/-! Keys -/

namespace Value

def keyKind : Value → KeyKind
  | bool _ | int _ | float _ => .number
  | moment text => (Moment.ofText text).kind
  | _ => .text

/-- What all numbers are multiples of is as small as a number of the format binary64 can be. -/
def wholeRank (number : Int) : Rank :=
  { amount := number * Int.pow 2 (-Binary64.leastExponent).toNat }

def keyRank : Value → Rank
  | bool value => wholeRank (if value then 1 else 0)
  | int number => wholeRank number
  | float (.finite isNegative mantissa exponent) =>
    let magnitude := mantissa * Nat.pow 2 (exponent - Binary64.leastExponent).toNat
    { amount := Number.signed isNegative magnitude }
  | float (.infinite isNegative) => { extent := if isNegative then -1 else 1 }
  | float .nan => { extent := 2 }
  | moment text => { amount := (Moment.ofText text).amount }
  | _ => {}

def isNan : Value → Bool
  | float .nan => true
  | _ => false

/-- Keys that are equal are one key. What is not a number is equal to nothing. -/
def isSameKey (a b : Value) : Bool :=
  a.keyKind = b.keyKind && a.keyRank = b.keyRank && !a.isNan

/-- How a key that is no text is shown. -/
def keyText : Value → Text
  | bool value => if value then "True".toList else "False".toList
  | int number => (if number < 0 then ['-'] else []) ++ ofNat number.natAbs
  | float number => number.text
  | moment text => (Moment.ofText text).text
  | _ => []

end Value
end DeclBridge.Settings
