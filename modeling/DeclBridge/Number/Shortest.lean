import DeclBridge.Number.Binary64
import DeclBridge.Text.Basic

/-!
The text of a binary64 number: the fewest digits that read back as the same number, and of those the
nearest. Digits are found on decimal grids, from a coarse one to finer ones; a grid serves as soon
as one of the two neighbours of the number on it lies among the reals that round to the number.
-/

namespace DeclBridge.Binary64

/-- The number `digits * 10 ^ exponent`. -/
structure Decimal where
  digits : Nat
  exponent : Int
deriving DecidableEq, Repr

/-- The reals that round to a number, as multiples of a fourth of its last place. The number itself
is at `4 * mantissa`. Below a power of two the numbers are twice as dense. -/
def lowerBound (mantissa : Nat) (exponent : Int) : Nat :=
  if mantissa = Nat.pow 2 52 && leastExponent < exponent then 4 * mantissa - 1 else 4 * mantissa - 2

def upperBound (mantissa : Nat) : Nat :=
  4 * mantissa + 2

/-- The neighbour of a positive number on the grid of the multiples of `10 ^ grid`, if one reads
back as the number. The bounds themselves do so for even mantissas. Of two neighbours the nearer one
counts, and in the middle the even one. -/
def onGrid? (mantissa : Nat) (exponent grid : Int) : Option Nat :=
  let (scale, unit) := scaled 1 1 (exponent - 2)
  let (scale, unit) :=
    if grid < 0 then (scale * Nat.pow 10 (-grid).toNat, unit)
    else (scale, unit * Nat.pow 10 grid.toNat)
  let value := 4 * mantissa * scale
  let lower := lowerBound mantissa exponent * scale
  let upper := upperBound mantissa * scale
  let readsBack (multiple : Nat) :=
    if mantissa % 2 = 0 then lower ≤ multiple * unit && multiple * unit ≤ upper
    else lower < multiple * unit && multiple * unit < upper
  let below := value / unit
  let nearest := roundQuotient value unit
  if readsBack nearest then some nearest
  else if readsBack below then some below
  else if readsBack (below + 1) then some (below + 1)
  else none

/-- Tries ever finer grids. -/
def firstGrid (mantissa : Nat) (exponent : Int) : Nat → Int → Decimal
  | 0, grid => ⟨roundQuotient (4 * mantissa) 4, grid⟩
  | more + 1, grid =>
    match onGrid? mantissa exponent grid with
    | some digits => ⟨digits, grid⟩
    | none => firstGrid mantissa exponent more (grid - 1)

/-- The shortest decimal for a positive number. The first grid is coarser than the number, and
seventeen digits always suffice. -/
def shortest (mantissa : Nat) (exponent : Int) : Decimal :=
  let bits : Int := mantissa.log2 + 1 + exponent
  firstGrid mantissa exponent 40 (bits * 30103 / 100000 + 1)

/-- The layout of a number: positional where the point falls from four places before the digits to
sixteen places behind the first, otherwise with an exponent of at least two digits. -/
def layout (digits : Text) (point : Int) : Text :=
  let zeros (count : Int) := List.replicate count.toNat '0'
  if -4 < point && point ≤ 16 then
    if point ≤ 0 then "0.".toList ++ zeros (-point) ++ digits
    else if digits.length ≤ point then digits ++ zeros (point - digits.length) ++ ".0".toList
    else digits.take point.toNat ++ '.' :: digits.drop point.toNat
  else
    let power := point - 1
    let places := Text.ofNat power.natAbs
    digits.take 1 ++ (if digits.length = 1 then [] else '.' :: digits.drop 1) ++
      'e' :: (if power < 0 then '-' else '+') :: zeros (2 - places.length) ++ places

def text : Binary64 → Text
  | nan => "nan".toList
  | infinite isNegative => if isNegative then "-inf".toList else "inf".toList
  | finite isNegative mantissa exponent =>
    let magnitude :=
      if mantissa = 0 then "0.0".toList
      else
        let decimal := shortest mantissa exponent
        let digits := Text.ofNat decimal.digits
        layout digits (digits.length + decimal.exponent)
    if isNegative then '-' :: magnitude else magnitude

end DeclBridge.Binary64
