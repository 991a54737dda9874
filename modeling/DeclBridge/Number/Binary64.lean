/-!
Numbers of the format binary64 in exact arithmetic: the nearest one to a decimal number, and the
whole number one is equal to.
-/

namespace DeclBridge

/-- A finite number is `mantissa * 2 ^ exponent` with its sign, where the mantissa has 53 bits or
the exponent is the least one. -/
inductive Binary64 where
  | finite (isNegative : Bool) (mantissa : Nat) (exponent : Int)
  | infinite (isNegative : Bool)
  | nan
deriving DecidableEq, Repr

namespace Binary64

def leastExponent : Int := -1074

def greatestExponent : Int := 971

/-- The nearest whole number to a quotient. A tie goes to the even neighbour. -/
def roundQuotient (num den : Nat) : Nat :=
  let below := num / den
  let rest := 2 * (num % den)
  if den < rest || (rest == den && below % 2 == 1) then below + 1 else below

/-- Multiplies by a power of two whose exponent may be negative, as a quotient. -/
def scaled (num den : Nat) (exponent : Int) : Nat × Nat :=
  if exponent < 0 then (num, den * Nat.pow 2 (-exponent).toNat)
  else (num * Nat.pow 2 exponent.toNat, den)

/-- The exponent of the greatest power of two that does not exceed a positive quotient. -/
def floorLog2 (num den : Nat) : Int :=
  let estimate : Int := num.log2 - den.log2
  let (num, den) := scaled num den (-estimate)
  if num < den then estimate - 1 else estimate

/-- The nearest number to a quotient of natural numbers. -/
def ofQuotient (isNegative : Bool) (num den : Nat) : Binary64 :=
  if num = 0 then finite isNegative 0 leastExponent
  else
    let exponent := max (floorLog2 num den - 52) leastExponent
    let (num, den) := scaled num den (-exponent)
    let mantissa := roundQuotient num den
    let (mantissa, exponent) :=
      if mantissa = Nat.pow 2 53 then (Nat.pow 2 52, exponent + 1) else (mantissa, exponent)
    if greatestExponent < exponent then infinite isNegative
    else finite isNegative mantissa exponent

/-- The nearest number to `digits * 10 ^ exponent`. Far outside of the range, where the powers would
be needlessly long, the answer is known without computing them. -/
def ofDecimal (isNegative : Bool) (digits : Nat) (exponent : Int) : Binary64 :=
  let magnitude := (Nat.toDigits 10 digits).length + exponent
  if digits = 0 || magnitude < -400 then finite isNegative 0 leastExponent
  else if 400 < magnitude then infinite isNegative
  else if exponent < 0 then ofQuotient isNegative digits (Nat.pow 10 (-exponent).toNat)
  else ofQuotient isNegative (digits * Nat.pow 10 exponent.toNat) 1

def isFinite : Binary64 → Bool
  | finite .. => true
  | _ => false

def isZero : Binary64 → Bool
  | finite _ mantissa _ => mantissa == 0
  | _ => false

/-- The whole number it is equal to, if there is one. -/
def toInt? : Binary64 → Option Int
  | finite isNegative mantissa exponent =>
    let (num, den) := scaled mantissa 1 exponent
    if num % den = 0 then some (if isNegative then -(num / den : Nat) else (num / den : Nat))
    else none
  | _ => none

end Binary64
end DeclBridge
