/-! Floating-point numbers of 64 bits as exact values. A finite one is a mantissa below
2^53 times a power of two no smaller than 2^-1074, with the least exponent that fits. -/
namespace LanguageService

inductive Double where
  | finite (negative : Bool) (mantissa : Nat) (exponent : Int)
  | infinite (negative : Bool)
  | notANumber
  deriving DecidableEq, Repr, Inhabited

namespace Double

def leastExponent : Int := -1074

def greatestExponent : Int := 971

def zero (negative : Bool) : Double := .finite negative 0 leastExponent

/-- Rounds a quotient to the nearest integer, a half to the even one. -/
def roundQuotient (num den : Nat) : Nat :=
  let q := num / den
  let twice := 2 * (num % den)
  if twice < den then q
  else if den < twice then q + 1
  else if q % 2 = 0 then q else q + 1

def scaled (num den : Nat) (shift : Int) : Nat × Nat :=
  if 0 ≤ shift then (num * Nat.pow 2 shift.toNat, den)
  else (num, den * Nat.pow 2 (-shift).toNat)

def binaryMagnitude (num den : Nat) : Int :=
  let guess : Int := (num.log2 : Int) - den.log2
  let (n, d) := scaled num den (-guess)
  if d ≤ n then guess else guess - 1

def ofRatio (negative : Bool) (num den : Nat) : Double :=
  if num = 0 then zero negative
  else
    let exponent := max (binaryMagnitude num den - 52) leastExponent
    let (n, d) := scaled num den (-exponent)
    let mantissa := roundQuotient n d
    let (mantissa, exponent) :=
      if mantissa = Nat.pow 2 53 then (Nat.pow 2 52, exponent + 1) else (mantissa, exponent)
    if greatestExponent < exponent then .infinite negative
    else .finite negative mantissa exponent

/-- The number nearest to `digits * 10 ^ exponent`. Magnitudes that are certain to
overflow or to vanish are not computed. -/
def ofDecimal (negative : Bool) (digits : Nat) (exponent : Int) : Double :=
  let magnitude := ((Nat.toDigits 10 digits).length : Int) + exponent
  if digits = 0 ∨ magnitude < -330 then zero negative
  else if 310 < magnitude then .infinite negative
  else if 0 ≤ exponent then ofRatio negative (digits * Nat.pow 10 exponent.toNat) 1
  else ofRatio negative digits (Nat.pow 10 (-exponent).toNat)

def signed (negative : Bool) (n : Nat) : Int :=
  if negative then -(n : Int) else n

def compareInt : Double → Int → Option Ordering
  | .finite negative mantissa exponent, n =>
    if 0 ≤ exponent then
      some (compare (signed negative (mantissa * Nat.pow 2 exponent.toNat)) n)
    else
      some (compare (signed negative mantissa) (n * Int.pow 2 (-exponent).toNat))
  | .infinite negative, _ => some (if negative then .lt else .gt)
  | .notANumber, _ => none

def order : Double → Double → Option Ordering
  | .finite negative mantissa exponent, .finite negative' mantissa' exponent' =>
    let least := min exponent exponent'
    some (compare (signed negative (mantissa * Nat.pow 2 (exponent - least).toNat))
      (signed negative' (mantissa' * Nat.pow 2 (exponent' - least).toNat)))
  | .infinite negative, .finite _ _ _ => some (if negative then .lt else .gt)
  | .finite _ _ _, .infinite negative => some (if negative then .gt else .lt)
  | .infinite negative, .infinite negative' =>
    some (if negative = negative' then .eq else if negative then .lt else .gt)
  | _, _ => none

def toInt? : Double → Option Int
  | .finite negative mantissa exponent =>
    if 0 ≤ exponent then some (signed negative (mantissa * Nat.pow 2 exponent.toNat))
    else
      let unit := Nat.pow 2 (-exponent).toNat
      if mantissa % unit = 0 then some (signed negative (mantissa / unit)) else none
  | _ => none

def truncate? : Double → Option Int
  | .finite negative mantissa exponent =>
    some (signed negative
      (if 0 ≤ exponent then mantissa * Nat.pow 2 exponent.toNat else mantissa / Nat.pow 2 (-exponent).toNat))
  | _ => none

def isZero : Double → Bool
  | .finite _ mantissa _ => mantissa == 0
  | _ => false

end Double
end LanguageService
