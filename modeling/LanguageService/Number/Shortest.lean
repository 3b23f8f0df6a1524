import LanguageService.Number.Double
/-! The text of a floating-point number: the fewest digits that read back as it, the
nearest of those, laid out in positional or exponent notation. -/
namespace LanguageService.Number

structure Decimal where
  digits : Nat
  exponent : Int
  deriving DecidableEq, Repr

/-- A positive fraction with the ends of the interval that rounds to it, all over one
denominator. -/
structure Rounding where
  value : Nat
  low : Nat
  high : Nat
  denominator : Nat
  closed : Bool
  deriving DecidableEq, Repr

/-- The reals that round to `mantissa * 2 ^ exponent`: half a unit on each side, a quarter
below a power of two, the ends included when the mantissa is even. -/
def Rounding.of (mantissa : Nat) (exponent : Int) : Rounding :=
  let below := if mantissa = Nat.pow 2 52 ∧ exponent ≠ Double.leastExponent then 1 else 2
  let (unit, denominator) := Double.scaled 1 1 (exponent - 2)
  { value := 4 * mantissa * unit
    low := (4 * mantissa - below) * unit
    high := (4 * mantissa + 2) * unit
    denominator
    closed := mantissa % 2 == 0 }

def tenfold (num den : Nat) (shift : Int) : Nat × Nat :=
  if 0 ≤ shift then (num * Nat.pow 10 shift.toNat, den)
  else (num, den * Nat.pow 10 (-shift).toNat)

def Rounding.holds (r : Rounding) (d : Decimal) : Bool :=
  let (num, den) := tenfold d.digits 1 d.exponent
  let point := num * r.denominator
  if r.closed then r.low * den ≤ point && point ≤ r.high * den
  else r.low * den < point && point < r.high * den

def Rounding.magnitude (r : Rounding) : Int :=
  let guess := (Double.binaryMagnitude r.value r.denominator * 30103).fdiv 100000
  let reaches (k : Int) : Bool :=
    let (num, den) := tenfold r.value r.denominator (-k)
    den ≤ num
  if reaches (guess + 1) then guess + 1
  else if reaches guess then guess
  else guess - 1

/-- The better of the two neighbours of the value among the multiples of `10 ^ exponent`,
if one lies in the interval: the nearer, and the even one where both are equally near. -/
def Rounding.onGrid? (r : Rounding) (exponent : Int) : Option Decimal :=
  let (num, den) := tenfold r.value r.denominator (-exponent)
  let below : Decimal := ⟨num / den, exponent⟩
  let above : Decimal := ⟨num / den + 1, exponent⟩
  let twice := 2 * (num % den)
  let preferBelow := twice < den || (twice == den && below.digits % 2 == 0)
  let (first, second) := if preferBelow then (below, above) else (above, below)
  if r.holds first then some first
  else if r.holds second then some second
  else none

def shortest (mantissa : Nat) (exponent : Int) : Decimal :=
  let r := Rounding.of mantissa exponent
  let top := r.magnitude
  ((List.range 17).findSome? fun (n : Nat) => r.onGrid? (top - n)).getD ⟨mantissa, exponent⟩

def Decimal.trim (d : Decimal) : Decimal :=
  if h : d.digits ≠ 0 ∧ d.digits % 10 = 0 then
    Decimal.trim ⟨d.digits / 10, d.exponent + 1⟩
  else d
termination_by d.digits
decreasing_by omega

def isPositional (magnitude : Int) : Bool :=
  -4 ≤ magnitude && magnitude < 16

def zeros (n : Nat) : List Char := List.replicate n '0'

def positional (digits : List Char) (whole : Int) : List Char :=
  if whole ≤ 0 then ['0', '.'] ++ zeros (-whole).toNat ++ digits
  else
    let n := whole.toNat
    if digits.length ≤ n then digits ++ zeros (n - digits.length) ++ ['.', '0']
    else digits.take n ++ ['.'] ++ digits.drop n

def exponential (digits : List Char) (magnitude : Int) : List Char :=
  let mantissa := match digits with
    | first :: second :: rest => first :: '.' :: second :: rest
    | short => short
  let size := Nat.toDigits 10 magnitude.natAbs
  mantissa ++ ['e', if magnitude < 0 then '-' else '+'] ++ zeros (2 - size.length) ++ size

def layout (d : Decimal) : List Char :=
  let digits := Nat.toDigits 10 d.digits
  let magnitude := d.exponent + digits.length - 1
  if isPositional magnitude then positional digits (magnitude + 1)
  else exponential digits magnitude

end LanguageService.Number

namespace LanguageService.Double

def finiteText (negative : Bool) (mantissa : Nat) (exponent : Int) : String :=
  let sign := if negative then ['-'] else []
  let body :=
    if mantissa = 0 then ['0', '.', '0']
    else Number.layout (Number.shortest mantissa exponent).trim
  String.ofList (sign ++ body)

def text : Double → String
  | .finite negative mantissa exponent => finiteText negative mantissa exponent
  | .infinite negative => if negative then "-inf" else "inf"
  | .notANumber => "nan"

end LanguageService.Double
