import LanguageService.Number.Double
import LanguageService.Text.Character
/-! Integers as text: in decimal digits, and as people write them, with a sign if wanted,
digits of any script, single underscores between them, and blanks at both ends. -/
namespace LanguageService.Number

def digitValue (c : Char) : Nat := c.toNat - '0'.toNat

def ofDigits (digits : List Char) : Nat :=
  digits.foldl (fun n c => n * 10 + digitValue c) 0

def naturalText (n : Nat) : List Char := Nat.toDigits 10 n

def integerText (n : Int) : List Char :=
  if n < 0 then '-' :: naturalText n.natAbs else naturalText n.natAbs

def sign : List Char → Bool × List Char
  | '-' :: rest => (true, rest)
  | '+' :: rest => (false, rest)
  | cs => (false, cs)

def digitRun? : List Char → Option (List Nat)
  | [] => none
  | [c] => (Text.decimalValue? c).map ([·])
  | c :: '_' :: rest => do
    let d ← Text.decimalValue? c
    let ds ← digitRun? rest
    pure (d :: ds)
  | c :: rest => do
    let d ← Text.decimalValue? c
    let ds ← digitRun? rest
    pure (d :: ds)

/-- The four separators before the space may not stand around an integer. -/
def isMargin (c : Char) : Bool :=
  Text.isBlank c && !(0x1C ≤ c.toNat && c.toNat < 0x20)

def withoutMargins (cs : List Char) : List Char :=
  ((cs.dropWhile isMargin).reverse.dropWhile isMargin).reverse

def integer? (cs : List Char) : Option Int :=
  let (negative, digits) := sign (withoutMargins cs)
  (digitRun? digits).map fun run =>
    Double.signed negative (run.foldl (fun n d => n * 10 + d) 0)

end LanguageService.Number
