import LanguageService.Text.Character
/-! Texts. An escape in JSON can name half of a surrogate pair without the other half. Such
a half is no character and has no bytes, but it is kept where it stands, and what it stands
in is found out only when the text has to be written. -/
namespace LanguageService

/-- A character, or half of a surrogate pair by its place among the halves. -/
inductive Text.Point where
  | char (c : Char)
  | half (n : Fin 0x800)
  deriving DecidableEq, Repr

namespace Text.Point

def firstHalf : Nat := 0xD800

def isHalf : Point → Bool
  | char _ => false
  | half _ => true

def code : Point → Nat
  | char c => c.toNat
  | half n => firstHalf + n

/-- The replacement character stands where a half has to be shown. -/
def shown : Point → Char
  | char c => c
  | half _ => Char.ofNat 0xFFFD

def ofUnit (n : Nat) : Point :=
  if half : firstHalf ≤ n ∧ n < firstHalf + 0x800 then .half ⟨n - firstHalf, by omega⟩
  else .char (Char.ofNat n)

@[simp] theorem isHalfChar (c : Char) : (char c).isHalf = false := rfl

@[simp] theorem shownChar (c : Char) : (char c).shown = c := rfl

end Text.Point

/-- A text is plain when it is a string, and rough when it holds some half of a pair. -/
inductive Text where
  | plain (s : String)
  | rough (points : List Text.Point) (halved : points.any Text.Point.isHalf = true)
  deriving DecidableEq, Repr

namespace Text

instance : Coe String Text := ⟨plain⟩

def isPlain : Text → Bool
  | plain _ => true
  | rough _ _ => false

def points : Text → List Point
  | plain s => s.toList.map .char
  | rough points _ => points

def ofPoints (points : List Point) : Text :=
  if halved : points.any Point.isHalf = true then rough points halved
  else plain (String.ofList (points.map Point.shown))

/-- A text as far as it can be shown. A half is neither a letter, a digit, a blank nor a
mark, and neither is what is shown for it, so both are cut into words and lines alike. -/
def shown : Text → String
  | plain s => s
  | rough points _ => String.ofList (points.map Point.shown)

def append : Text → Text → Text
  | plain s, plain t => plain (s ++ t)
  | s, t => ofPoints (s.points ++ t.points)

instance : Append Text := ⟨append⟩

def codes (t : Text) : List Nat := t.points.map Point.code

structure Unencodable where
  position : Nat
  first : Nat
  count : Nat
  deriving DecidableEq, Repr

def Unencodable.message (f : Unencodable) : String :=
  let what := if f.count = 1
    then s!"character '\\u{String.ofList (hex 4 f.first)}' in position {f.position}"
    else s!"characters in position {f.position}-{f.position + f.count - 1}"
  "'utf-8' codec can't encode " ++ what ++ ": surrogates not allowed"

def Unencodable.ofPoints (points : List Point) : Unencodable :=
  let rest := points.dropWhile (!·.isHalf)
  { position := (points.takeWhile (!·.isHalf)).length
    first := (rest.head?.map Point.code).getD Point.firstHalf
    count := (rest.takeWhile Point.isHalf).length }

def unencodable? : Text → Option Unencodable
  | plain _ => none
  | rough points _ => some (.ofPoints points)

theorem ofCharsPlain (cs : List Char) : ofPoints (cs.map .char) = plain (String.ofList cs) := by
  have whole : (cs.map Point.char).any Point.isHalf = false := by simp
  have same : (cs.map Point.char).map Point.shown = cs := by simp [Function.comp_def]
  rw [ofPoints, dif_neg (by simp [whole]), same]

@[simp] theorem appendPlain (s t : String) : plain s ++ plain t = plain (s ++ t) := rfl

end Text
end LanguageService
