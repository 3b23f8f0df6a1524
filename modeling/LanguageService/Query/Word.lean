import LanguageService.Fault
import LanguageService.Language.Scanner
/-! The word under a cursor: the run of word characters that the cursor is in or right
behind. -/
namespace LanguageService

def Word.bounds? (line : List Char) (character : Int) : Option (Nat × Nat) :=
  if character < 0 ∨ (line.length : Int) ≤ character then none
  else
    let i := character.toNat
    let start := i - ((line.take i).reverse.takeWhile Token.isWordChar).length
    let stop := i + ((line.drop i).takeWhile Token.isWordChar).length
    if start = stop then none else some (start, stop)

def Word.line? (src : List Char) (line : Int) : Option (List Char) :=
  if line < 0 then none else (Text.lines src)[line.toNat]?

/-- A coordinate of a cursor as it was sent: a truth value counts as one or zero. -/
inductive Coordinate where
  | number (n : Int)
  | flag (b : Bool)
  deriving DecidableEq, Repr

namespace Coordinate

def value : Coordinate → Int
  | number n => n
  | flag b => if b then 1 else 0

def toJson : Coordinate → Json
  | number n => .int n
  | flag b => .bool b

def ofJson? : Json → Option Coordinate
  | .int n => some (number n)
  | .bool b => some (flag b)
  | _ => none

def like (c : Coordinate) (n : Int) : Coordinate := if c.value = n then c else number n

end Coordinate

structure Word where
  text : String
  line : Coordinate
  start : Coordinate
  stop : Coordinate
  deriving DecidableEq, Repr

namespace Word

def place (line character : Coordinate) : Json :=
  .object [("line", line.toJson), ("character", character.toJson)]

def range (w : Word) : Json :=
  .object [("start", place w.line w.start), ("end", place w.line w.stop)]

def onLine? (row : List Char) (line character : Coordinate) : Option Word := do
  let (start, stop) ← bounds? row character.value
  pure { text := String.ofList ((row.drop start).take (stop - start)), line
         start := character.like start, stop := character.like stop }

def at? (src : List Char) (line character : Coordinate) : Option Word := do
  let row ← line? src line.value
  onLine? row line character

def lineOf (content line : Json) : Except Fault (Option (List Char × Coordinate)) :=
  match content with
  | .text s =>
    match Coordinate.ofJson? line, line with
    | some line, _ => .ok ((line? s.shown.toList line.value).map (·, line))
    | none, .real x =>
      match x.compareInt 0, x.compareInt (Text.lines s.shown.toList).length with
      | some .lt, _ => .ok none
      | _, some .lt => .error (.listIndex .real)
      | _, _ => .ok none
    | none, v => .error (.unordered "<=" .int v.kind)
  | v => .error (.noMember v.kind "split")

def onLineOf (row : List Char) (line : Coordinate) (character : Json) :
    Except Fault (Option Word) :=
  match Coordinate.ofJson? character, character with
  | some character, _ => .ok (onLine? row line character)
  | none, .real x =>
    match x.compareInt 0, x.compareInt row.length with
    | none, _ => .error .sliceIndex
    | some .lt, _ => .ok none
    | _, some .lt => .error (.textIndex .real)
    | _, _ => .ok none
  | none, v => .error (.unordered "<" v.kind .int)

def find (content line character : Json) : Except Fault (Option Word) := do
  match ← lineOf content line with
  | none => pure none
  | some (row, line) => onLineOf row line character

theorem findSent (s : Text) (line character : Coordinate) :
    find (.text s) line.toJson character.toJson = .ok (at? s.shown.toList line character) := by
  have sent (c : Coordinate) : Coordinate.ofJson? c.toJson = some c := by cases c <;> rfl
  unfold find lineOf at?
  simp only [sent]
  cases line? s.shown.toList line.value with
  | none => rfl
  | some row =>
    show onLineOf row line character.toJson = _
    unfold onLineOf
    simp only [sent]
    rfl

end Word
end LanguageService
