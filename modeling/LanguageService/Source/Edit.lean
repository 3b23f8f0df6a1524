import LanguageService.Fault
/-! Edits of a text. A change gives a new text, or replaces the part between two places by
a text. A place past the end of its line means the end of the line, one past the last line
the end of the text; lines below zero count from the last one. -/
namespace LanguageService.Edit

def extent : List (List Char) → Nat
  | [] => 0
  | line :: rest => line.length + 1 + extent rest

def lineStart (lines : List (List Char)) (line : Nat) : Nat :=
  extent (lines.take line)

def lineIndex? (lines : List (List Char)) (line : Int) : Option Nat :=
  let index := if line < 0 then line + lines.length else line
  if 0 ≤ index ∧ index < lines.length then some index.toNat else none

def column (lines : List (List Char)) (index : Nat) (character : Int) : Int :=
  lineStart lines index + min character (lines.getD index []).length

def offset? (src : List Char) (line character : Int) : Option Int :=
  let lines := Text.lines src
  if (lines.length : Int) ≤ line then some src.length
  else (lineIndex? lines line).map fun index => column lines index character

/- An offset below zero counts from the end. -/
def before {α : Type} (src : List α) (offset : Int) : List α :=
  src.take (if offset < 0 then offset + src.length else offset).toNat

def after {α : Type} (src : List α) (offset : Int) : List α :=
  src.drop (if offset < 0 then offset + src.length else offset).toNat

def splice {α : Type} (src : List α) (start stop : Int) (text : List α) : List α :=
  before src start ++ text ++ after src stop

def leastIndex : Int := -Int.pow 2 63

/-- An offset from parameters; a fraction gives one where no text can be cut. -/
inductive Offset where
  | exact (n : Int)
  | fractional
  deriving DecidableEq, Repr

def noLine (line : Int) : Fault :=
  if line < leastIndex then .indexSize else .outOfRange

/-- The offset on a line of a character that was sent as no integer. A fraction past the
end of the line means the end. -/
def fractionOffset (lines : List (List Char)) (index : Nat) (character : Json) :
    Except Fault Offset :=
  let width := (lines.getD index []).length
  match character with
  | .real x =>
    if x.compareInt width = some .gt then .ok (.exact (column lines index width))
    else .ok .fractional
  | v => .error (.unordered "<" .int v.kind)

def fractionLineOffset (src : List Char) (line : Json) : Except Fault Offset :=
  match line with
  | .real x =>
    match x.compareInt (Text.lines src).length with
    | some .gt | some .eq => .ok (.exact src.length)
    | _ => .error .sliceIndex
  | v => .error (.unordered ">=" v.kind .int)

def textOffset (src : List Char) (line character : Json) : Except Fault Offset :=
  let lines := Text.lines src
  match line.integer?, character.integer? with
  | some n, some m =>
    match offset? src n m with
    | some offset => .ok (.exact offset)
    | none => .error (noLine n)
  | some n, none =>
    if (lines.length : Int) ≤ n then .ok (.exact src.length)
    else match lineIndex? lines n with
      | some index => fractionOffset lines index character
      | none => .error (noLine n)
  | none, _ => fractionLineOffset src line

def offsetOf (content line character : Json) : Except Fault Offset :=
  match content with
  | .text s => textOffset s.shown.toList line character
  | v => .error (.noMember v.kind "split")

def endOffset (content place : Json) : Except Fault Offset := do
  let line ← place.subscript "line"
  let character ← place.subscript "character"
  offsetOf content line character

def replace (content : Json) (start stop : Offset) (text : Json) : Except Fault Json :=
  match content, start with
  | .text s, .exact m =>
    match text with
    | .text t =>
      match stop with
      | .exact n => .ok (.text (.ofPoints (splice s.points m n t.points)))
      | .fractional => .error .sliceIndex
    | v => .error (.notText v.kind)
  | .text _, .fractional => .error .sliceIndex
  | v, _ => .error (.noMember v.kind "split")

/-- The content after one change. Without a range the text of the change is the content,
whatever value it is. -/
def apply (content change : Json) : Except Fault Json := do
  let text ← change.memberD "text" (.text "")
  let range ← change.member "range"
  if range.isNull then pure text
  else
    let start ← range.subscript "start"
    let stop ← range.subscript "end"
    let first ← endOffset content start
    let last ← endOffset content stop
    replace content first last text

end LanguageService.Edit
