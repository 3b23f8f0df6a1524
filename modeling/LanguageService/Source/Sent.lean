import LanguageService.Fault
import LanguageService.Json.Order
import LanguageService.Source.Position
/-! Ranges as they were sent: a coordinate may be any value. -/
namespace LanguageService.Sent

structure Position where
  line : Json
  character : Json

structure Range where
  start : Position
  stop : Position

namespace Position

def coordinates (p : Position) : List Json := [p.line, p.character]

def precedes (a b : Position) : Except Fault Bool :=
  match Json.atMostItems a.coordinates b.coordinates with
  | .ok answer => .ok answer
  | .error parts => .error (.unordered "<=" parts.left parts.right)

def equals (a b : Position) : Bool := Json.sameItems a.coordinates b.coordinates

def toJson (p : Position) : Json :=
  .object [("line", p.line), ("character", p.character)]

def describe (p : Position) : Text :=
  "Position(" ++ p.line.plain ++ ":" ++ p.character.plain ++ ")"

end Position

namespace Range

def contains (outer inner : Range) : Except Fault Bool := do
  if ← outer.start.precedes inner.start then inner.stop.precedes outer.stop
  else pure false

def equals (r s : Range) : Bool := r.start.equals s.start && r.stop.equals s.stop

def toJson (r : Range) : Json :=
  .object [("start", r.start.toJson), ("end", r.stop.toJson)]

def describe (r : Range) : Text :=
  "Range(start=" ++ r.start.describe ++ ", end=" ++ r.stop.describe ++ ")"

end Range
end LanguageService.Sent
