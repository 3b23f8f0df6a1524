/-! Places in a source text. Lines and characters count from zero, and a range runs up to
its end without it. -/
namespace LanguageService

structure Position where
  line : Int
  character : Int
  deriving DecidableEq, Repr

namespace Position

def precedes (a b : Position) : Bool :=
  a.line < b.line || (a.line == b.line && a.character ≤ b.character)

end Position

structure Range where
  start : Position
  stop : Position
  deriving DecidableEq, Repr

namespace Range

def contains (outer inner : Range) : Bool :=
  outer.start.precedes inner.start && inner.stop.precedes outer.stop

end Range
end LanguageService
