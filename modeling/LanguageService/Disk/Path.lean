import LanguageService.Text.Lines
/-! Paths, by their text alone. A path starts at the root when it starts with a slash; two
slashes at the start are kept apart from one, three or more are one. -/
namespace LanguageService

/-- A path from the root without empty names, dots or steps back. -/
structure Path where
  doubled : Bool
  names : List String
  deriving DecidableEq, Repr

namespace Path

def segments (path : String) : List String :=
  (Text.split '/' path.toList).map String.ofList

def isAbsolute (path : String) : Bool := path.toList.head? == some '/'

def isDoubled (path : String) : Bool :=
  (path.toList.takeWhile (· == '/')).length == 2

def text (p : Path) : String :=
  (if p.doubled then "//" else "/") ++ "/".intercalate p.names

def parent (p : Path) : Path := { p with names := p.names.dropLast }

def child (p : Path) (name : String) : Path := { p with names := p.names ++ [name] }

/-- Follows a segment: an empty one and a dot stay, two dots go back, and no further than
the root. -/
def follow (names : List String) (segment : String) : List String :=
  if segment = "" ∨ segment = "." then names
  else if segment = ".." then names.dropLast
  else names ++ [segment]

def isStep (segment : String) : Bool := segment == "" || segment == "." || segment == ".."

def closedName? (path : String) : Option (List String) :=
  let backwards := (segments path).reverse
  match backwards.dropWhile (· == "") with
  | [] => none
  | name :: around =>
    if backwards.head? == some "" && !isStep name then some around.reverse else none

def absolute (base : List String) (path : String) : Path :=
  let start := if isAbsolute path then [] else base
  { doubled := isDoubled path
    names := (segments path).foldl follow start }

def ancestors (p : Path) : List Path :=
  (List.range (p.names.length + 1)).map fun n =>
    { p with names := p.names.take (p.names.length - n) }

end Path
end LanguageService
