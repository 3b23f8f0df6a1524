/-! Lines of a text. A line feed ends a line and the text after the last one is a line
too, so every text has at least one. -/
namespace LanguageService.Text

def split (separator : Char) : List Char → List (List Char)
  | [] => [[]]
  | c :: rest =>
    if c = separator then [] :: split separator rest
    else match split separator rest with
      | [] => [[c]]
      | part :: others => (c :: part) :: others

def lines (cs : List Char) : List (List Char) := split '\n' cs

/-- A carriage return, alone or before a line feed, becomes one line feed. -/
def unifyLineEnds : List Char → List Char
  | [] => []
  | '\r' :: '\n' :: rest => '\n' :: unifyLineEnds rest
  | '\r' :: rest => '\n' :: unifyLineEnds rest
  | c :: rest => c :: unifyLineEnds rest

end LanguageService.Text
