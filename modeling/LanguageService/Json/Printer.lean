import LanguageService.Json.Value
import LanguageService.Number.Integer
import LanguageService.Number.Shortest
/-! JSON text: items are parted by a comma and a blank, names from values by a colon and a
blank, and only quotes, backslashes and control characters are escaped. Halves of pairs are
not, so the text of a value is rough when the value holds a rough text. -/
namespace LanguageService.Json
open Text (Point)

def escapedChar (c : Char) : List Char :=
  if c = '"' then ['\\', '"']
  else if c = '\\' then ['\\', '\\']
  else if c = '\n' then ['\\', 'n']
  else if c = '\r' then ['\\', 'r']
  else if c = '\t' then ['\\', 't']
  else if c = '\x08' then ['\\', 'b']
  else if c = '\x0c' then ['\\', 'f']
  else if c.toNat < 0x20 then '\\' :: 'u' :: Text.hex 4 c.toNat
  else [c]

def escapedPoint : Point → List Point
  | .char c => (escapedChar c).map .char
  | .half n => [.half n]

def stringPoints (s : Text) : List Point :=
  .char '"' :: s.points.flatMap escapedPoint ++ [.char '"']

def realText : Double → List Char
  | .finite negative mantissa exponent => (Double.finiteText negative mantissa exponent).toList
  | .infinite negative => (if negative then "-Infinity" else "Infinity").toList
  | .notANumber => "NaN".toList

def chars (cs : List Char) : List Point := cs.map .char

mutual
def renderPoints : Json → List Point
  | .null => chars ['n', 'u', 'l', 'l']
  | .bool b => chars (if b then ['t', 'r', 'u', 'e'] else ['f', 'a', 'l', 's', 'e'])
  | .int n => chars (Number.integerText n)
  | .real x => chars (realText x)
  | .text s => stringPoints s
  | .list items => .char '[' :: renderItems items ++ [.char ']']
  | .object members => .char '{' :: renderMembers members ++ [.char '}']

def renderItems : List Json → List Point
  | [] => []
  | [v] => renderPoints v
  | v :: w :: rest => renderPoints v ++ chars [',', ' '] ++ renderItems (w :: rest)

def renderMembers : List (Text × Json) → List Point
  | [] => []
  | [(name, v)] => stringPoints name ++ chars [':', ' '] ++ renderPoints v
  | (name, v) :: m :: rest =>
    stringPoints name ++ chars [':', ' '] ++ renderPoints v ++ chars [',', ' '] ++
      renderMembers (m :: rest)
end

def render (v : Json) : Text := .ofPoints (renderPoints v)

end LanguageService.Json
