import LanguageService.Text.Basic
import LanguageService.Text.Printable
/-! Quoted text: a text between single quotes, or between double quotes when that saves
every escape of a quote. -/
namespace LanguageService.Text

def quoteFor (cs : List Char) : Char :=
  if cs.contains '\'' && !cs.contains '"' then '"' else '\''

def escaped (quote c : Char) : List Char :=
  if c == quote || c == '\\' then ['\\', c]
  else if c == '\n' then ['\\', 'n']
  else if c == '\r' then ['\\', 'r']
  else if c == '\t' then ['\\', 't']
  else if isPrintable c then [c]
  else if c.toNat < 0x100 then '\\' :: 'x' :: hex 2 c.toNat
  else if c.toNat < 0x10000 then '\\' :: 'u' :: hex 4 c.toNat
  else '\\' :: 'U' :: hex 8 c.toNat

def escapedPoint (quote : Char) : Point → List Char
  | .char c => escaped quote c
  | .half n => '\\' :: 'u' :: hex 4 (Point.half n).code

def quoted (t : Text) : String :=
  let quote := quoteFor t.shown.toList
  String.ofList (quote :: t.points.flatMap (escapedPoint quote) ++ [quote])

end LanguageService.Text
