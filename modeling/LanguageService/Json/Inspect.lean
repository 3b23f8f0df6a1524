import LanguageService.Json.Value
import LanguageService.Number.Integer
import LanguageService.Number.Shortest
import LanguageService.Text.Quoted
/-! The text of a value inside messages and log lines. -/
namespace LanguageService.Json

mutual
def inspect : Json → String
  | .null => "None"
  | .bool b => if b then "True" else "False"
  | .int n => String.ofList (Number.integerText n)
  | .real x => x.text
  | .text s => s.quoted
  | .list items => "[" ++ inspectItems items ++ "]"
  | .object members => "\x7b" ++ inspectMembers members ++ "\x7d"

def inspectItems : List Json → String
  | [] => ""
  | [v] => inspect v
  | v :: w :: rest => inspect v ++ ", " ++ inspectItems (w :: rest)

def inspectMembers : List (Text × Json) → String
  | [] => ""
  | [(name, v)] => name.quoted ++ ": " ++ inspect v
  | (name, v) :: m :: rest =>
    name.quoted ++ ": " ++ inspect v ++ ", " ++ inspectMembers (m :: rest)
end

/-- By itself a text is shown as it is, and only then halves of pairs come through. -/
def plain : Json → Text
  | .text s => s
  | v => inspect v

end LanguageService.Json
