import LanguageService.Language.Vocabulary
import LanguageService.Number.Integer
import LanguageService.Source.Position
import LanguageService.Text.Quoted
/-! Tokens: classified lexemes with their place in the source. -/
namespace LanguageService

inductive Token.Kind where
  | string
  | number
  | identifier
  | keyword
  | operator
  | punctuation
  | at
  deriving DecidableEq, Repr

/-- A lexeme at a line and column. The text of a string is its content with each escaping
backslash removed, so its extent in the source, quotes included, is kept beside it; a
string without its closing quote is not closed. -/
structure Token where
  kind : Token.Kind
  text : String
  line : Nat
  column : Nat
  closed : Bool := true
  extent : Option Nat := none
  deriving DecidableEq, Repr

namespace Token

def Kind.name : Kind → String
  | .string => "string"
  | .number => "number"
  | .identifier => "identifier"
  | .keyword => "keyword"
  | .operator => "operator"
  | .punctuation => "punctuation"
  | .at => "at"

def width (t : Token) : Nat := t.extent.getD t.text.length

def start (t : Token) : Position := ⟨t.line, t.column⟩

def stop (t : Token) : Position := ⟨t.line, t.column + t.width⟩

def range (t : Token) : Range := ⟨t.start, t.stop⟩

def isKeyword (t : Token) (word : String) : Bool := t.kind == .keyword && t.text == word

def isIdentifier (t : Token) : Bool := t.kind == .identifier

def describe (t : Token) : String :=
  let place := String.ofList (Number.naturalText t.line ++ ':' :: Number.naturalText t.column)
  let flag := if t.closed then "" else ", invalid"
  "Token(" ++ t.kind.name.toUpper ++ ", " ++ Text.quoted t.text ++ ", " ++ place ++ flag ++ ")"

end Token
end LanguageService
