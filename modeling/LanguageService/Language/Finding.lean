import LanguageService.Language.Token
/-! Findings: the malformed lexemes of a text, in its order. -/
namespace LanguageService

inductive Finding.Cause where
  | unterminatedString
  | invalidNumber
  deriving DecidableEq, Repr

structure Finding where
  range : Range
  cause : Finding.Cause
  deriving DecidableEq, Repr

namespace Finding

def Cause.message : Cause → String
  | .unterminatedString => "Unterminated string literal"
  | .invalidNumber => "Invalid number format"

def isNumber (cs : List Char) : Bool :=
  let whole := cs.takeWhile Char.isDigit
  !whole.isEmpty &&
    match cs.dropWhile Char.isDigit with
    | [] => true
    | c :: fraction => c == '.' && !fraction.isEmpty && fraction.all Char.isDigit

/-- The finding about a token. An open string is marked from its quote over as many
characters as it has content. -/
def ofToken? (t : Token) : Option Finding :=
  if t.kind = .string ∧ !t.closed then
    let stop : Position := ⟨t.line, t.column + t.text.length + 1⟩
    some ⟨⟨t.start, stop⟩, .unterminatedString⟩
  else if t.kind = .number ∧ !isNumber t.text.toList then some ⟨t.range, .invalidNumber⟩
  else none

def ofTokens (tokens : List Token) : List Finding :=
  tokens.filterMap ofToken?

end Finding
end LanguageService
