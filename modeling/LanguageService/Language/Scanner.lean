import LanguageService.Language.Token
import LanguageService.Text.Character
/-! The scanner: a text as a sequence of gaps and lexemes. Blanks and comments are gaps,
and every other character starts a lexeme, so each text has tokens. -/
namespace LanguageService.Token

def isQuote (c : Char) : Bool := c == '"' || c == '\''

def isLineEnd (c : Char) : Bool := c == '\r' || c == '\n'

def isWordStart (c : Char) : Bool := c == '_' || c.isAlpha

def isWordChar (c : Char) : Bool := isWordStart c || c.isDigit

def isNumberChar (c : Char) : Bool := c.isDigit || c == '.'

def operators : List (Char × Char) :=
  [('=', '='), ('!', '='), ('<', '='), ('>', '='), ('-', '>'), ('=', '>')]

structure StringTail where
  content : List Char
  taken : Nat
  closed : Bool
  deriving DecidableEq, Repr

def StringTail.push (c : Char) (width : Nat) (tail : StringTail) : StringTail :=
  { tail with content := c :: tail.content, taken := width + tail.taken }

/-- A string runs to the first quote of its kind that is not escaped, or stops before a
line end or the end of the text. A backslash takes the next character into the content;
the line end it cannot take, and it is then the last character of the string. -/
def stringTail (quote : Char) : List Char → StringTail
  | [] => ⟨[], 0, false⟩
  | [c] =>
    if c = quote then ⟨[], 1, true⟩
    else if isLineEnd c then ⟨[], 0, false⟩
    else if c = '\\' then ⟨[], 1, false⟩
    else ⟨[c], 1, false⟩
  | c :: d :: rest =>
    if c = quote then ⟨[], 1, true⟩
    else if isLineEnd c then ⟨[], 0, false⟩
    else if c = '\\' then
      if isLineEnd d then ⟨[], 1, false⟩ else (stringTail quote rest).push d 2
    else (stringTail quote (d :: rest)).push c 1

/-- A lexeme without its place; `more` counts its characters after the first one. -/
structure Lexeme where
  kind : Kind
  text : List Char
  more : Nat
  closed : Bool := true
  extent : Option Nat := none
  deriving DecidableEq, Repr

def lexeme (c : Char) (rest : List Char) : Lexeme :=
  if isQuote c then
    let tail := stringTail c rest
    ⟨.string, tail.content, tail.taken, tail.closed, some (tail.taken + 1)⟩
  else if c.isDigit then
    let run := rest.takeWhile isNumberChar
    { kind := .number, text := c :: run, more := run.length }
  else if isWordStart c then
    let run := rest.takeWhile isWordChar
    let kind := if Vocabulary.isKeyword (String.ofList (c :: run)) then .keyword else .identifier
    { kind, text := c :: run, more := run.length }
  else if c = '@' then { kind := .at, text := [c], more := 0 }
  else match rest with
    | d :: _ =>
      if operators.contains (c, d) then { kind := .operator, text := [c, d], more := 1 }
      else { kind := .punctuation, text := [c], more := 0 }
    | [] => { kind := .punctuation, text := [c], more := 0 }

def Lexeme.token (l : Lexeme) (line column : Nat) : Token :=
  { kind := l.kind, text := String.ofList l.text, line, column
    closed := l.closed, extent := l.extent }

def scan (lead : CommentLead) (line column : Nat) (src : List Char) : List Token :=
  match src with
  | [] => []
  | c :: rest =>
    if c = '\n' then scan lead (line + 1) 0 rest
    else if Text.isBlank c then scan lead line (column + 1) rest
    else if lead.chars.isPrefixOf (c :: rest) then
      let comment := rest.takeWhile (· != '\n')
      scan lead line (column + 1 + comment.length) (rest.drop comment.length)
    else
      let found := lexeme c rest
      found.token line column ::
        scan lead line (column + 1 + found.more) (rest.drop found.more)
termination_by src.length
decreasing_by all_goals simp only [List.length_cons, List.length_drop]; omega

def ofSource (lead : CommentLead) (src : String) : List Token :=
  scan lead 0 0 src.toList

end LanguageService.Token
