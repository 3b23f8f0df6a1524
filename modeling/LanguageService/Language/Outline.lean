import LanguageService.Language.Scanner
import LanguageService.Table
/-! The outline of a document: its declarations and the modules it loads. There are no
scopes, so a later declaration of a name takes the place of the earlier one. -/
namespace LanguageService

inductive Declarator where
  | function
  | binding
  | struct
  | data
  deriving DecidableEq, Repr

namespace Declarator

def all : List Declarator := [function, binding, struct, data]

def keyword : Declarator → String
  | function => "function"
  | binding => "let"
  | struct => "struct"
  | data => "data"

def display : Declarator → String
  | function => "function"
  | binding => "variable"
  | struct => "struct"
  | data => "data"

def ofToken? (t : Token) : Option Declarator :=
  all.find? fun d => t.isKeyword d.keyword

end Declarator

inductive Symbol.Kind where
  | function
  | binding
  | structLike
  deriving DecidableEq, Repr

def Symbol.Kind.name : Symbol.Kind → String
  | .function => "function"
  | .binding => "variable"
  | .structLike => "struct-like"

def Declarator.kind : Declarator → Symbol.Kind
  | function => .function
  | binding => .binding
  | struct | data => .structLike

/-- A declared name. Its range runs from the keyword to the end of the name, its selection
covers the name alone. -/
structure Symbol where
  name : String
  declarator : Declarator
  range : Range
  selection : Range
  deriving DecidableEq, Repr

def Symbol.kind (s : Symbol) : Symbol.Kind := s.declarator.kind

def Symbol.display (s : Symbol) : String := s.declarator.display

structure Outline where
  symbols : Table String Symbol := ∅
  imports : List String := []

namespace Outline

def lookup? (o : Outline) (name : String) : Option Symbol := o.symbols.get? name

def ofKind (o : Outline) (kind : Symbol.Kind) : List Symbol :=
  o.symbols.values.filter (·.kind = kind)

def declare (o : Outline) (s : Symbol) : Outline :=
  { o with symbols := o.symbols.insert s.name s }

def load (o : Outline) (module : String) : Outline :=
  { o with imports := o.imports ++ [module] }

def symbol (d : Declarator) (keyword name : Token) : Symbol :=
  ⟨name.text, d, ⟨keyword.start, name.stop⟩, name.range⟩

def read (o : Outline) (t : Token) (rest : List Token) : Outline × Nat :=
  if t.isKeyword "load" then
    match rest with
    | system :: module :: _ =>
      if system.isKeyword "system" then
        if module.isIdentifier then (o.load module.text, 2) else (o, 1)
      else (o, 0)
    | _ => (o, 0)
  else
    match Declarator.ofToken? t, rest with
    | some d, name :: _ => if name.isIdentifier then (o.declare (symbol d t name), 1) else (o, 0)
    | _, _ => (o, 0)

def collect (o : Outline) (tokens : List Token) : Outline :=
  match tokens with
  | [] => o
  | t :: rest =>
    let (o, more) := o.read t rest
    collect o (rest.drop more)
termination_by tokens.length
decreasing_by simp only [List.length_cons, List.length_drop]; omega

def ofTokens (tokens : List Token) : Outline := collect {} tokens

def ofSource (lead : CommentLead) (src : String) : Outline :=
  ofTokens (Token.ofSource lead src)

end Outline
end LanguageService
