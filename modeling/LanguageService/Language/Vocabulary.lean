/-! The fixed words of the Asteroid language. -/
namespace LanguageService.Vocabulary

def keywords : List String :=
  ["and", "assert", "break", "catch", "class", "constructor", "data", "do", "elif", "else",
   "end", "escape", "eval", "false", "for", "function", "global", "if", "in", "is", "lambda",
   "let", "load", "loop", "match", "module", "none", "nonlocal", "not", "or", "return", "step",
   "struct", "system", "throw", "to", "true", "try", "unload", "until", "while", "with", "yield"]

def builtins : List String :=
  ["abs", "all", "any", "apply", "bool", "call", "chr", "cmp", "dict", "enumerate", "filter",
   "float", "format", "freeze", "frozenset", "hash", "help", "id", "int", "isinstance",
   "issubclass", "iter", "len", "list", "map", "max", "min", "ord", "println", "range",
   "reduce", "repr", "reverse", "round", "set", "sorted", "str", "sum", "tuple", "type", "zip"]

def modules : List String :=
  ["io", "math", "os", "random", "string", "time", "util"]

def isKeyword (word : String) : Bool := keywords.contains word

def isBuiltin (word : String) : Bool := builtins.contains word

def keywordDescription (word : String) : String :=
  "**" ++ word ++ "** - Asteroid keyword"

def builtinDescription (word : String) : String :=
  "**" ++ word ++ "()** - Built-in function"

end LanguageService.Vocabulary

namespace LanguageService

inductive CommentLead where
  | dashes
  | percent
  deriving DecidableEq, Repr, Inhabited

namespace CommentLead

def all : List CommentLead := [dashes, percent]

def text : CommentLead → String
  | dashes => "--"
  | percent => "%"

def chars (lead : CommentLead) : List Char := lead.text.toList

def ofText? (s : String) : Option CommentLead :=
  all.find? (·.text = s)

def choices : String := ", ".intercalate (all.map text)

end CommentLead
end LanguageService
