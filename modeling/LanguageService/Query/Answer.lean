import LanguageService.Index
import LanguageService.Query.Reply
import LanguageService.Query.Word
/-! Answers to an editor's questions about a document. They read the index and change
nothing. -/
namespace LanguageService.Query

def fixedItem (kind : Int) (describe : String) (word : String) : Json :=
  Reply.completionItem (.text word) kind (some (.text (describe ++ ": " ++ word)))

def fixedItems : List Json :=
  Vocabulary.keywords.map (fixedItem Reply.keywordItem "Asteroid keyword") ++
  Vocabulary.builtins.map (fixedItem Reply.functionItem "Built-in function") ++
  Vocabulary.modules.map (fixedItem Reply.moduleItem "System module")

def symbolItem (s : Symbol) : Json :=
  Reply.completionItem (.text s.name) (Reply.symbolItem s.kind)
    (some (.text (s.display ++ ": " ++ s.name)))

def completion (index : Index) (key : Key) : List Json :=
  fixedItems ++ (index.symbols key).map symbolItem

def symbol? (index : Index) (key : Key) (name : String) : Option Symbol := do
  let outline ← index.outline? key
  outline.lookup? name

/-- What a word means: a keyword first, then a built-in function, then a symbol. -/
def describe? (index : Index) (key : Key) (word : String) : Option String :=
  if Vocabulary.isKeyword word then some (Vocabulary.keywordDescription word)
  else if Vocabulary.isBuiltin word then some (Vocabulary.builtinDescription word)
  else (symbol? index key word).map fun s => "**" ++ s.name ++ "** - " ++ s.display

def hover? (index : Index) (key : Key) (word : Word) : Option Json :=
  (describe? index key word.text).map fun (contents : String) =>
    Reply.hover (.text contents) (some word.range)

def definition? (index : Index) (key : Key) (uri : Json) (word : Word) : Option Json :=
  (symbol? index key word.text).map fun s => Reply.location uri (Reply.range s.range)

def outlineEntry (s : Symbol) : Json :=
  Reply.documentSymbol (.text s.name) (Reply.outlineKind s.kind) (Reply.range s.range)
    (Reply.range s.selection) (some (.text s.display))

def outline (index : Index) (key : Key) : List Json :=
  (index.symbols key).map outlineEntry

end LanguageService.Query
