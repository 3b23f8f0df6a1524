import LanguageService.Json.Value
import LanguageService.Language.Finding
import LanguageService.Language.Outline
/-! The index: the latest outline of every document that was ever analysed. -/
namespace LanguageService

/-- An outline with the name of its document as it was first given. -/
structure Index.Entry where
  uri : Json
  outline : Outline

abbrev Index := Table Key Index.Entry

namespace Index

def outline? (index : Index) (key : Key) : Option Outline :=
  (index.get? key).map Entry.outline

def file (index : Index) (key : Key) (uri : Json) (outline : Outline) : Index :=
  let uri := ((index.get? key).map Entry.uri).getD uri
  index.insert key ⟨uri, outline⟩

def symbols (index : Index) (key : Key) : List Symbol :=
  match index.outline? key with
  | some outline => outline.symbols.values
  | none => []

def analyse (index : Index) (key : Key) (uri : Json) (tokens : List Token) :
    Index × List Finding :=
  (index.file key uri (Outline.ofTokens tokens), Finding.ofTokens tokens)

end Index
end LanguageService
