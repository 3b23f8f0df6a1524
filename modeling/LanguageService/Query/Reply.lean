import LanguageService.Json.Value
import LanguageService.Language.Finding
import LanguageService.Language.Outline
/-! The objects that answer an editor. -/
namespace LanguageService.Reply

def optional (name : Text) (value : Option Json) : List (Text × Json) :=
  match value with
  | some v => [(name, v)]
  | none => []

def position (p : Position) : Json :=
  .object [("line", .int p.line), ("character", .int p.character)]

def range (r : Range) : Json :=
  .object [("start", position r.start), ("end", position r.stop)]

def location (uri range : Json) : Json :=
  .object [("uri", uri), ("range", range)]

def completionItem (label : Json) (kind : Int) (detail : Option Json) : Json :=
  .object (("label", label) :: ("kind", .int kind) :: optional "detail" detail)

def hover (contents : Json) (range : Option Json) : Json :=
  .object (("contents", .object [("kind", .text "markdown"), ("value", contents)]) ::
    optional "range" range)

def documentSymbol (name : Json) (kind : Int) (range selection : Json) (detail : Option Json) :
    Json :=
  .object (("name", name) :: ("kind", .int kind) :: ("range", range) ::
    ("selectionRange", selection) :: optional "detail" detail)

def findingSource : String := "asteroid-lsp"

def errorSeverity : Int := 1

def finding (f : Finding) : Json :=
  .object [("range", range f.range), ("message", .text f.cause.message),
    ("severity", .int errorSeverity), ("source", .text findingSource)]

def keywordItem : Int := 14

def functionItem : Int := 3

def moduleItem : Int := 9

def symbolItem : Symbol.Kind → Int
  | .function => 3
  | .binding => 6
  | .structLike => 7

def outlineKind : Symbol.Kind → Int
  | .function => 12
  | .binding => 13
  | .structLike => 23

end LanguageService.Reply
