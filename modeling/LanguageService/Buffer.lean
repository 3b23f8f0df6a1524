import LanguageService.Index
import LanguageService.Source.Edit
import LanguageService.Source.Uri
/-! Open documents as the client last reported them. What the client sent is kept as it is,
whether or not it is what a document should have. -/
namespace LanguageService

structure Buffer where
  uri : Json
  languageId : Json
  version : Json
  content : Json

namespace Buffer

def path? (b : Buffer) : Option Text :=
  match b.uri with
  | .text s => some (Uri.path s)
  | _ => none

def isBlankText : Json → Bool
  | .text s => !s.shown.isEmpty && s.shown.toList.all Text.isBlank
  | _ => false

/-- The tokens of a content. Only a text has any, but a list of blank texts and an empty
object pass for a text without tokens. -/
def tokens (lead : CommentLead) (content : Json) : Except Fault (List Token) :=
  match content with
  | .text s => .ok (Token.ofSource lead s.shown)
  | .list items =>
    match items.find? fun v => !isBlankText v with
    | none => .ok []
    | some (.text _) => .error (.noMember .list "startswith")
    | some v => .error (.noMember v.kind "isspace")
  | .object [] => .ok []
  | .object _ => .error (.noKey (.int 0))
  | v => .error (.noLength v.kind)

end Buffer
end LanguageService
