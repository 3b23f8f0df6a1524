import LanguageService.Query.Answer
import LanguageService.Session.Documents
/-! Questions in a session. They change nothing but the log. -/
namespace LanguageService.Session

structure Cursor where
  uri : Json
  line : Json
  character : Json

def cursor (params : Json) : Except Fault Cursor := do
  let uri ← documentUri params
  let position ← params.memberD "position" (.object [])
  let line ← position.memberD "line" (.int 0)
  let character ← position.memberD "character" (.int 0)
  pure { uri, line, character }

def guarded {α : Type} (what : String) (fallback : α) (query : Except Fault α) : Act α :=
  match query with
  | .ok answer => pure answer
  | .error fault => do
    Act.note (what ++ " error: " ++ fault.message)
    pure fallback

def completion (params : Json) : Act Json := do
  let cursor ← cursor params
  let index := (← Act.session).index
  let items ← guarded "Completion" [] do
    pure (Query.completion index (← cursor.uri.key))
  pure (.object [("isIncomplete", .bool false), ("items", .list items)])

def aboutWord (what : String) (params : Json)
    (answer : Index → Key → Json → Word → Option Json) : Act Json := do
  let cursor ← cursor params
  let key ← cursor.uri.key
  let s ← Act.session
  match s.buffers.get? key with
  | Option.none => pure .null
  | some b =>
    guarded what .null do
      match ← Word.find b.content cursor.line cursor.character with
      | Option.none => pure .null
      | some word => pure ((answer s.index key cursor.uri word).getD .null)

def hover (params : Json) : Act Json :=
  aboutWord "Hover" params fun index key _ word => Query.hover? index key word

def definition (params : Json) : Act Json :=
  aboutWord "Definition" params Query.definition?

def documentSymbol (params : Json) : Act Json := do
  let uri ← documentUri params
  let index := (← Act.session).index
  let entries ← guarded "Document symbol" [] do
    pure (Query.outline index (← uri.key))
  pure (.list entries)

end LanguageService.Session
