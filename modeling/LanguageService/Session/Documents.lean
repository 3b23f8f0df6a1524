import LanguageService.Query.Reply
import LanguageService.Session.Settings
/-! Documents in a session: they open, change, are saved and close, and each analysis
publishes all findings of a document anew. -/
namespace LanguageService.Session

def report (uri : Json) (findings : List Finding) : Json :=
  Connection.notification (.text "textDocument/publishDiagnostics")
    (some (.object [("uri", uri), ("diagnostics", .list (findings.map Reply.finding))]))

def publish (uri : Json) (findings : List Finding) : Act Unit :=
  LanguageService.Act.send (report uri findings)

/-- The index has the new outline before the findings are known to be published. -/
def analyse (key : Key) (b : Buffer) : Act Unit := do
  let s ← Act.session
  let tokens ← Buffer.tokens s.settings.lead b.content
  let (index, findings) := s.index.analyse key b.uri tokens
  Act.update fun s => { s with index }
  publish b.uri (if s.settings.diagnostics then findings else [])

def document (params : Json) : Except Fault Json :=
  params.memberD "textDocument" (.object [])

def documentUri (params : Json) : Except Fault Json := do
  (← document params).memberD "uri" (.text "")

def store (key : Key) (b : Buffer) : Act Unit :=
  Act.update fun s => { s with buffers := s.buffers.insert key b }

def didOpen (params : Json) : Act Unit := do
  let document ← document params
  let uri ← document.memberD "uri" (.text "")
  let languageId ← document.memberD "languageId" (.text "asteroid")
  let version ← document.memberD "version" (.int 0)
  let content ← document.memberD "text" (.text "")
  let b : Buffer := { uri, languageId, version, content }
  Act.tell ("Document opened: " ++ uri.plain)
  let key ← uri.key
  store key b
  analyse key b

/-- Applies changes in order; those before one that fails stay applied. -/
def applyChanges (key : Key) : Buffer → List Json → Act Buffer
  | b, [] => pure b
  | b, change :: rest => do
    let content ← Edit.apply b.content change
    let b := { b with content }
    store key b
    applyChanges key b rest

def didChange (params : Json) : Act Unit := do
  let document ← document params
  let uri ← document.memberD "uri" (.text "")
  let key ← uri.key
  match (← Act.session).buffers.get? key with
  | Option.none => Act.tell ("Warning: didChange for unknown document: " ++ uri.plain)
  | some b =>
    let changes ← (← params.memberD "contentChanges" (.list [])).elements
    let b ← applyChanges key b changes
    let version ← document.memberD "version" b.version
    let b := { b with version }
    store key b
    analyse key b

/-- Closing forgets the document, keeps its outline and clears its findings. The name is
looked up only while some document is open. -/
def didClose (params : Json) : Act Unit := do
  let uri ← documentUri params
  Act.tell ("Document closed: " ++ uri.plain)
  if (← Act.session).buffers.isEmpty then pure ()
  else
    let key ← uri.key
    Act.update fun s => { s with buffers := s.buffers.erase key }
  publish uri []

def didSave (params : Json) : Act Unit := do
  let uri ← documentUri params
  let text ← params.member "text"
  let key ← uri.key
  match (← Act.session).buffers.get? key with
  | Option.none => pure ()
  | some b =>
    if text.isNull then pure ()
    else
      let b := { b with content := text }
      store key b
      analyse key b

def settingsSection : Text := "asteroid"

def section? (params : Json) : Except Fault (Option Json) := do
  match ← params.member "settings" with
  | .object members => pure ((members.lookup settingsSection).filter Json.isTruthy)
  | _ => pure Option.none

def analyseAll : List (Key × Buffer) → Act Unit
  | [] => pure ()
  | (key, b) :: rest => do
    analyse key b
    analyseAll rest

def didChangeConfiguration (params : Json) : Act Unit := do
  match ← section? params with
  | Option.none => pure ()
  | some options =>
    match (← Act.session).settings.updated options with
    | .error fault => Act.note ("Ignoring configuration change: " ++ fault.message)
    | .ok settings =>
      Act.update fun s => { s with settings }
      Act.note "Configuration changed, re-analyzing open documents"
      openLog
      analyseAll (← Act.session).buffers.entries

end LanguageService.Session
