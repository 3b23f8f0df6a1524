import LanguageService.Session.Settings
/-! The life of a session: it is set up, becomes ready, is shut down and left. -/
namespace LanguageService.Session

def serverVersion : String := "0.1.0"

def orEmpty (v : Json) : Json := if v.isTruthy then v else .object []

def workspaceRoot (params : Json) : Except Fault Json := do
  let uri ← params.member "rootUri"
  if uri.isTruthy then
    match uri with
    | .text s => pure (.text (Uri.path s))
    | v => throw (.noMember v.kind "startswith")
  else params.member "rootPath"

def capabilities (workspaceFolders : Bool) : Json :=
  .object (
    ("textDocumentSync", .object [("openClose", .bool true), ("change", .int 1),
      ("save", .object [("includeText", .bool true)])]) ::
    ("completionProvider", .object [
      ("triggerCharacters", .list [.text ".", .text "@", .text " "]),
      ("resolveProvider", .bool true)]) ::
    ("hoverProvider", .bool true) ::
    ("definitionProvider", .bool true) ::
    ("documentSymbolProvider", .bool true) ::
    if workspaceFolders then
      [("workspace", .object [("workspaceFolders", .object [("supported", .bool true)])])]
    else [])

def setUp (params : Json) : Act Json := do
  Act.note "Received initialize request"
  let root ← workspaceRoot params
  Act.update fun s => { s with root }
  Act.tell ("Workspace root: " ++ root.plain)
  let client := orEmpty (← params.member "capabilities")
  let workspace := orEmpty (← client.member "workspace")
  let workspaceFolders := (← workspace.member "workspaceFolders").isTruthy
  Act.update fun s => { s with workspaceFolders }
  let configuration := orEmpty (← workspace.member "didChangeConfiguration")
  let registersConfiguration := (← configuration.member "dynamicRegistration").isTruthy
  Act.update fun s => { s with registersConfiguration }
  loadSettings (← params.member "initializationOptions")
  pure (.object [("capabilities", capabilities workspaceFolders),
    ("serverInfo", .object [("name", .text "asteroid-lsp"), ("version", .text serverVersion)])])

def registration : Json :=
  .object [("registrations", .list [.object [("id", .text "asteroid-configuration"),
    ("method", .text "workspace/didChangeConfiguration")]])]

def ready (_ : Json) : Act Unit := do
  Act.note "Server initialized"
  Act.update fun s => { s with initialized := true }
  if (← Act.session).registersConfiguration then
    LanguageService.Act.call (.text "client/registerCapability") (some registration) (some .registration)

def registered (error : Json) : Act Unit := do
  if error.isNull then pure ()
  else
    let message ← error.member "message"
    Act.tell ("Configuration registration failed: " ++ message.plain)

def shutDown (_ : Json) : Act Json := do
  Act.note "Shutdown requested"
  Act.update fun s => { s with shutdownRequested := true }
  pure .null

def leave (_ : Json) : Act Unit := do
  Act.note "Exit notification received"
  throw (.exit (.int (if (← Act.session).shutdownRequested then 0 else 1)))

end LanguageService.Session
