import LanguageService.Json.Inspect
import LanguageService.Language.Vocabulary
/-! Settings, and options that change them. An option that is not known is ignored; one
that is known and wrong leaves all settings as they were. -/
namespace LanguageService

structure Settings where
  lead : CommentLead := .dashes
  logFile : Option Text := none
  diagnostics : Bool := true
  deriving DecidableEq, Repr

namespace Settings

inductive Fault where
  | notObject (kind : Json.Kind)
  | commentLead (given : Json)
  | logFile (kind : Json.Kind)
  | diagnostics (kind : Json.Kind)

def Fault.message : Fault → String
  | .notObject kind => "settings must be an object, got " ++ kind.name
  | .commentLead given =>
    "commentLead must be one of " ++ CommentLead.choices ++ ", got " ++ given.inspect
  | .logFile kind => "logFile must be a string, got " ++ kind.name
  | .diagnostics kind => "diagnostics must be a boolean, got " ++ kind.name

def option {α : Type} (members : List (Text × Json)) (name : Text) (held : α)
    (read : Json → Except Fault α) : Except Fault α :=
  match members.lookup name with
  | none => .ok held
  | some v => read v

def readLead : Json → Except Fault CommentLead
  | .text (.plain s) =>
    match CommentLead.ofText? s with
    | some lead => .ok lead
    | none => .error (.commentLead (.text s))
  | v => .error (.commentLead v)

/-- No file is meant by null and by the empty path. -/
def readLogFile : Json → Except Fault (Option Text)
  | .null => .ok none
  | .text s => .ok (if s = .plain "" then none else some s)
  | v => .error (.logFile v.kind)

def readDiagnostics : Json → Except Fault Bool
  | .bool b => .ok b
  | v => .error (.diagnostics v.kind)

def applied (s : Settings) (members : List (Text × Json)) : Except Fault Settings := do
  let lead ← option members "commentLead" s.lead readLead
  let logFile ← option members "logFile" s.logFile readLogFile
  let diagnostics ← option members "diagnostics" s.diagnostics readDiagnostics
  pure { lead, logFile, diagnostics }

def updated (s : Settings) (options : Json) : Except Fault Settings :=
  if !options.isTruthy then .ok s
  else match options with
    | .object members => s.applied members
    | v => .error (.notObject v.kind)

end Settings
end LanguageService
