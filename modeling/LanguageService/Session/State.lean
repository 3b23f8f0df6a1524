import LanguageService.Buffer
import LanguageService.Rpc.Dispatch
/-! The state of a language server. Its log file takes every line that has bytes, as writes through open
handles do not fail. -/
namespace LanguageService

/-- Where log lines go beside the error output: nowhere, to a file that was handed in, or
to a file that was opened under a path because the settings name it. -/
inductive Session.Sink where
  | none
  | given (file : Disk.Handle)
  | opened (path : String) (file : Disk.Handle)
  deriving DecidableEq, Repr

inductive Session.Callback where
  | registration
  deriving DecidableEq, Repr

structure Session where
  buffers : Table Key Buffer := ∅
  index : Index := ∅
  settings : Settings := {}
  settingsPath : Option String := none
  initialized : Bool := false
  shutdownRequested : Bool := false
  registersConfiguration : Bool := false
  workspaceFolders : Bool := false
  root : Json := .null
  sink : Session.Sink := .none
  disk : Disk := {}
  log : List Text := []

namespace Session

def Sink.path? : Sink → Option Text
  | .opened path _ => some path
  | _ => Option.none

def Sink.file? : Sink → Option Disk.Handle
  | .none => Option.none
  | .given file => some file
  | .opened _ file => some file

def note (line : String) (s : Session) : Session :=
  let disk := match s.sink.file? with
    | some file => s.disk.append file (line ++ "\n")
    | Option.none => s.disk
  { s with log := s.log ++ [.plain line], disk }

/-- A rough line has no bytes for a file, and then it is not printed either. -/
def tell (line : Text) (s : Session) : Except Fault Session :=
  match line with
  | .plain line => .ok (s.note line)
  | .rough points halved =>
    match s.sink.file? with
    | some _ => .error (.unencodable (.ofPoints points))
    | Option.none => .ok { s with log := s.log ++ [.rough points halved] }

def logText (lines : List Text) : Text :=
  lines.foldl (fun printed line => printed ++ "[asteroid-lsp] " ++ line ++ "\n") ""

def closeSink (s : Session) : Session :=
  match s.sink with
  | .opened _ file => { s with sink := .none, disk := s.disk.close file }
  | _ => s

end Session

abbrev Session.Act (α : Type) := LanguageService.Act Session.Callback Session α

namespace Session.Act

def session : Act Session := do
  return (← get).host

def update (f : Session → Session) : Act Unit :=
  modify fun c => { c with host := f c.host }

def note (line : String) : Act Unit := update (Session.note line)

def tell (line : Text) : Act Unit := do
  let s ← (← session).tell line
  update fun _ => s

end Session.Act
end LanguageService
