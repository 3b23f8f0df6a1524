import LanguageService.Session.State
/-! Settings in a session: the settings file first, then the client's options, and a log
file that follows them. File names are texts: every half of a pair in a path is taken to have no
bytes, also where a system lets some of them stand for single bytes. -/
namespace LanguageService.Session

def isFolderRoot (disk : Disk) (root : Json) : Except Fault Bool :=
  match root.handleFault?, root with
  | some fault, _ => .error fault
  | Option.none, .text (.plain path) => .ok (disk.isFolder path)
  | Option.none, _ => .ok false

def fileSettings (s : Session) : Except Fault (Option (Except Settings.LoadFault Settings)) :=
  match s.settingsPath.filter (· ≠ "") with
  | some path => .ok (some (Settings.load s.disk path))
  | Option.none =>
    if s.root.isTruthy then do
      if ← isFolderRoot s.disk s.root then
        match s.root with
        | .text (.plain path) => pure (some (Settings.discover s.disk (some path)))
        | _ => pure Option.none
      else pure Option.none
    else .ok Option.none

/-- The log file follows the setting, unless it was handed in. -/
def openLog : Act Unit := do
  let s ← Act.session
  let followed := match s.sink with
    | .given _ => true
    | sink => s.settings.logFile == sink.path?
  if followed then pure ()
  else
    Act.update closeSink
    match s.settings.logFile with
    | Option.none => pure ()
    | some (.rough points _) => throw (.fault (.unencodable (.ofPoints points)))
    | some (.plain path) =>
      match (← Act.session).disk.openFile path false with
      | .ok (disk, file) => Act.update fun s => { s with disk, sink := .opened path file }
      | .error .nullByte => throw (.fault (.disk .nullByte))
      | .error fault =>
        Act.note ("Cannot open log file " ++ path ++ ": " ++ fault.message)

def loadSettings (options : Json) : Act Unit := do
  match ← fileSettings (← Act.session) with
  | some (.ok settings) => Act.update fun s => { s with settings }
  | some (.error fault) => Act.note ("Error loading settings file: " ++ fault.message)
  | Option.none => pure ()
  match (← Act.session).settings.updated options with
  | .ok settings => Act.update fun s => { s with settings }
  | .error fault => Act.note ("Ignoring initializationOptions: " ++ fault.message)
  openLog
  Act.note ("Comment lead: " ++ (← Act.session).settings.lead.text)

end LanguageService.Session
