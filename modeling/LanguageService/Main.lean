import LanguageService.Command.Run
/-! The tool as a program: it shows the commands the part of the file system that they look
at, and carries out what they answer. -/
open LanguageService

namespace LanguageService.Main

/-- What one read can take on the machines that the tool is made for. -/
def room : Frame.Room := { run := Int.pow 2 63 - 34, memory := Int.pow 2 39 - 1 }

def look (disk : Disk) (names : List String) : IO Disk := do
  let target := (← IO.currentDir) / (Path.text ⟨false, names⟩)
  if ← target.isDir then
    return { disk with folders := disk.folders ++ [names] }
  try
    let bytes ← IO.FS.readBinFile target
    return { disk with files := disk.files.insert names bytes.toList }
  catch _ => return disk

def picture (paths : List String) : IO Disk := do
  let current := (Path.absolute [] (← IO.currentDir).toString).names
  let mut disk : Disk := { current }
  let mut seen : List (List String) := []
  for path in paths do
    for place in (Path.absolute current path).ancestors.reverse do
      unless seen.contains place.names do
        seen := seen ++ [place.names]
        disk ← look disk place.names
  return disk

def writeBytes (stream : IO.FS.Stream) (bytes : List UInt8) : IO Unit := do
  stream.write (ByteArray.mk bytes.toArray)
  stream.flush

def extend (old new : Disk) : IO Unit := do
  for (names, bytes) in new.files.entries do
    let known := (old.fileAt? names).getD []
    if known ≠ bytes ∨ (old.fileAt? names).isNone then
      let target := (← IO.currentDir) / (Path.text ⟨false, names⟩)
      let handle ← IO.FS.Handle.mk target .append
      handle.write (ByteArray.mk (bytes.drop known.length).toArray)

def settingsFiles (current : List String) (path : String) : List String :=
  (Path.absolute current path).ancestors.map fun folder =>
    (folder.child Settings.fileName).text

def requestPaths (current : List String) : Command.Request → List String
  | .help => []
  | .lsp settings log => settings.toList ++ log.toList
  | .check settings _ files => settings.toList ++ settingsFiles current "." ++ files
  | .symbols settings _ file => settings.toList ++ settingsFiles current "." ++ [file]

def sessionPaths (s : Session) : List String :=
  let root := match s.root with
    | .text (.plain path) => path :: settingsFiles s.disk.current path
    | _ => []
  let log := match s.settings.logFile with
    | some (.plain path) => [path]
    | _ => []
  s.settingsPath.toList ++ log ++ root

/-- Handles what was read, looking at the file system again until nothing new is asked of
it. -/
def react (link : Session.Link) (outcome : Frame.Outcome) (paths : List String) :
    (rounds : Nat) → IO (Disk × Option Session.Ending × Session.Link)
  | 0 => return (link.host.disk, Session.react link outcome)
  | rounds + 1 => do
    let disk ← picture paths
    let disk := { disk with nextHandle := link.host.disk.nextHandle, deeds := link.host.disk.deeds }
    let fresh := { link with host := { link.host with disk } }
    let (ending, next) := Session.react fresh outcome
    let asked := sessionPaths next.host
    if asked.all paths.contains then return (disk, ending, next)
    else react link outcome (paths ++ asked) rounds

partial def readBody (stream : IO.FS.Stream) (wanted : Option Nat) (sofar : ByteArray) :
    IO ByteArray := do
  let chunk ← stream.read (match wanted with
    | some n => (n - sofar.size).toUSize
    | none => 4096)
  if chunk.isEmpty then return sofar
  else readBody stream wanted (sofar ++ chunk)

partial def readFrame (stream : IO.FS.Stream) (sofar : ByteArray) : IO ByteArray := do
  let chunk ← stream.read 1
  if chunk.isEmpty then return sofar
  let sofar := sofar ++ chunk
  if chunk.toList ≠ [10] then readFrame stream sofar
  else match Frame.headers none sofar.toList with
    | (.closed, _) => readFrame stream sofar
    | (.refused _ _, _) => return sofar
    | (.length n, _) =>
      if n < -1 then return sofar
      else
        let body ← readBody stream (if n < 0 then none else some n.toNat) ByteArray.empty
        return sofar ++ body

def report (old new : Session.Link) : IO Unit := do
  writeBytes (← IO.getStdout) (Frame.stream (new.sent.drop old.sent.length))
  (← IO.getStderr).putStr (Session.logText (new.host.log.drop old.host.log.length)).shown

partial def serve (input : IO.FS.Stream) (link : Session.Link) : IO (Session.Ending × Session.Link) := do
  let frame ← readFrame input ByteArray.empty
  let outcome := (Frame.read room frame.toList).1
  let (disk, ending, next) ← react link outcome (sessionPaths link.host) 4
  extend disk next.host.disk
  report link next
  let disk := { next.host.disk with deeds := [] }
  let next := { next with sent := [], host := { next.host with log := [], disk } }
  match ending with
  | some ending => return (ending, next)
  | none => serve input next

def finish (link : Session.Link) (change : Session.Link → Session.Link) : IO Session.Link := do
  let next := change link
  extend link.host.disk next.host.disk
  report link next
  return next

def lsp (settings log : Option String) : IO UInt32 := do
  let disk ← picture (settings.toList ++ log.toList)
  match Command.checkSettings disk settings with
  | .error fault =>
    (← IO.getStderr).putStr (Command.failed disk fault.message).errors.shown
    return 1
  | .ok () =>
    match Command.openLog disk log with
    | .error fault =>
      (← IO.getStderr).putStr ("Error starting LSP server: " ++ fault.message ++ "\n")
      return 1
    | .ok (opened, sink) =>
      if let some path := log.filter (· ≠ "") then
        IO.FS.writeBinFile path ByteArray.empty
      let link ← finish (Command.newLink opened sink settings)
        (Session.record "Asteroid Language Server starting")
      let (ending, link) ← serve (← IO.getStdin) link
      let link ← finish link fun link =>
        Session.record "Server stopped" (Session.recordFailure ending link)
      let _ ← finish link Session.close
      return (Command.exitCode ending).toNat.toUInt32

def command (args : List String) : IO UInt32 := do
  match Command.Request.parse args with
  | .ok (.lsp settings log) => lsp settings log
  | request =>
    let current := (Path.absolute [] (← IO.currentDir).toString).names
    let disk ← picture (match request with
      | .ok r => requestPaths current r
      | .error _ => [])
    let result := Command.run room disk args []
    writeBytes (← IO.getStdout) result.output
    (← IO.getStderr).putStr result.errors.shown
    match result.ending with
    | .exit code => return code.toNat.toUInt32
    | .crash fault =>
      (← IO.getStderr).putStr (fault.message ++ "\n")
      return 1

end LanguageService.Main

def main (args : List String) : IO UInt32 := LanguageService.Main.command args
