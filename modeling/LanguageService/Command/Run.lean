import LanguageService.Command.Usage
import LanguageService.Session.Serve
/-! The commands of the tool as functions of the file system and the input. -/
namespace LanguageService.Command

inductive Ending where
  | exit (code : Int)
  | crash (fault : Disk.Fault)
  deriving DecidableEq, Repr

structure Result where
  ending : Ending
  output : List UInt8 := []
  errors : Text := ""
  disk : Disk

def resolveSettings (disk : Disk) (path : Option String) (lead : Option CommentLead) :
    Except Settings.LoadFault Settings := do
  let settings ← match path.filter (· ≠ "") with
    | some path => Settings.load disk path
    | none => Settings.discover disk none
  pure { settings with lead := lead.getD settings.lead }

def failed (disk : Disk) (message : String) : Result :=
  { ending := .exit 1, errors := ("Error: " ++ message ++ "\n" : String), disk }

def isReported : Disk.Fault → Bool
  | .nullByte | .undecodable _ => false
  | _ => true

def unreadable (path : String) (fault : Disk.Fault) : String :=
  "Error: cannot read " ++ path ++ ": " ++ fault.message ++ "\n"

def printedPlace (p : Position) : String :=
  String.ofList (Number.integerText (p.line + 1) ++ ':' :: Number.integerText (p.character + 1))

def findingLine (path : String) (f : Finding) : String :=
  path ++ ":" ++ printedPlace f.range.start ++ ": error: " ++ f.cause.message ++ "\n"

structure Report where
  output : String := ""
  errors : String := ""
  found : Nat := 0
  failed : Bool := false
  deriving DecidableEq, Repr

def Report.add (r : Report) (path : String) (findings : List Finding) : Report :=
  { r with
    output := r.output ++ String.join (findings.map (findingLine path))
    found := r.found + findings.length }

def Report.skip (r : Report) (path : String) (fault : Disk.Fault) : Report :=
  { r with errors := r.errors ++ unreadable path fault, failed := true }

/-- Checks files in order. A file that cannot be read is reported; one that is no text ends
the command. -/
def checkFiles (disk : Disk) (lead : CommentLead) : Report → List String → Report × Option Disk.Fault
  | r, [] => (r, none)
  | r, path :: rest =>
    match disk.readText path with
    | .ok src =>
      checkFiles disk lead (r.add path (Finding.ofTokens (Token.ofSource lead src))) rest
    | .error fault =>
      if isReported fault then checkFiles disk lead (r.skip path fault) rest
      else (r, some fault)

def Report.summary (r : Report) : String :=
  if r.found = 0 then ""
  else String.ofList (Number.naturalText r.found) ++ " problem(s) found\n"

def Report.isClean (r : Report) : Bool := r.found == 0 && !r.failed

def check (disk : Disk) (path : Option String) (lead : Option CommentLead)
    (files : List String) : Result :=
  match resolveSettings disk path lead with
  | .error fault => failed disk fault.message
  | .ok settings =>
    match checkFiles disk settings.lead {} files with
    | (r, none) =>
      { ending := .exit (if r.isClean then 0 else 1)
        output := Text.Utf8.encode r.output
        errors := r.errors ++ r.summary
        disk }
    | (r, some fault) =>
      { ending := .crash fault, output := Text.Utf8.encode r.output, errors := r.errors, disk }

def column (word : String) : String :=
  word ++ String.ofList (List.replicate (9 - word.length) ' ') ++ " "

def symbolLine (s : Symbol) : String :=
  column s.display ++ s.name ++ " " ++ printedPlace s.range.start ++ "\n"

def importLine (module : String) : String := column "import" ++ module ++ "\n"

def outlineText (o : Outline) : String :=
  String.join (o.symbols.values.map symbolLine) ++ String.join (o.imports.map importLine)

def symbols (disk : Disk) (path : Option String) (lead : Option CommentLead) (file : String) :
    Result :=
  match resolveSettings disk path lead with
  | .error fault => failed disk fault.message
  | .ok settings =>
    match disk.readText file with
    | .ok src =>
      { ending := .exit 0
        output := Text.Utf8.encode (outlineText (Outline.ofSource settings.lead src))
        disk }
    | .error fault =>
      if isReported fault then { ending := .exit 1, errors := unreadable file fault, disk }
      else { ending := .crash fault, disk }

def openLog (disk : Disk) (log : Option String) : Except Disk.Fault (Disk × Session.Sink) :=
  match log.filter (· ≠ "") with
  | none => .ok (disk, .none)
  | some path => do
    let (disk, file) ← disk.openFile path true
    pure (disk, .given file)

/-- The file that was handed in is closed where it was opened. -/
def closeLog (disk : Disk) : Session.Sink → Disk
  | .given file => disk.close file
  | _ => disk

def exitCode : Session.Ending → Int
  | .exit (.int code) => code
  | _ => 0

def checkSettings (disk : Disk) (path : Option String) : Except Settings.LoadFault Unit :=
  match path.filter (· ≠ "") with
  | some path => do
    let _ ← Settings.load disk path
    pure ()
  | none => .ok ()

def newLink (disk : Disk) (sink : Session.Sink) (settingsPath : Option String) : Session.Link :=
  { host := { disk, sink, settingsPath } }

def lsp (room : Frame.Room) (disk : Disk) (settings log : Option String) (input : List UInt8) : Result :=
  match checkSettings disk settings with
  | .error fault => failed disk fault.message
  | .ok () =>
    match openLog disk log with
    | .error fault =>
      { ending := .exit 1
        errors := "Error starting LSP server: " ++ fault.message ++ "\n"
        disk }
    | .ok (disk, sink) =>
      let (ending, link) := Session.serve room (newLink disk sink settings) input
      { ending := .exit (exitCode ending)
        output := Frame.stream link.sent
        errors := Session.logText link.host.log
        disk := closeLog link.host.disk sink }

def run (room : Frame.Room) (disk : Disk) (args : List String) (input : List UInt8) : Result :=
  match Request.parse args with
  | .error halt =>
    { ending := .exit halt.code, output := Text.Utf8.encode halt.output, errors := halt.errors
      disk }
  | .ok .help =>
    { ending := .exit 2
      output := Text.Utf8.encode (mainGrammar.usage ++ mainGrammar.details)
      disk }
  | .ok (.lsp settings log) => lsp room disk settings log input
  | .ok (.check settings lead files) => check disk settings lead files
  | .ok (.symbols settings lead file) => symbols disk settings lead file

end LanguageService.Command
