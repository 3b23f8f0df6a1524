import LanguageService.Session.Features
import LanguageService.Session.Lifecycle
import LanguageService.Wire.Frame
/-! The language server: a host for a connection, and its run over a stream of bytes. -/
namespace LanguageService.Session

def request? (method : Text) : Option (Json → Act Json) :=
  match method with
  | .plain "initialize" => some setUp
  | .plain "shutdown" => some shutDown
  | .plain "textDocument/completion" => some completion
  | .plain "completionItem/resolve" => some pure
  | .plain "textDocument/hover" => some hover
  | .plain "textDocument/definition" => some definition
  | .plain "textDocument/documentSymbol" => some documentSymbol
  | _ => Option.none

def notification? (method : Text) : Option (Json → Act Unit) :=
  match method with
  | .plain "initialized" => some ready
  | .plain "exit" => some leave
  | .plain "textDocument/didOpen" => some didOpen
  | .plain "textDocument/didChange" => some didChange
  | .plain "textDocument/didClose" => some didClose
  | .plain "textDocument/didSave" => some didSave
  | .plain "workspace/didChangeConfiguration" => some didChangeConfiguration
  | _ => Option.none

def host : Host Callback Session where
  request? := request?
  notification? := notification?
  answered _ _ error := registered error
  log := tell

abbrev Link := Connection Callback Session

def step (link : Link) (message : List (Text × Json)) : Except Interrupt (Option Json) × Link :=
  (host.handle message).run.run link

def take (link : Link) (message : Json) : Except Interrupt (Option Json) × Link :=
  (host.receive message).run.run link

def record (line : String) (link : Link) : Link :=
  { link with host := link.host.note line }

inductive Ending where
  | streamEnd
  | exit (code : Json)
  | failure (message : Text)

def Interrupt.ending : Interrupt → Ending
  | .exit code => .exit code
  | interrupt => .failure interrupt.text

/-- A response that has no bytes ends the session. -/
def respond (link : Link) (response : Json) : Option Ending × Link :=
  match (LanguageService.Act.send response).run.run link with
  | (.ok (), link) => (Option.none, link)
  | (.error interrupt, link) => (some (Interrupt.ending interrupt), link)

/-- Handles what was read, and answers how the session ends if it does. What is wrong with
a frame is answered, and reading goes on behind it. -/
def react (link : Link) (outcome : Frame.Outcome) : Option Ending × Link :=
  match outcome with
  | .closed => (some .streamEnd, link)
  | .badLength fault => (some (.failure fault.message), link)
  | .refused code message =>
    respond (record ("Protocol error: " ++ message) link)
      (Connection.error .null (.ofText code message))
  | .message members =>
    match step link members with
    | (.ok (some response), link) => respond link response
    | (.ok Option.none, link) => (Option.none, link)
    | (.error interrupt, link) => (some (Interrupt.ending interrupt), link)

def loop (room : Frame.Room) (link : Link) (input : List UInt8) : Ending × Link :=
  match input with
  | [] => (.streamEnd, link)
  | b :: bytes =>
    match react link (Frame.read room (b :: bytes)).1 with
    | (some ending, link) => (ending, link)
    | (Option.none, link) => loop room link (Frame.read room (b :: bytes)).2
termination_by input.length
decreasing_by exact Nat.lt_succ_of_le (Frame.readLength room b bytes)

/-- A failure leaves a line in the log, if the log takes it. -/
def recordFailure (ending : Ending) (link : Link) : Link :=
  match ending with
  | .failure message =>
    match link.host.tell ("Server error: " ++ message) with
    | .ok host => { link with host }
    | .error _ => link
  | _ => link

def close (link : Link) : Link := { link with host := link.host.closeSink }

def serve (room : Frame.Room) (link : Link) (input : List UInt8) : Ending × Link :=
  let (ending, link) := loop room (record "Asteroid Language Server starting" link) input
  (ending, close (record "Server stopped" (recordFailure ending link)))

end LanguageService.Session
