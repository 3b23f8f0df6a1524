import LanguageService.Fault
import LanguageService.Json.Printer
import LanguageService.Rpc.Refusal
/-! A connection: messages sent so far, and own requests whose answers are awaited. -/
namespace LanguageService

/-- Why handling a message stops before its end. A refusal holds what the handler gave for
it, whether or not its code is a number; a failure is that of a handler with words of its
own. -/
inductive Interrupt where
  | refusal (code message data : Json)
  | fault (fault : Fault)
  | failure (message : Text)
  | exit (code : Json)

def Interrupt.text : Interrupt → Text
  | .refusal _ message _ => message.plain
  | .fault cause => cause.message
  | .failure message => message
  | .exit code => code.plain

/-- A connection on behalf of a host. `κ` tells what is to be done with an answer, and ids
count up from one. -/
structure Connection (κ σ : Type) where
  host : σ
  nextId : Nat := 1
  pending : Table Key κ := ∅
  sent : List Json := []

/-- An action on a connection that may be interrupted; what it did before stays done. -/
abbrev Act (κ σ α : Type) := ExceptT Interrupt (StateM (Connection κ σ)) α

instance {κ σ : Type} : MonadLift (Except Fault) (ExceptT Interrupt (StateM (Connection κ σ))) where
  monadLift
    | .ok a => pure a
    | .error fault => throw (.fault fault)

namespace Connection

variable {κ σ : Type}

def version : Text × Json := ("jsonrpc", .text "2.0")

def parameters (params : Option Json) : List (Text × Json) :=
  match params with
  | some v => [("params", v)]
  | none => []

def notification (method : Json) (params : Option Json) : Json :=
  .object (version :: ("method", method) :: parameters params)

def request (id : Nat) (method : Json) (params : Option Json) : Json :=
  .object (version :: ("id", .int id) :: ("method", method) :: parameters params)

def result (id value : Json) : Json :=
  .object [version, ("id", id), ("result", value)]

def error (id : Json) (refusal : Refusal) : Json :=
  .object [version, ("id", id), ("error", refusal.toJson)]

def push (c : Connection κ σ) (message : Json) : Connection κ σ :=
  { c with sent := c.sent ++ [message] }

/-- Gives the next id away; with `callback` an answer under it is awaited from now on. -/
def reserve (c : Connection κ σ) (callback : Option κ) : Connection κ σ :=
  let pending := match callback with
    | some k => c.pending.insert (.int c.nextId) k
    | none => c.pending
  { c with nextId := c.nextId + 1, pending }

end Connection

namespace Act

variable {κ σ : Type}

/-- A message that has no bytes is not sent. -/
def send (message : Json) : Act κ σ Unit :=
  match message.render.unencodable? with
  | none => modify (·.push message)
  | some fault => throw (.fault (.unencodable fault))

def call (method : Json) (params : Option Json) (callback : Option κ) : Act κ σ Unit := do
  let id := (← get).nextId
  modify (·.reserve callback)
  send (Connection.request id method params)

end Act
end LanguageService
