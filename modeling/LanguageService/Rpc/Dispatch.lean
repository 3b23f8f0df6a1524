import LanguageService.Rpc.Connection
/-! Dispatch: a message goes to the handler of its method, and what the handler does
becomes a response or a line in the log. -/
namespace LanguageService

structure Host (κ σ : Type) where
  request? : Text → Option (Json → Act κ σ Json)
  notification? : Text → Option (Json → Act κ σ Unit)
  answered : κ → (result error : Json) → Act κ σ Unit
  log : Text → σ → Except Fault σ

namespace Host

variable {κ σ : Type}

/-- A line that the log does not take is a fault, and the log stays as it was. -/
def note (h : Host κ σ) (line : Text) : Act κ σ Unit := do
  let c ← get
  let host ← h.log line c.host
  set { c with host }

def handler? {α : Type} (find? : Text → Option α) (method : Json) : Except Fault (Option α) := do
  let _ ← method.key
  match method with
  | .text name => pure (find? name)
  | _ => pure none

/-- The answer to a request. Any failure but an exit and a refusal without a code is an
answer too. -/
def respond (h : Host κ σ) (id method params : Json) : Act κ σ Json := do
  match ← handler? h.request? method with
  | none =>
    pure (Connection.error id
      (.ofText Refusal.methodNotFound ("Method not found: " ++ method.plain)))
  | some run =>
    tryCatch (do pure (Connection.result id (← run params))) fun
      | .refusal code message data => do
        pure (Connection.error id { code := ← code.toInteger, message, data })
      | .exit code => throw (.exit code)
      | interrupt => do
        h.note ("Error handling " ++ method.plain ++ ": " ++ interrupt.text)
        pure (Connection.error id (.ofText Refusal.internalError interrupt.text))

/-- Methods that start with a dollar sign and a slash may be ignored in silence. -/
def isOptional (method : Text) : Bool := ['$', '/'].isPrefixOf method.shown.toList

/-- Any failure of a notification but an exit is a line in the log. -/
def notify (h : Host κ σ) (method params : Json) : Act κ σ Unit := do
  match ← handler? h.notification? method with
  | none =>
    match method with
    | .text name =>
      if isOptional name then pure ()
      else h.note ("Ignoring unhandled notification: " ++ name)
    | v => throw (.fault (.noMember v.kind "startswith"))
  | some run =>
    tryCatch (run params) fun
      | .exit code => throw (.exit code)
      | interrupt => h.note ("Error handling " ++ method.plain ++ ": " ++ interrupt.text)

/-- Takes an answer to an own request. The id is looked at only while some answer is
awaited, and a request is done with before its callback runs. -/
def settle (h : Host κ σ) (message : List (Text × Json)) : Act κ σ Unit := do
  let c ← get
  if c.pending.isEmpty then pure ()
  else
    let key ← ((message.lookup (.plain "id")).getD .null).key
    match c.pending.get? key with
    | none => pure ()
    | some callback =>
      set { c with pending := c.pending.erase key }
      match message.lookup (.plain "error") with
      | some error => h.answered callback .null error
      | none => h.answered callback ((message.lookup (.plain "result")).getD .null) .null

def parameters (message : List (Text × Json)) : Json :=
  match message.lookup (.plain "params") with
  | some v => if v.isTruthy then v else .object []
  | none => .object []

/-- Handles a message, and answers the response if there is one. A message with an id that
is not null is a request. -/
def handle (h : Host κ σ) (message : List (Text × Json)) : Act κ σ (Option Json) := do
  let id := (message.lookup (.plain "id")).getD .null
  match message.lookup (.plain "method") with
  | none =>
    if (message.lookup (.plain "result")).isSome || (message.lookup (.plain "error")).isSome then
      h.settle message
      pure none
    else
      pure (some (Connection.error id (.ofText Refusal.invalidRequest "Missing method field")))
  | some method =>
    if id.isNull then
      h.notify method (parameters message)
      pure none
    else
      pure (some (← h.respond id method (parameters message)))

def isText (word : Text) : Json → Bool
  | .text s => s == word
  | _ => false

def occursIn (word : List Char) : List Char → Bool
  | [] => word.isEmpty
  | c :: rest => word.isPrefixOf (c :: rest) || occursIn word rest

/-- Handles any value as a message. Only an object has members, but a list that holds the
word for the method and a text in which it occurs pass for having one. -/
def receive (h : Host κ σ) : Json → Act κ σ (Option Json)
  | .object message => h.handle message
  | .list items =>
    throw (.fault (if items.any (isText "method") then .listIndex .text
      else .noMember .list "get"))
  | .text s =>
    throw (.fault (if occursIn "method".toList s.shown.toList then .textIndex .text
      else .noMember .text "get"))
  | v => throw (.fault (.notContainer v.kind))

end Host
end LanguageService
