import LanguageService.Proofs.Json.Writable
import LanguageService.Rpc.Dispatch

/-! Actions on a connection, run step by step, and what a whole dispatch can change. A relation
between the connection before and after is shown for each handler, and then holds for every
message: whatever an action did before it was interrupted stays done. -/
namespace LanguageService.Act
variable {κ σ α β : Type}

def exec (x : Act κ σ α) (c : Connection κ σ) : Except Interrupt α × Connection κ σ := x.run.run c

@[simp] theorem runPure (a : α) (c : Connection κ σ) : (pure a : Act κ σ α).exec c = (.ok a, c) := rfl

@[simp] theorem runThrow (e : Interrupt) (c : Connection κ σ) :
    (throw e : Act κ σ α).exec c = (.error e, c) := rfl

@[simp] theorem runModify (f : Connection κ σ → Connection κ σ) (c : Connection κ σ) :
    (modify f : Act κ σ Unit).exec c = (.ok (), f c) := rfl

@[simp] theorem runGet (c : Connection κ σ) : (get : Act κ σ _).exec c = (.ok c, c) := rfl

@[simp] theorem runSet (d c : Connection κ σ) : (set d : Act κ σ _).exec c = (.ok ⟨⟩, d) := rfl

@[simp] theorem runLiftOk (a : α) (c : Connection κ σ) :
    (liftM (Except.ok a : Except Fault α) : Act κ σ α).exec c = (.ok a, c) := rfl

@[simp] theorem runLiftError (fault : Fault) (c : Connection κ σ) :
    (liftM (Except.error fault : Except Fault α) : Act κ σ α).exec c = (.error (.fault fault), c) := rfl

@[simp] theorem runBind (x : Act κ σ α) (f : α → Act κ σ β) (c : Connection κ σ) :
    Act.exec (x >>= f) c = match x.exec c with
      | (.ok a, c) => (f a).exec c
      | (.error e, c) => (.error e, c) := by
  show ExceptT.bind x f c = _
  obtain ⟨result, c', ran⟩ : ∃ result c', x c = (result, c') := ⟨_, _, rfl⟩
  have ran' : x.exec c = (result, c') := ran
  simp only [ExceptT.bind, ExceptT.mk, bind, StateT.bind, ran, ran']
  cases result <;> rfl

@[simp] theorem runTryCatch (x : Act κ σ α) (f : Interrupt → Act κ σ α) (c : Connection κ σ) :
    Act.exec (tryCatch x f) c = match x.exec c with
      | (.ok a, c) => (.ok a, c)
      | (.error e, c) => (f e).exec c := by
  show ExceptT.tryCatch x f c = _
  obtain ⟨result, c', ran⟩ : ∃ result c', x c = (result, c') := ⟨_, _, rfl⟩
  have ran' : x.exec c = (result, c') := ran
  simp only [ExceptT.tryCatch, ExceptT.mk, bind, StateT.bind, ran, ran']
  cases result <;> rfl

theorem runSend (message : Json) (c : Connection κ σ) :
    (send message).exec c = if message.isScalar then (.ok (), c.push message)
      else (.error (.fault (.unencodable (.ofPoints message.renderPoints))), c) := by
  unfold send
  cases scalar : message.isScalar with
  | true => rw [Json.writableIff.mpr scalar]; rfl
  | false => rw [Json.unwritable scalar]; rfl

theorem sendHost (message : Json) (c : Connection κ σ) : ((send message).exec c).2.host = c.host := by
  rw [runSend]
  split <;> rfl

theorem runCall (method : Json) (params : Option Json) (callback : Option κ) (c : Connection κ σ) :
    (call method params callback).exec c =
      (send (Connection.request c.nextId method params)).exec (c.reserve callback) := rfl

def Within (r : Connection κ σ → Connection κ σ → Prop) (x : Act κ σ α) : Prop :=
  ∀ c, r c (x.exec c).2

structure Order (r : Connection κ σ → Connection κ σ → Prop) : Prop where
  refl : ∀ c, r c c
  trans : ∀ {a b c}, r a b → r b c → r a c

namespace Order
variable {r : Connection κ σ → Connection κ σ → Prop} (order : Order r)
include order

theorem pure (a : α) : Within r (pure a : Act κ σ α) := order.refl

theorem throw (e : Interrupt) : Within r (throw e : Act κ σ α) := order.refl

theorem get : Within r (get : Act κ σ (Connection κ σ)) := order.refl

theorem bind {x : Act κ σ α} {f : α → Act κ σ β} (first : Within r x)
    (rest : ∀ a, Within r (f a)) : Within r (x >>= f) := by
  intro c
  have before := first c
  rw [runBind]
  split
  · rename_i a c' ran
    rw [ran] at before
    exact order.trans before (rest a c')
  · rename_i e c' ran
    rwa [ran] at before

theorem tryCatch {x : Act κ σ α} {f : Interrupt → Act κ σ α} (first : Within r x)
    (rest : ∀ e, Within r (f e)) : Within r (tryCatch x f) := by
  intro c
  have before := first c
  rw [runTryCatch]
  split
  · rename_i a c' ran
    rwa [ran] at before
  · rename_i e c' ran
    rw [ran] at before
    exact order.trans before (rest e c')

end Order

/- A property of actions that putting them together keeps. -/
structure Closed (P : ∀ {α : Type}, Act κ σ α → Prop) : Prop where
  pure : ∀ {α : Type} (a : α), P (Pure.pure a : Act κ σ α)
  throw : ∀ {α : Type} (e : Interrupt), P (MonadExcept.throw e : Act κ σ α)
  bind : ∀ {α β : Type} {x : Act κ σ α} {f : α → Act κ σ β}, P x → (∀ a, P (f a)) → P (x >>= f)
  tryCatch : ∀ {α : Type} {x : Act κ σ α} {f : Interrupt → Act κ σ α}, P x → (∀ e, P (f e)) →
    P (MonadExcept.tryCatch x f)

theorem Order.closed {r : Connection κ σ → Connection κ σ → Prop} (order : Order r) : Closed (Within r) :=
  ⟨order.pure, order.throw, order.bind, order.tryCatch⟩

namespace Closed
variable {P : ∀ {α : Type}, Act κ σ α → Prop} (closed : Closed P)
include closed

theorem lift (value : Except Fault α) : P (liftM value : Act κ σ α) := by
  cases value with
  | ok a => exact closed.pure a
  | error fault => exact closed.throw _

theorem bindLift {value : Except Fault α} {f : α → Act κ σ β} (rest : ∀ a, value = .ok a → P (f a)) :
    P (liftM value >>= f) := by
  cases value with
  | ok a => exact rest a rfl
  | error fault => exact closed.throw _

end Closed

end LanguageService.Act

namespace LanguageService.Host
open Act (Within Order Closed)
variable {κ σ : Type} {h : Host κ σ} {r : Connection κ σ → Connection κ σ → Prop}

theorem handlerFound {α : Type} {find? : Text → Option α} {method : Json} {run : α}
    (found : handler? find? method = .ok (some run)) :
    ∃ name, method = .text name ∧ find? name = some run := by
  cases method with
  | text name => exact ⟨name, rfl, Except.ok.inj found⟩
  | real x =>
    simp only [handler?, Json.key, Json.key?] at found
    split at found <;> cases found
  | _ => cases found

theorem handlerComposite {α : Type} (find? : Text → Option α) {method : Json}
    (composite : method.key? = none) : handler? find? method = .error (.notKey method.kind) := by
  unfold handler?
  rw [Json.key, composite]
  rfl

theorem handlerUnknown {α : Type} {find? : Text → Option α} {method : Json} {key : Key}
    (plain : method.key? = some key) (unknown : ∀ name, method = .text name → find? name = none) :
    handler? find? method = .ok none := by
  unfold handler?
  rw [Json.key, plain]
  cases method with
  | text name => exact congrArg Except.ok (unknown name rfl)
  | _ => rfl

theorem handlerKnown {α : Type} {find? : Text → Option α} {name : Text} {run : α}
    (found : find? name = some run) : handler? find? (.text name) = .ok (some run) :=
  congrArg Except.ok found

section Closed
variable {P : ∀ {α : Type}, Act κ σ α → Prop} (closed : Closed P) (log : ∀ line, P (h.note line))
include closed log

theorem respondHolds {method params : Json}
    (handlers : ∀ name run, method = .text name → h.request? name = some run → P (run params))
    (id : Json) : P (h.respond id method params) := by
  refine closed.bindLift fun found lookup => ?_
  cases found with
  | none => exact closed.pure _
  | some run =>
    obtain ⟨name, named, registered⟩ := handlerFound lookup
    refine closed.tryCatch (closed.bind (handlers name run named registered) fun _ => closed.pure _) ?_
    intro interrupt
    cases interrupt with
    | refusal code message data => exact closed.bind (closed.lift _) fun _ => closed.pure _
    | exit code => exact closed.throw _
    | _ => exact closed.bind (log _) fun _ => closed.pure _

theorem notifyHolds {method params : Json}
    (handlers : ∀ name run, method = .text name → h.notification? name = some run → P (run params)) :
    P (h.notify method params) := by
  refine closed.bindLift fun found lookup => ?_
  cases found with
  | none =>
    cases method with
    | text name =>
      show P (if isOptional name then _ else _)
      split
      · exact closed.pure _
      · exact log _
    | _ => exact closed.throw _
  | some run =>
    obtain ⟨name, named, registered⟩ := handlerFound lookup
    refine closed.tryCatch (handlers name run named registered) ?_
    intro interrupt
    cases interrupt with
    | exit code => exact closed.throw _
    | _ => exact log _

theorem handleHolds {message : List (Text × Json)} (settles : P (h.settle message))
    (requests : ∀ name run, message.lookup (.plain "method") = some (.text name) →
      ((message.lookup (.plain "id")).getD .null).isNull = false → h.request? name = some run →
      P (run (parameters message)))
    (notifications : ∀ name run, message.lookup (.plain "method") = some (.text name) →
      ((message.lookup (.plain "id")).getD .null).isNull = true → h.notification? name = some run →
      P (run (parameters message))) :
    P (h.handle message) := by
  unfold handle
  cases named : message.lookup (.plain "method") with
  | none =>
    simp only
    split
    · exact closed.bind settles fun _ => closed.pure _
    · exact closed.pure _
  | some method =>
    simp only
    split
    · rename_i silent
      refine closed.bind (notifyHolds closed log fun name run same found => ?_) fun _ => closed.pure _
      exact notifications name run (by rw [named, same]) silent found
    · rename_i silent
      refine closed.bind (respondHolds closed log (fun name run same found => ?_) _) fun _ => closed.pure _
      exact requests name run (by rw [named, same]) (by simpa using silent) found

end Closed

theorem settleWithin (order : Order r) (settled : ∀ c pending, r c { c with pending })
    (answered : ∀ callback result error, Within r (h.answered callback result error))
    (message : List (Text × Json)) : Within r (h.settle message) := by
  intro c
  simp only [settle, Act.runBind, Act.runGet]
  split
  · exact order.refl c
  cases (message.lookup (.plain "id")).getD .null |>.key with
  | error fault => exact order.refl c
  | ok key =>
    simp only [Act.runBind, Act.runLiftOk]
    cases c.pending.get? key with
    | none => exact order.refl c
    | some callback =>
      have taken := settled c (c.pending.erase key)
      simp only [Act.runBind, Act.runSet]
      cases message.lookup (.plain "error") with
      | some error => exact order.trans taken (answered callback _ _ _)
      | none => exact order.trans taken (answered callback _ _ _)

theorem handleWithin (order : Order r) (log : ∀ line, Within r (h.note line))
    (settled : ∀ c pending, r c { c with pending })
    (answered : ∀ callback result error, Within r (h.answered callback result error))
    {message : List (Text × Json)}
    (requests : ∀ name run, message.lookup (.plain "method") = some (.text name) →
      ((message.lookup (.plain "id")).getD .null).isNull = false → h.request? name = some run →
      Within r (run (parameters message)))
    (notifications : ∀ name run, message.lookup (.plain "method") = some (.text name) →
      ((message.lookup (.plain "id")).getD .null).isNull = true → h.notification? name = some run →
      Within r (run (parameters message))) :
    Within r (h.handle message) :=
  handleHolds order.closed log (settleWithin order settled answered message) requests notifications

/- How a line in the log ends an action: what follows it, or a fault if the log does not take the line. -/
def logged {α : Type} (h : Host κ σ) (line : Text) (answer : α) (c : Connection κ σ) :
    Except Interrupt α × Connection κ σ :=
  match h.log line c.host with
  | .ok host => (.ok answer, { c with host })
  | .error fault => (.error (.fault fault), c)

theorem runNote (h : Host κ σ) (line : Text) (c : Connection κ σ) : (h.note line).exec c = h.logged line () c := by
  simp only [note, logged, Act.runBind, Act.runGet]
  cases h.log line c.host <;> rfl

def trouble (name : Text) (interrupt : Interrupt) : Text := "Error handling " ++ name ++ ": " ++ interrupt.text

theorem handleNotified {message : List (Text × Json)} {name : Text} {run : Json → Act κ σ Unit}
    (named : message.lookup (.plain "method") = some (.text name))
    (silent : ((message.lookup (.plain "id")).getD .null).isNull = true) (found : h.notification? name = some run)
    (c : Connection κ σ) :
    (h.handle message).exec c = match (run (parameters message)).exec c with
      | (.ok (), c) => (.ok none, c)
      | (.error (.exit code), c) => (.error (.exit code), c)
      | (.error interrupt, c) => h.logged (trouble name interrupt) none c := by
  simp only [handle, named, silent, if_true, notify, handlerKnown found, Act.runBind, Act.runLiftOk, Act.runTryCatch]
  obtain ⟨result, c', ran⟩ : ∃ result c', (run (parameters message)).exec c = (result, c') :=
    ⟨_, _, rfl⟩
  rw [ran]
  match result with
  | .ok () => rfl
  | .error (.exit code) => rfl
  | .error (.fault fault) =>
    simp only [runNote, logged, trouble, Json.plain]
    cases h.log ("Error handling " ++ name ++ ": " ++ (Interrupt.fault fault).text) c'.host <;> rfl
  | .error (.failure text) =>
    simp only [runNote, logged, trouble, Json.plain]
    cases h.log ("Error handling " ++ name ++ ": " ++ (Interrupt.failure text).text) c'.host <;> rfl
  | .error (.refusal code text data) =>
    simp only [runNote, logged, trouble, Json.plain]
    cases h.log ("Error handling " ++ name ++ ": " ++ (Interrupt.refusal code text data).text) c'.host <;> rfl

theorem handleRequested {message : List (Text × Json)} {name : Text} {run : Json → Act κ σ Json}
    (named : message.lookup (.plain "method") = some (.text name))
    (asked : ((message.lookup (.plain "id")).getD .null).isNull = false) (found : h.request? name = some run)
    (c : Connection κ σ) :
    let id := (message.lookup (.plain "id")).getD .null
    (h.handle message).exec c = match (run (parameters message)).exec c with
      | (.ok value, c) => (.ok (some (Connection.result id value)), c)
      | (.error (.exit code), c) => (.error (.exit code), c)
      | (.error (.refusal code text data), c) =>
        match code.toInteger with
        | .ok code => (.ok (some (Connection.error id ⟨code, text, data⟩)), c)
        | .error fault => (.error (.fault fault), c)
      | (.error interrupt, c) =>
        h.logged (trouble name interrupt)
          (some (Connection.error id (.ofText Refusal.internalError interrupt.text))) c := by
  simp only [handle, named, asked, Bool.false_eq_true, if_false, respond, handlerKnown found, Act.runBind,
    Act.runLiftOk, Act.runTryCatch]
  obtain ⟨result, c', ran⟩ : ∃ result c', (run (parameters message)).exec c = (result, c') :=
    ⟨_, _, rfl⟩
  rw [ran]
  match result with
  | .ok value => rfl
  | .error (.exit code) => rfl
  | .error (.fault fault) =>
    simp only [Act.runBind, runNote, logged, trouble, Json.plain]
    cases h.log ("Error handling " ++ name ++ ": " ++ (Interrupt.fault fault).text) c'.host <;> rfl
  | .error (.failure text) =>
    simp only [Act.runBind, runNote, logged, trouble, Json.plain]
    cases h.log ("Error handling " ++ name ++ ": " ++ (Interrupt.failure text).text) c'.host <;> rfl
  | .error (.refusal code text data) =>
    simp only [Act.runBind]
    cases code.toInteger <;> rfl

end LanguageService.Host
