import LanguageService.Proofs.Session.Invariant

/-! How a message can end a session. The handlers of requests and notifications may fail in any way
and the session goes on, and a message to exit ends it. What is looked up and called around the
handlers is not guarded: a message whose method, id or error has a wrong type ends the session too, and so does
one of which a line has to be logged that has no bytes for the log file. -/
namespace LanguageService.Session

def Faults {α : Type} (x : Act α) : Prop :=
  ∀ link interrupt, (x.exec link).1 = .error interrupt → ∃ fault, interrupt = .fault fault

theorem faultsBind {α β : Type} {x : Act α} {f : α → Act β} (first : Faults x) (rest : ∀ a, Faults (f a)) :
    Faults (x >>= f) := by
  intro link interrupt failed
  -- the interrupt comes from the first part, or from the second one run on what the first left
  rw [Act.runBind] at failed
  obtain ⟨result, after, ran⟩ : ∃ result after, x.exec link = (result, after) := ⟨_, _, rfl⟩
  have stopped := first link interrupt
  rw [ran] at failed stopped
  cases result with
  | ok a => exact rest a after interrupt failed
  | error e => exact stopped (congrArg Except.error (Except.error.inj failed))

theorem faultsAsking : Asking Faults where
  pure _ _ _ failed := by cases failed
  fault fault _ _ failed := ⟨fault, (Except.error.inj failed).symm⟩
  bind := faultsBind
  session _ rest := faultsBind (fun _ _ failed => by cases failed) rest
  tell line link interrupt failed := by
    by_cases takes : Takes link.host line
    · rw [runTellTaken takes] at failed
      cases failed
    · rw [runTellRefused takes] at failed
      exact ⟨_, (Except.error.inj failed).symm⟩

theorem faultsRules : Rules Faults where
  toAsking := faultsAsking
  update _ _ _ _ _ failed := by cases failed
  openLogHolds := faultsAsking.reopens fun _ _ _ _ failed => by cases failed

theorem requestFaults {name : Text} {run : Json → Act Json} (found : request? name = some run)
    (params : Json) : Faults (run params) :=
  faultsRules.requestHolds found (fun _ _ _ _ failed => by cases failed)
    (fun _ _ _ failed => by cases failed) params

theorem sendFaults (message : Json) : Faults (Act.send message) := by
  intro link interrupt failed
  rw [Act.runSend] at failed
  split at failed
  · cases failed
  · exact ⟨_, (Except.error.inj failed).symm⟩

theorem registerFaults :
    Faults (Act.call (.text "client/registerCapability") (some registration) (some .registration)) := by
  intro link interrupt failed
  rw [runRegister] at failed
  cases failed

theorem notificationFaults {name : Text} {run : Json → Act Unit} (found : notification? name = some run)
    (stays : name ≠ "exit") (params : Json) : Faults (run params) :=
  faultsRules.notificationHolds (fun _ _ _ failed => by cases failed) sendFaults registerFaults
    (fun leaves => absurd leaves stays) found params

abbrev idOf (message : Message) : Json := (message.lookup (.plain "id")).getD .null

abbrev errorOf (message : Message) : Json := (message.lookup (.plain "error")).getD .null

def Answers (message : Message) : Prop :=
  message.lookup (.plain "method") = none ∧
    ((message.lookup (.plain "result")).isSome || (message.lookup (.plain "error")).isSome) = true

def ignoringLine (name : Text) : Text := "Ignoring unhandled notification: " ++ name

def refusalLine (error : List (Text × Json)) : Text :=
  "Configuration registration failed: " ++ ((error.lookup (.plain "message")).getD .null).plain

/- A message that ends the session without being meant to. Its method cannot be looked up, or is no
text though it notifies of something; or it answers a request of the session under an id that cannot
be looked up, or with an error that is no object. Or the log does not take the line on a method that is not
handled, or on such an error. -/
inductive Escapes (link : Link) (message : Message) : Fault → Prop where
  | method {method} (named : message.lookup (.plain "method") = some method) (composite : method.key? = none) :
      Escapes link message (.notKey method.kind)
  | notice {method key} (named : message.lookup (.plain "method") = some method)
      (silent : (idOf message).isNull = true) (plain : method.key? = some key)
      (nameless : ∀ name, method ≠ .text name) :
      Escapes link message (.noMember method.kind "startswith")
  | answer (answers : Answers message) (awaiting : link.pending.isEmpty = false)
      (composite : (idOf message).key? = none) : Escapes link message (.notKey (idOf message).kind)
  | refusal {key} (answers : Answers message) (plain : (idOf message).key? = some key)
      (awaited : link.pending.contains key = true) (failed : (errorOf message).isNull = false)
      (bare : ∀ members, errorOf message ≠ .object members) :
      Escapes link message (.noMember (errorOf message).kind "get")
  | unnoted {name} (named : message.lookup (.plain "method") = some (.text name))
      (silent : (idOf message).isNull = true) (unknown : notification? name = none)
      (loud : Host.isOptional name = false) (refused : ¬ Takes link.host (ignoringLine name)) :
      Escapes link message (.unencodable (.ofPoints (ignoringLine name).points))
  | untold {key error} (answers : Answers message) (plain : (idOf message).key? = some key)
      (awaited : link.pending.contains key = true) (failed : errorOf message = .object error)
      (refused : ¬ Takes link.host (refusalLine error)) :
      Escapes link message (.unencodable (.ofPoints (refusalLine error).points))

theorem stepAnswer {message : Message} (answers : Answers message) (link : Link) :
    (step link message).1 = ((host.settle message).exec link).1.map fun _ => Option.none := by
  rw [stepExec]
  simp only [Host.handle, answers.1, answers.2, if_true, Act.runBind]
  obtain ⟨result, after, ran⟩ : ∃ result after, (host.settle message).exec link = (result, after) :=
    ⟨_, _, rfl⟩
  rw [ran]
  cases result <;> rfl

theorem settleAwaited {message : Message} {link : Link} {key : Key} {callback : Callback}
    (plain : (idOf message).key? = some key) (awaited : link.pending.get? key = some callback) :
    (host.settle message).exec link =
      (registered (errorOf message)).exec { link with pending := link.pending.erase key } := by
  simp only [Host.settle, Act.runBind, Act.runGet, Table.getFilled awaited, Bool.false_eq_true, if_false,
    Json.key, plain, Act.runLiftOk, awaited, Act.runSet, errorOf]
  cases message.lookup (.plain "error") <;> rfl

theorem registeredBare {error : Json} (failed : error.isNull = false)
    (bare : ∀ members, error ≠ .object members) (link : Link) :
    (registered error).exec link = (.error (.fault (.noMember error.kind "get")), link) := by
  cases error with
  | null => cases failed
  | object members => exact absurd rfl (bare members)
  | _ => rfl

theorem registeredObject (error : List (Text × Json)) (link : Link) :
    (registered (.object error)).exec link = (Act.tell (refusalLine error)).exec link := by
  simp only [registered, Json.isNull, Bool.false_eq_true, if_false, Json.member, Json.memberD, Act.runBind,
    Act.runLiftOk]
  rfl

theorem stepIgnored {message : Message} {name : Text} (named : message.lookup (.plain "method") = some (.text name))
    (silent : (idOf message).isNull = true) (unknown : notification? name = none)
    (loud : Host.isOptional name = false) (link : Link) :
    (step link message).1 = ((Act.tell (ignoringLine name)).exec link).1.map fun _ => Option.none := by
  have looked : Host.handler? host.notification? (.text name) = .ok Option.none := congrArg Except.ok unknown
  rw [stepExec]
  simp only [Host.handle, named, silent, if_true, Host.notify, looked, Act.runBind, Act.runLiftOk, loud,
    Bool.false_eq_true, if_false, hostNote, ignoringLine]
  obtain ⟨result, after, ran⟩ : ∃ result after, (Act.tell ("Ignoring unhandled notification: " ++ name)).exec link =
    (result, after) := ⟨_, _, rfl⟩
  rw [ran]
  cases result <;> rfl

theorem escapesStep {link : Link} {message : Message} {fault : Fault} (escapes : Escapes link message fault) :
    (step link message).1 = .error (.fault fault) := by
  cases escapes with
  | method named composite =>
    rw [stepExec]
    simp only [Host.handle, named, Host.notify, Host.respond, Host.handlerComposite _ composite]
    split <;> rfl
  | @notice method _ named silent plain nameless =>
    have unknown : Host.handler? notification? method = .ok Option.none :=
      Host.handlerUnknown plain fun name same => absurd same (nameless name)
    rw [stepExec]
    simp only [Host.handle, named, silent, if_true, Host.notify, host, unknown, Act.runBind, Act.runLiftOk]
    cases method with
    | text name => exact absurd rfl (nameless name)
    | _ => rfl
  | answer answers awaiting composite =>
    rw [stepAnswer answers]
    simp only [Host.settle, Act.runBind, Act.runGet, awaiting, Bool.false_eq_true, if_false, Json.key,
      composite, Act.runLiftError, Except.map]
  | refusal answers plain awaited failed bare =>
    obtain ⟨callback, awaited⟩ := Option.isSome_iff_exists.mp awaited
    rw [stepAnswer answers, settleAwaited plain awaited, registeredBare failed bare]
    rfl
  | unnoted named silent unknown loud refused =>
    rw [stepIgnored named silent unknown loud, runTellRefused refused]
    rfl
  | untold answers plain awaited failed refused =>
    obtain ⟨callback, awaited⟩ := Option.isSome_iff_exists.mp awaited
    rw [stepAnswer answers, settleAwaited plain awaited, failed, registeredObject, runTellRefused (by exact refused)]
    rfl

theorem exitStep {message : Message} (notified : Notifies message "exit") (link : Link) :
    (step link message).1 = .error (.exit (.int (if link.host.shutdownRequested then 0 else 1))) := by
  have found : notification? "exit" = some leave := rfl
  rw [stepExec, Host.handleNotified notified.1 notified.2 found]
  rfl

theorem answerOutcome {message : Message} (answers : Answers message) (link : Link) :
    (∃ response, (step link message).1 = .ok response) ∨ ∃ fault, Escapes link message fault := by
  cases awaiting : link.pending.isEmpty with
  | true =>
    refine Or.inl ⟨Option.none, ?_⟩
    rw [stepAnswer answers]
    simp only [Host.settle, Act.runBind, Act.runGet, awaiting, if_true, Act.runPure, Except.map]
  | false =>
    cases plain : (idOf message).key? with
    | none => exact Or.inr ⟨_, .answer answers awaiting plain⟩
    | some key =>
      cases awaited : link.pending.get? key with
      | none =>
        refine Or.inl ⟨Option.none, ?_⟩
        rw [stepAnswer answers]
        simp only [Host.settle, Act.runBind, Act.runGet, awaiting, Bool.false_eq_true, if_false, Json.key, plain,
          Act.runLiftOk, awaited, Act.runPure, Except.map]
      | some callback =>
        have held : link.pending.contains key = true := by
          rw [Table.contains, awaited]
          rfl
        cases error : errorOf message with
        | null =>
          refine Or.inl ⟨Option.none, ?_⟩
          rw [stepAnswer answers, settleAwaited plain awaited, error]
          rfl
        | object members =>
          by_cases takes : Takes link.host (refusalLine members)
          · refine Or.inl ⟨Option.none, ?_⟩
            rw [stepAnswer answers, settleAwaited plain awaited, error, registeredObject,
              runTellTaken (by exact takes)]
            rfl
          · exact Or.inr ⟨_, .untold answers plain held error takes⟩
        | _ =>
          refine Or.inr ⟨_, .refusal answers plain held ?_ ?_⟩
          · rw [error]
            rfl
          · intro members same
            cases error.symm.trans same

theorem requestUnknown {message : Message} {method : Json} (named : message.lookup (.plain "method") = some method)
    (asked : (idOf message).isNull = false) (unknown : Host.handler? host.request? method = .ok none)
    (link : Link) : ∃ response, (step link message).1 = .ok response := by
  rw [stepExec]
  simp only [Host.handle, named, asked, Bool.false_eq_true, if_false, Host.respond, unknown, Act.runBind,
    Act.runLiftOk, Act.runPure]
  exact ⟨_, rfl⟩

/- Every handler has a plain name, so that lines on its failures have bytes. -/
theorem requestPlain {name : Text} {run : Json → Act Json} (found : request? name = some run) :
    name.isPlain = true := by
  cases name with
  | plain name => rfl
  | rough points halved => cases found

theorem noticePlain {name : Text} {run : Json → Act Unit} (found : notification? name = some run) :
    name.isPlain = true := by
  cases name with
  | plain name => rfl
  | rough points halved => cases found

theorem requestOutcome {message : Message} {name : Text} {run : Json → Act Json}
    (named : message.lookup (.plain "method") = some (.text name)) (asked : (idOf message).isNull = false)
    (found : request? name = some run) (link : Link) : ∃ response, (step link message).1 = .ok response := by
  have faults := requestFaults found (Host.parameters message) link
  rw [stepExec, Host.handleRequested named asked found]
  obtain ⟨result, after, ran⟩ : ∃ result after, (run (Host.parameters message)).exec link =
    (result, after) := ⟨_, _, rfl⟩
  rw [ran] at faults ⊢
  cases result with
  | ok value => exact ⟨_, rfl⟩
  | error interrupt =>
    obtain ⟨fault, rfl⟩ := faults interrupt rfl
    obtain ⟨name, rfl⟩ := Text.plainText (requestPlain found)
    exact ⟨_, rfl⟩

theorem noticeUnknown {message : Message} {name : Text}
    (named : message.lookup (.plain "method") = some (.text name)) (silent : (idOf message).isNull = true)
    (unknown : notification? name = none) (link : Link) :
    (∃ response, (step link message).1 = .ok response) ∨ ∃ fault, Escapes link message fault := by
  cases loud : Host.isOptional name with
  | true =>
    have looked : Host.handler? host.notification? (.text name) = .ok Option.none := congrArg Except.ok unknown
    refine Or.inl ⟨Option.none, ?_⟩
    rw [stepExec]
    simp only [Host.handle, named, silent, if_true, Host.notify, looked, Act.runBind, Act.runLiftOk, loud,
      Act.runPure]
  | false =>
    by_cases takes : Takes link.host (ignoringLine name)
    · refine Or.inl ⟨Option.none, ?_⟩
      rw [stepIgnored named silent unknown loud, runTellTaken takes]
      rfl
    · exact Or.inr ⟨_, .unnoted named silent unknown loud takes⟩

theorem requestKeeps {P : Link → Prop} (notes : ∀ line link, P link → P (told line link)) {message : Message}
    {name : Text} {run : Json → Act Json} (requested : Requests message name) (found : request? name = some run)
    {link : Link} (ran : P ((run (Host.parameters message)).exec link).2) : P (step link message).2 := by
  have faults := requestFaults found (Host.parameters message) link
  rw [stepExec, Host.handleRequested requested.1 requested.2 found]
  generalize (run (Host.parameters message)).exec link = handled at faults ran ⊢
  obtain ⟨result, after⟩ := handled
  cases result with
  | ok value => exact ran
  | error interrupt =>
    obtain ⟨fault, rfl⟩ := faults interrupt rfl
    simp only [loggedTold]
    exact notes _ after ran

theorem noticeOutcome {message : Message} {name : Text} {run : Json → Act Unit}
    (named : message.lookup (.plain "method") = some (.text name)) (silent : (idOf message).isNull = true)
    (found : notification? name = some run) (stays : name ≠ "exit") (link : Link) :
    (step link message).1 = .ok Option.none := by
  have faults := notificationFaults found stays (Host.parameters message) link
  rw [stepExec, Host.handleNotified named silent found]
  obtain ⟨result, after, ran⟩ : ∃ result after, (run (Host.parameters message)).exec link =
    (result, after) := ⟨_, _, rfl⟩
  rw [ran] at faults ⊢
  cases result with
  | ok done => rfl
  | error interrupt =>
    obtain ⟨fault, rfl⟩ := faults interrupt rfl
    obtain ⟨name, rfl⟩ := Text.plainText (noticePlain found)
    rfl

theorem stepOutcome (link : Link) (message : Message) :
    (∃ response, (step link message).1 = .ok response) ∨ (∃ fault, Escapes link message fault) ∨
      Notifies message "exit" := by
  cases named : message.lookup (.plain "method") with
  | none =>
    cases answers : (message.lookup (.plain "result")).isSome || (message.lookup (.plain "error")).isSome with
    | true =>
      rcases answerOutcome ⟨named, answers⟩ link with answered | escapes
      · exact Or.inl answered
      · exact Or.inr (Or.inl escapes)
    | false =>
      refine Or.inl ?_
      rw [stepExec]
      simp only [Host.handle, named, answers, Bool.false_eq_true, if_false]
      exact ⟨_, rfl⟩
  | some method =>
    cases plain : method.key? with
    | none => exact Or.inr (Or.inl ⟨_, .method named plain⟩)
    | some key =>
      cases silent : (idOf message).isNull with
      | false =>
        refine Or.inl ?_
        cases method with
        | text name =>
          cases found : request? name with
          | none => exact requestUnknown named silent (congrArg Except.ok found) link
          | some run => exact requestOutcome named silent found link
        | _ => exact requestUnknown named silent (Host.handlerUnknown plain fun _ same => by cases same) link
      | true =>
        cases method with
        | text name =>
          cases found : notification? name with
          | none =>
            rcases noticeUnknown named silent found link with answered | escapes
            · exact Or.inl answered
            · exact Or.inr (Or.inl escapes)
          | some run =>
            by_cases leaves : name = "exit"
            · subst leaves
              exact Or.inr (Or.inr ⟨named, silent⟩)
            · exact Or.inl ⟨_, noticeOutcome named silent found leaves link⟩
        | _ => exact Or.inr (Or.inl ⟨_, .notice named silent plain fun _ same => by cases same⟩)

theorem stepEndsIff (link : Link) (message : Message) (interrupt : Interrupt) :
    (step link message).1 = .error interrupt ↔
      (∃ fault, interrupt = .fault fault ∧ Escapes link message fault) ∨
      (Notifies message "exit" ∧
        interrupt = .exit (.int (if link.host.shutdownRequested then 0 else 1))) := by
  constructor
  · intro ended
    rcases stepOutcome link message with ⟨response, answered⟩ | ⟨fault, escapes⟩ | notified
    · cases answered.symm.trans ended
    · cases (escapesStep escapes).symm.trans ended
      exact Or.inl ⟨fault, rfl, escapes⟩
    · cases (exitStep notified link).symm.trans ended
      exact Or.inr ⟨notified, rfl⟩
  · rintro (⟨fault, rfl, escapes⟩ | ⟨notified, rfl⟩)
    · exact escapesStep escapes
    · exact exitStep notified link

def registeringMessage : Message :=
  [("id", .int 0), ("method", .text "initialize"), ("params", .object [("capabilities", .object
    [("workspace", .object [("didChangeConfiguration", .object [("dynamicRegistration", .bool true)])])])])]

def awaitingLink : Link :=
  (step (step freshLink registeringMessage).2 [("method", .text "initialized")]).2

theorem readyAwaits {link : Link} (registers : link.host.registersConfiguration = true) (params : Json) :
    ∃ after, (ready params).exec link = (.ok (), after) ∧
      after.pending = link.pending.insert (.int link.nextId) .registration := by
  simp only [ready, Act.runBind, runNote, runUpdate, runSession]
  rw [if_pos (by exact registers), runRegister]
  exact ⟨_, rfl, rfl⟩

theorem awaitingPending : awaitingLink.pending = ⟨[(.int 1, .registration)]⟩ := by
  have registers : (step freshLink registeringMessage).2.host.registersConfiguration = true := rfl
  obtain ⟨after, ran, pending⟩ := readyAwaits registers (.object [])
  have notified : Notifies [("method", .text "initialized")] "initialized" := ⟨rfl, rfl⟩
  have stepped := stepNotified notified rfl ran
  rw [awaitingLink, stepped, pending]
  rfl

theorem mistypedMessagesEscape :
    (step freshLink [("method", .int 5)]).1 = .error (.fault (.noMember .int "startswith")) ∧
    (step freshLink [("id", .int 1), ("method", .list [])]).1 = .error (.fault (.notKey .list)) ∧
    (step awaitingLink [("id", .list []), ("result", .null)]).1 = .error (.fault (.notKey .list)) ∧
    (step awaitingLink [("id", .int 1), ("error", .text "no")]).1 =
      .error (.fault (.noMember .text "get")) := by
  refine ⟨rfl, rfl, ?_, ?_⟩
  · exact escapesStep (.answer ⟨rfl, rfl⟩ (by rw [awaitingPending]; rfl) rfl)
  · exact escapesStep (.refusal ⟨rfl, rfl⟩ rfl (by rw [awaitingPending]; rfl) rfl fun _ same => by cases same)

end LanguageService.Session
