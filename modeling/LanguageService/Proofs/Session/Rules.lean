import LanguageService.Proofs.Session.Documents

/-! The handlers of a session, built up from a few actions. A property of actions that these have and
that sequencing keeps is one of every handler; which of them a handler needs tells what it can do to a
session. -/
namespace LanguageService.Session

/-- A change of a session that leaves its documents, its settings and its end alone. -/
def Leaves (f : Session → Session) : Prop :=
  ∀ s, (f s).buffers = s.buffers ∧ (f s).index = s.index ∧ (f s).settings = s.settings ∧
    (f s).shutdownRequested = s.shutdownRequested

/- The log is written and never looked at. -/
def Deaf (f : Session → Session) : Prop := ∀ s log, f { s with log } = { f s with log }

/- No file is concerned. -/
def Unfiled (f : Session → Session) : Prop := ∀ s, (f s).sink = s.sink ∧ (f s).disk = s.disk

/- A change of the documents or the settings. -/
structure Edits (f : Session → Session) : Prop where
  flag : ∀ s, (f s).shutdownRequested = s.shutdownRequested
  deaf : Deaf f
  unfiled : Unfiled f
  distinct : ∀ s, s.buffers.keys.Nodup → (f s).buffers.keys.Nodup

theorem storeEdits (key : Key) (b : Buffer) : Edits fun s => { s with buffers := s.buffers.insert key b } :=
  ⟨fun _ => rfl, fun _ _ => rfl, fun _ => ⟨rfl, rfl⟩, fun _ distinct => Table.nodupInsert distinct _ _⟩

theorem eraseEdits (key : Key) : Edits fun s => { s with buffers := s.buffers.erase key } :=
  ⟨fun _ => rfl, fun _ _ => rfl, fun _ => ⟨rfl, rfl⟩, fun _ distinct => Table.nodupErase distinct _⟩

theorem indexEdits (index : Index) : Edits fun s => { s with index } :=
  ⟨fun _ => rfl, fun _ _ => rfl, fun _ => ⟨rfl, rfl⟩, fun _ distinct => distinct⟩

theorem settingsEdits (settings : Settings) : Edits fun s => { s with settings } :=
  ⟨fun _ => rfl, fun _ _ => rfl, fun _ => ⟨rfl, rfl⟩, fun _ distinct => distinct⟩

/- What suffices for handlers that ask and note, and what for those that change a session as well. -/
structure Asking (P : ∀ {α : Type}, Act α → Prop) : Prop where
  pure : ∀ {α : Type} (a : α), P (Pure.pure a : Act α)
  fault : ∀ {α : Type} (fault : Fault), P (throw (.fault fault) : Act α)
  bind : ∀ {α β : Type} {x : Act α} {f : α → Act β}, P x → (∀ a, P (f a)) → P (x >>= f)
  session : ∀ {α : Type} {f : Session → Act α}, (∀ s log, f { s with log } = f s) → (∀ s, P (f s)) →
    P (Act.session >>= f)
  tell : ∀ line, P (Act.tell line)

structure Rules (P : ∀ {α : Type}, Act α → Prop) : Prop extends Asking P where
  update : ∀ {f : Session → Session}, Leaves f → Deaf f → Unfiled f → P (Act.update f)
  openLogHolds : P openLog

theorem tellLeaves (line : Text) : Leaves fun s => (s.tell line).toOption.getD s := by
  intro s
  cases line with
  | plain line => exact ⟨rfl, rfl, rfl, rfl⟩
  | rough points halved =>
    simp only [tell]
    cases s.sink.file? <;> exact ⟨rfl, rfl, rfl, rfl⟩

theorem closeSinkLeaves : Leaves closeSink := by
  intro s
  unfold closeSink
  split <;> exact ⟨rfl, rfl, rfl, rfl⟩

theorem closeSinkDeaf : Deaf closeSink := by
  intro s log
  unfold closeSink
  simp only
  split <;> rfl

def followed (s : Session) : Bool :=
  match s.sink with
  | .given _ => true
  | sink => s.settings.logFile == sink.path?

def reopen (s : Session) : Act Unit := do
  Act.update closeSink
  match s.settings.logFile with
  | Option.none => pure ()
  | some (.rough points _) => throw (.fault (.unencodable (.ofPoints points)))
  | some (.plain path) =>
    match (← Act.session).disk.openFile path false with
    | .ok (disk, file) => Act.update fun s => { s with disk, sink := .opened path file }
    | .error .nullByte => throw (.fault (.disk .nullByte))
    | .error fault => Act.note ("Cannot open log file " ++ path ++ ": " ++ fault.message)

theorem openLogEq : openLog = (do
    let s ← Act.session
    if followed s then pure () else reopen s) := rfl

/- The request of a session has bytes, so that it is sent. -/
theorem runRegister (link : Link) :
    (Act.call (.text "client/registerCapability") (some registration) (some .registration)).exec link =
      (.ok (), (link.reserve (some .registration)).push
        (Connection.request link.nextId (.text "client/registerCapability") (some registration))) := by
  rw [Act.runCall, Act.runSend, if_pos]
  rfl

def effective : List Text :=
  ["textDocument/didOpen", "textDocument/didChange", "textDocument/didClose", "textDocument/didSave",
    "workspace/didChangeConfiguration"]

namespace Asking
variable {P : ∀ {α : Type}, Act α → Prop} (rules : Asking P)
include rules

theorem lift {α : Type} (value : Except Fault α) : P (liftM value : Act α) := by
  cases value with
  | ok a => exact rules.pure a
  | error fault => exact rules.fault fault

theorem note (line : String) : P (Act.note line) := by
  rw [noteTell]
  exact rules.tell _

theorem hostNote (line : Text) : P (host.note line) := by
  rw [Session.hostNote]
  exact rules.tell line

theorem guardedHolds {α : Type} (what : String) (fallback : α) (query : Except Fault α) :
    P (guarded what fallback query) := by
  cases query with
  | ok answer => exact rules.pure answer
  | error fault => exact rules.bind (rules.note _) fun _ => rules.pure fallback

theorem completionHolds (params : Json) : P (completion params) :=
  rules.bind (rules.lift _) fun _ => rules.session (fun _ _ => rfl) fun _ =>
    rules.bind (rules.guardedHolds _ _ _) fun _ => rules.pure _

theorem aboutWordHolds (what : String) (params : Json)
    (answer : Index → Key → Json → Word → Option Json) : P (aboutWord what params answer) := by
  refine rules.bind (rules.lift _) fun cursor => rules.bind (rules.lift _) fun key =>
    rules.session (fun _ _ => rfl) fun s => ?_
  cases s.buffers.get? key with
  | none => exact rules.pure _
  | some b => exact rules.guardedHolds _ _ _

theorem documentSymbolHolds (params : Json) : P (documentSymbol params) :=
  rules.bind (rules.lift _) fun _ => rules.session (fun _ _ => rfl) fun _ =>
    rules.bind (rules.guardedHolds _ _ _) fun _ => rules.pure _

theorem reopenHolds (update : ∀ {f : Session → Session}, Leaves f → Deaf f → P (Act.update f)) (s : Session) :
    P (reopen s) := by
  refine rules.bind (update closeSinkLeaves closeSinkDeaf) fun _ => ?_
  rcases s.settings.logFile with _ | path | ⟨points, halved⟩
  · exact rules.pure _
  · refine rules.session (fun _ _ => rfl) fun shut => ?_
    split
    · exact update (fun _ => ⟨rfl, rfl, rfl, rfl⟩) fun _ _ => rfl
    · exact rules.fault _
    · exact rules.note _
  · exact rules.fault _

/- For properties that any change has which leaves documents, settings and end alone. -/
theorem reopens (update : ∀ {f : Session → Session}, Leaves f → Deaf f → P (Act.update f)) : P openLog := by
  rw [openLogEq]
  refine rules.session (fun _ _ => rfl) fun s => ?_
  split
  · exact rules.pure _
  · exact rules.reopenHolds update s

theorem registeredHolds (error : Json) : P (registered error) := by
  unfold registered
  split
  · exact rules.pure _
  · exact rules.bind (rules.lift _) fun _ => rules.tell _

/- Requests that ask about documents. -/
theorem questionHolds {name : Text} {run : Json → Act Json} (found : request? name = some run)
    (asks : name ∉ ([.plain "initialize", .plain "shutdown"] : List Text)) (params : Json) : P (run params) := by
  unfold request? at found
  split at found
  · exact absurd (by decide) asks
  · exact absurd (by decide) asks
  all_goals cases found
  · exact rules.completionHolds params
  · exact rules.pure params
  · exact rules.aboutWordHolds _ params _
  · exact rules.aboutWordHolds _ params _
  · exact rules.documentSymbolHolds params

end Asking

namespace Rules
variable {P : ∀ {α : Type}, Act α → Prop} (rules : Rules P)
include rules

theorem loadSettingsHolds (assign : ∀ settings, P (Act.update fun s => { s with settings }))
    (options : Json) : P (loadSettings options) := by
  have logged : P (do
      openLog
      Act.note ("Comment lead: " ++ (← Act.session).settings.lead.text)) :=
    rules.bind rules.openLogHolds fun _ => rules.session (fun _ _ => rfl) fun _ => rules.note _
  refine rules.session (fun _ _ => rfl) fun s => rules.bind (rules.lift _) fun file => ?_
  rcases file with _ | fault | settings
  case' some.error => refine rules.bind (rules.note _) fun _ => ?_
  case' some.ok => refine rules.bind (assign settings) fun _ => ?_
  all_goals
    refine rules.session (fun _ _ => rfl) fun s => ?_
    cases s.settings.updated options with
    | ok settings => exact rules.bind (assign settings) fun _ => logged
    | error fault => exact rules.bind (rules.note _) fun _ => logged

theorem setUpHolds (assign : ∀ settings, P (Act.update fun s => { s with settings })) (params : Json) :
    P (setUp params) := by
  refine rules.bind (rules.note _) fun _ => rules.bind (rules.lift _) fun root =>
    rules.bind (rules.update (fun _ => ⟨rfl, rfl, rfl, rfl⟩) (fun _ _ => rfl) fun _ => ⟨rfl, rfl⟩) fun _ =>
    rules.bind (rules.tell _) fun _ => rules.bind (rules.lift _) fun _ =>
    rules.bind (rules.lift _) fun _ => rules.bind (rules.lift _) fun _ =>
    rules.bind (rules.update (fun _ => ⟨rfl, rfl, rfl, rfl⟩) (fun _ _ => rfl) fun _ => ⟨rfl, rfl⟩) fun _ =>
    rules.bind (rules.lift _) fun _ => rules.bind (rules.lift _) fun _ =>
    rules.bind (rules.update (fun _ => ⟨rfl, rfl, rfl, rfl⟩) (fun _ _ => rfl) fun _ => ⟨rfl, rfl⟩) fun _ =>
    rules.bind (rules.lift _) fun options =>
    rules.bind (rules.loadSettingsHolds assign options) fun _ => rules.pure _

theorem readyHolds (call : P (Act.call (.text "client/registerCapability") (some registration) (some .registration)))
    (params : Json) : P (ready params) := by
  refine rules.bind (rules.note _) fun _ =>
    rules.bind (rules.update (fun _ => ⟨rfl, rfl, rfl, rfl⟩) (fun _ _ => rfl) fun _ => ⟨rfl, rfl⟩) fun _ =>
    rules.session (fun _ _ => rfl) fun s => ?_
  split
  · exact call
  · exact rules.pure _

theorem leaveHolds (exit : ∀ code, P (throw (.exit code) : Act Unit)) (params : Json) : P (leave params) :=
  rules.bind (rules.note _) fun _ => rules.session (fun _ _ => rfl) fun _ => exit _

theorem requestHolds {name : Text} {run : Json → Act Json} (found : request? name = some run)
    (set : name = "initialize" → ∀ settings, P (Act.update fun s => { s with settings }))
    (shut : name = "shutdown" → P (Act.update fun s => { s with shutdownRequested := true }))
    (params : Json) : P (run params) := by
  by_cases first : name = "initialize"
  · subst first
    cases found
    exact rules.setUpHolds (set rfl) params
  by_cases last : name = "shutdown"
  · subst last
    cases found
    exact rules.bind (rules.note _) fun _ => rules.bind (shut rfl) fun _ => rules.pure _
  · exact rules.questionHolds found (by simp [first, last]) params

/- Notifications that are not about documents or settings. -/
theorem lifeHolds
    (call : P (Act.call (.text "client/registerCapability") (some registration) (some .registration)))
    {name : Text} (exit : name = "exit" → ∀ code, P (throw (.exit code) : Act Unit))
    {run : Json → Act Unit} (found : notification? name = some run) (other : name ∉ effective)
    (params : Json) : P (run params) := by
  unfold notification? at found
  split at found
  · cases found
    exact rules.readyHolds call params
  · cases found
    exact rules.leaveHolds (exit rfl) params
  all_goals first | cases found; done | exact absurd (by decide) other

section Documents
variable (change : ∀ {f : Session → Session}, Edits f → P (Act.update f))
  (send : ∀ message, P (Act.send message))
include change

theorem applyChangesHolds (key : Key) (b : Buffer) (changes : List Json) : P (applyChanges key b changes) := by
  induction changes generalizing b with
  | nil => exact rules.pure b
  | cons value rest ih =>
    exact rules.bind (rules.lift _) fun _ => rules.bind (change (storeEdits _ _)) fun _ => ih _

include send

theorem analyseHolds (key : Key) (b : Buffer) : P (analyse key b) :=
  rules.session (fun _ _ => rfl) fun _ => rules.bind (rules.lift _) fun _ =>
    rules.bind (change (indexEdits _)) fun _ => send _

theorem analyseAllHolds (entries : List (Key × Buffer)) : P (analyseAll entries) := by
  induction entries with
  | nil => exact rules.pure _
  | cons entry rest ih => exact rules.bind (rules.analyseHolds change send entry.1 entry.2) fun _ => ih

theorem didOpenHolds (params : Json) : P (didOpen params) :=
  rules.bind (rules.lift _) fun _ => rules.bind (rules.lift _) fun _ => rules.bind (rules.lift _) fun _ =>
    rules.bind (rules.lift _) fun _ => rules.bind (rules.lift _) fun _ => rules.bind (rules.tell _) fun _ =>
    rules.bind (rules.lift _) fun _ => rules.bind (change (storeEdits _ _)) fun _ =>
    rules.analyseHolds change send _ _

theorem didChangeHolds (params : Json) : P (didChange params) := by
  refine rules.bind (rules.lift _) fun _ => rules.bind (rules.lift _) fun uri =>
    rules.bind (rules.lift _) fun key => rules.session (fun _ _ => rfl) fun s => ?_
  cases s.buffers.get? key with
  | none => exact rules.tell _
  | some b =>
    exact rules.bind (rules.lift _) fun _ => rules.bind (rules.lift _) fun _ =>
      rules.bind (rules.applyChangesHolds change _ _ _) fun _ => rules.bind (rules.lift _) fun _ =>
      rules.bind (change (storeEdits _ _)) fun _ => rules.analyseHolds change send _ _

theorem didCloseHolds (params : Json) : P (didClose params) := by
  refine rules.bind (rules.lift _) fun _ => rules.bind (rules.tell _) fun _ =>
    rules.session (fun _ _ => rfl) fun s => ?_
  split
  · exact send _
  · exact rules.bind (rules.lift _) fun _ => rules.bind (change (eraseEdits _)) fun _ => send _

theorem didSaveHolds (params : Json) : P (didSave params) := by
  refine rules.bind (rules.lift _) fun _ => rules.bind (rules.lift _) fun text =>
    rules.bind (rules.lift _) fun key => rules.session (fun _ _ => rfl) fun s => ?_
  cases s.buffers.get? key with
  | none => exact rules.pure _
  | some b =>
    simp only
    split
    · exact rules.pure _
    · exact rules.bind (change (storeEdits _ _)) fun _ => rules.analyseHolds change send _ _

theorem didChangeConfigurationHolds (params : Json) : P (didChangeConfiguration params) := by
  refine rules.bind (rules.lift _) fun chosen => ?_
  cases chosen with
  | none => exact rules.pure _
  | some options =>
    refine rules.session (fun _ _ => rfl) fun s => ?_
    cases s.settings.updated options with
    | error fault => exact rules.note _
    | ok settings =>
      exact rules.bind (change (settingsEdits settings)) fun _ => rules.bind (rules.note _) fun _ =>
        rules.bind rules.openLogHolds fun _ => rules.session (fun _ _ => rfl) fun _ =>
        rules.analyseAllHolds change send _

theorem notificationHolds
    (call : P (Act.call (.text "client/registerCapability") (some registration) (some .registration)))
    {name : Text} (exit : name = "exit" → ∀ code, P (throw (.exit code) : Act Unit))
    {run : Json → Act Unit} (found : notification? name = some run) (params : Json) : P (run params) := by
  by_cases listed : name ∈ effective
  · simp only [effective, List.mem_cons, List.not_mem_nil, or_false] at listed
    rcases listed with rfl | rfl | rfl | rfl | rfl
    all_goals cases found
    · exact rules.didOpenHolds change send params
    · exact rules.didChangeHolds change send params
    · exact rules.didCloseHolds change send params
    · exact rules.didSaveHolds change send params
    · exact rules.didChangeConfigurationHolds change send params
  · exact rules.lifeHolds call exit found listed params

end Documents
end Rules

/- Relations between a session before and after an action. -/
section Within
variable {r : Link → Link → Prop} (order : LanguageService.Act.Order r)
include order

theorem withinAsking (tell : ∀ line, LanguageService.Act.Within r (Act.tell line)) :
    Asking (LanguageService.Act.Within r) where
  pure := order.pure
  fault _ := order.throw _
  bind := order.bind
  session _ rest := order.bind (order.bind order.get fun _ => order.pure _) rest
  tell := tell

theorem withinRules (update : ∀ {f : Session → Session}, Leaves f → LanguageService.Act.Within r (Act.update f)) :
    Rules (LanguageService.Act.Within r) := by
  have asking : Asking (LanguageService.Act.Within r) := by
    refine withinAsking order fun line link => ?_
    rw [runTell]
    exact update (tellLeaves line) link
  exact { asking with
    update := fun leaves _ _ => update leaves
    openLogHolds := asking.reopens fun leaves _ => update leaves }

end Within

end LanguageService.Session
