import LanguageService.Proofs.Session.Rules

/-! What a session leaves alone. Only messages about documents touch buffers, index and what was
last reported, and only a set-up or a change of the configuration touches the settings. -/
namespace LanguageService.Session
open LanguageService.Act (Within Order)

def reportsOn (uri : Text) : Json → Bool
  | .object message =>
    match message.lookup (.plain "method"), message.lookup (.plain "params") with
    | some (.text method), some (.object params) =>
      method == "textDocument/publishDiagnostics" && (params.lookup (.plain "uri")).any (Host.isText uri)
    | _, _ => false
  | _ => false

/-- The last message that told the client about the findings of a document. -/
def lastReport? (uri : Text) (sent : List Json) : Option Json := sent.reverse.find? (reportsOn uri)

theorem lastReportSnoc (uri : Text) (sent : List Json) (message : Json) :
    lastReport? uri (sent ++ [message]) =
      if reportsOn uri message then some message else lastReport? uri sent := by
  rw [lastReport?, List.reverse_append, List.reverse_singleton, List.singleton_append, List.find?_cons]
  cases reportsOn uri message <;> rfl

structure SameDocuments (before after : Link) : Prop where
  buffers : after.host.buffers = before.host.buffers
  index : after.host.index = before.host.index
  reports : ∀ uri, lastReport? uri after.sent = lastReport? uri before.sent

structure Untouched (before after : Link) : Prop extends SameDocuments before after where
  settings : after.host.settings = before.host.settings

theorem sameDocumentsOrder : Order SameDocuments where
  refl _ := ⟨rfl, rfl, fun _ => rfl⟩
  trans first second :=
    ⟨second.buffers.trans first.buffers, second.index.trans first.index,
      fun uri => (second.reports uri).trans (first.reports uri)⟩

theorem untouchedOrder : Order Untouched where
  refl link := ⟨sameDocumentsOrder.refl link, rfl⟩
  trans first second :=
    ⟨sameDocumentsOrder.trans first.toSameDocuments second.toSameDocuments,
      second.settings.trans first.settings⟩

theorem untouchedRules : Rules (Within Untouched) :=
  withinRules untouchedOrder fun leaves link =>
    have ⟨buffers, index, settings, _⟩ := leaves link.host
    ⟨⟨buffers, index, fun _ => rfl⟩, settings⟩

theorem sameDocumentsRules : Rules (Within SameDocuments) :=
  withinRules sameDocumentsOrder fun leaves link =>
    have ⟨buffers, index, _⟩ := leaves link.host
    ⟨buffers, index, fun _ => rfl⟩

theorem toldUntouched (line : Text) (link : Link) : Untouched link (told line link) := by
  have told := untouchedRules.tell line link
  rwa [runTell] at told

theorem recordUntouched (line : String) (link : Link) : Untouched link (record line link) := toldUntouched line link

/- Paths that no file can be opened under, for another reason than an error of the file system: there is a null
byte in the path, or the path has no bytes. -/
inductive Blocks (disk : Disk) : Text → Fault → Prop where
  | null {path : String} (null : disk.openFile path false = .error .nullByte) : Blocks disk path (.disk .nullByte)
  | rough {points} (halved : points.any Text.Point.isHalf = true) :
      Blocks disk (.rough points halved) (.unencodable (.ofPoints points))

/- The log file that the settings name is not open, because none can be under its path. -/
def LogRefused (s : Session) : Prop :=
  s.sink = .none ∧ ∃ path fault, s.settings.logFile = some path ∧ Blocks s.disk path fault

theorem closeEq (s : Session) : s.closeSink = { s with sink := s.closeSink.sink, disk := s.closeSink.disk } := by
  unfold closeSink
  split <;> rfl

theorem closeSinkOpen {s : Session} (behind : followed s = false) :
    closeSink s = { s with sink := .none, disk := (closeSink s).disk } := by
  unfold closeSink
  cases sink : s.sink with
  | none => simp [← sink]
  | given file => simp [followed, sink] at behind
  | opened path file => rfl

/- How the log file follows the settings. The old file is closed before the new one is opened. -/
inductive LogCourse (link : Link) : Except Interrupt Unit → Link → Prop where
  | kept (same : followed link.host = true) : LogCourse link (.ok ()) link
  | shut (behind : followed link.host = false) (unset : link.host.settings.logFile = none) :
      LogCourse link (.ok ()) (close link)
  | opened {path : String} {disk file} (behind : followed link.host = false)
      (named : link.host.settings.logFile = some (.plain path))
      (opens : (close link).host.disk.openFile path false = .ok (disk, file)) :
      LogCourse link (.ok ())
        { close link with host := { (close link).host with disk, sink := .opened path file } }
  | blocked {path fault} (behind : followed link.host = false) (named : link.host.settings.logFile = some path)
      (refused : Blocks (close link).host.disk path fault) :
      LogCourse link (.error (.fault fault)) (close link)
  | failed {path : String} {fault} (behind : followed link.host = false)
      (named : link.host.settings.logFile = some (.plain path))
      (refused : (close link).host.disk.openFile path false = .error fault) (other : fault ≠ .nullByte) :
      LogCourse link (.ok ()) (record ("Cannot open log file " ++ path ++ ": " ++ fault.message) (close link))

theorem openLogCourse (link : Link) : LogCourse link (openLog.exec link).1 (openLog.exec link).2 := by
  rw [openLogEq]
  simp only [Act.runBind, runSession]
  split
  · rename_i same
    exact .kept same
  rename_i behind
  rw [Bool.not_eq_true] at behind
  simp only [reopen, Act.runBind, runUpdate]
  cases named : link.host.settings.logFile with
  | none => exact .shut behind named
  | some path =>
    cases path with
    | rough points halved => exact .blocked behind named (.rough halved)
    | plain path =>
      simp only [Act.runBind, runSession]
      split
      · rename_i disk file opens
        exact .opened behind named opens
      · rename_i refused
        exact .blocked behind named (.null refused)
      · rename_i fault other refused
        exact .failed behind named refused other

theorem openLogOutcome (link : Link) :
    (openLog.exec link).1 = .ok () ∨ LogRefused (openLog.exec link).2.host := by
  have course := openLogCourse link
  obtain ⟨result, after, ran⟩ : ∃ result after, openLog.exec link = (result, after) := ⟨_, _, rfl⟩
  rw [ran] at course ⊢
  cases course with
  | blocked behind named refused =>
    have shut := closeSinkOpen behind
    exact Or.inr ⟨congrArg Session.sink shut, _, _,
      (congrArg (fun s => s.settings.logFile) shut).trans named, refused⟩
  | _ => exact Or.inl rfl

theorem logCourseFrame {link result after} (course : LogCourse link result after) :
    ∃ sink disk log, after = { link with host := { link.host with sink, disk, log } } := by
  have shut : close link = { link with host := { link.host with
      sink := (close link).host.sink, disk := (close link).host.disk } } :=
    congrArg (fun host => { link with host }) (closeEq link.host)
  cases course with
  | kept same => exact ⟨_, _, _, rfl⟩
  | shut behind unset => exact ⟨_, _, _, shut⟩
  | opened behind named opens => exact ⟨_, _, _, by rw [shut]⟩
  | blocked behind named refused => exact ⟨_, _, _, shut⟩
  | failed behind named refused other => exact ⟨_, _, _, by rw [shut]; rfl⟩

theorem configurationRejected {params options : Json} {link : Link} {fault : Settings.Fault}
    (chosen : section? params = .ok (some options)) (rejected : link.host.settings.updated options = .error fault) :
    (didChangeConfiguration params).exec link =
      (.ok (), record ("Ignoring configuration change: " ++ fault.message) link) := by
  simp only [didChangeConfiguration, Act.runBind, chosen, Act.runLiftOk, runSession, rejected, runNote]

/- A session with new settings, before anything follows them. -/
def switchedTo (settings : Settings) (link : Link) : Link :=
  record "Configuration changed, re-analyzing open documents" { link with host := { link.host with settings } }

/- What an accepted change of the configuration comes to. -/
theorem configurationRun {params options : Json} {link : Link} {settings : Settings}
    (chosen : section? params = .ok (some options)) (accepted : link.host.settings.updated options = .ok settings) :
    (didChangeConfiguration params).exec link =
      match openLog.exec (switchedTo settings link) with
      | (.ok _, opened) => (analyseAll opened.host.buffers.entries).exec opened
      | (.error interrupt, opened) => (.error interrupt, opened) := by
  simp only [didChangeConfiguration, Act.runBind, chosen, Act.runLiftOk, runSession, accepted, runUpdate, runNote,
    switchedTo]
  rcases openLog.exec (record _ _) with ⟨_ | _, opened⟩ <;> rfl

/- A change of the configuration is ignored, or it stops at the log, or it goes on to the open
documents. The settings are switched before the log is opened. -/
theorem configurationCases (params : Json) (link : Link) :
    let ran := (didChangeConfiguration params).exec link
    Untouched link ran.2 ∨ LogRefused ran.2.host ∨
      ∃ opened, SameDocuments link opened ∧ ran = (analyseAll opened.host.buffers.entries).exec opened := by
  cases chosen : section? params with
  | error fault =>
    simp only [didChangeConfiguration, Act.runBind, chosen, Act.runLiftError]
    exact Or.inl (untouchedOrder.refl link)
  | ok found =>
    cases found with
    | none =>
      simp only [didChangeConfiguration, Act.runBind, chosen, Act.runLiftOk]
      exact Or.inl (untouchedOrder.refl link)
    | some options =>
      cases accepted : link.host.settings.updated options with
      | error fault =>
        rw [configurationRejected chosen accepted]
        exact Or.inl (recordUntouched _ link)
      | ok settings =>
        rw [configurationRun chosen accepted]
        generalize changed : switchedTo settings link = switched
        have same : SameDocuments link switched := by
          rw [← changed]
          exact ⟨rfl, rfl, fun _ => rfl⟩
        have kept := sameDocumentsRules.openLogHolds switched
        have outcome := openLogOutcome switched
        obtain ⟨result, opened, ran⟩ : ∃ result opened, openLog.exec switched = (result, opened) :=
          ⟨_, _, rfl⟩
        rw [ran] at kept outcome ⊢
        cases result with
        | ok done => exact Or.inr (Or.inr ⟨opened, sameDocumentsOrder.trans same kept, rfl⟩)
        | error interrupt =>
          rcases outcome with done | refused
          · cases done
          · exact Or.inr (Or.inl refused)

theorem registerUntouched : Within Untouched
    (Act.call (.text "client/registerCapability") (some registration) (some .registration)) := by
  intro link
  rw [runRegister]
  exact ⟨⟨rfl, rfl, fun uri => lastReportSnoc uri link.sent _⟩, rfl⟩

theorem stepUntouched {message : Message} (set : ¬ Requests message "initialize")
    (other : ∀ name ∈ effective, ¬ Notifies message name) (link : Link) :
    Untouched link (step link message).2 := by
  refine Host.handleWithin (h := host) untouchedOrder untouchedRules.hostNote
    (fun _ _ => ⟨⟨rfl, rfl, fun _ => rfl⟩, rfl⟩)
    (fun _ _ error => untouchedRules.registeredHolds error) ?_ ?_ link
  · intro name run named asked found
    refine untouchedRules.requestHolds found (fun first => ?_)
      (fun _ _ => ⟨⟨rfl, rfl, fun _ => rfl⟩, rfl⟩) _
    subst first
    exact absurd ⟨named, asked⟩ set
  · intro name run named silent found
    refine untouchedRules.lifeHolds registerUntouched (fun _ _ => untouchedOrder.throw _) found ?_ _
    exact fun listed => other name listed ⟨named, silent⟩

theorem stepSetUp {message : Message} (set : Requests message "initialize") (link : Link) :
    SameDocuments link (step link message).2 := by
  refine Host.handleWithin (h := host) sameDocumentsOrder sameDocumentsRules.hostNote
    (fun _ _ => ⟨rfl, rfl, fun _ => rfl⟩)
    (fun _ _ error => sameDocumentsRules.registeredHolds error) ?_ ?_ link
  · intro name run named asked found
    exact sameDocumentsRules.requestHolds found (fun _ _ _ => ⟨rfl, rfl, fun _ => rfl⟩)
      (fun _ _ => ⟨rfl, rfl, fun _ => rfl⟩) _
  · intro name run named silent found
    rw [set.2] at silent
    cases silent

end LanguageService.Session
