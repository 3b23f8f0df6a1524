import LanguageService.Proofs.Session.Ledger
import LanguageService.Proofs.Session.Reconfiguration
import LanguageService.Proofs.Settings.Options

/-! The log file that the settings of a session name. Once they are accepted the file they name is open, unless
it cannot be. -/
namespace LanguageService.Session

/- No file can be opened under a path: the file system does not open it, or it has no bytes. -/
inductive Refuses (disk : Disk) : Text → Prop where
  | failed {path : String} {fault} (fails : disk.openFile path false = .error fault) : Refuses disk path
  | rough {points} (halved : points.any Text.Point.isHalf = true) : Refuses disk (.rough points halved)

/- The file that the settings name is open, or none is because that one cannot be opened. -/
def Follows (s : Session) : Prop :=
  s.sink.path? = s.settings.logFile ∨
    s.sink = .none ∧ ∃ path, s.settings.logFile = some path ∧ Refuses s.disk path

theorem followsTold {link : Link} (follows : Follows link.host) (line : Text) : Follows (told line link).host := by
  have disk : link.host.sink = .none → (told line link).host.disk = link.host.disk := toldUnfiled line
  obtain ⟨other, log, same⟩ := toldHost line link
  rw [same] at disk ⊢
  rcases follows with named | ⟨unset, path, named, refused⟩
  · exact .inl named
  · cases disk unset
    exact .inr ⟨unset, path, named, refused⟩

theorem followedPath {s : Session} (own : ∀ file, s.sink ≠ .given file) (same : followed s = true) :
    s.sink.path? = s.settings.logFile := by
  unfold followed at same
  split at same
  · rename_i file given
    exact absurd given (own file)
  · exact (beq_iff_eq.mp same).symm

/- A session under some settings, with its log file where they want it. -/
def Settled (settings : Settings) (link : Link) : Prop := link.host.settings = settings ∧ Follows link.host

theorem settledTold {settings : Settings} (line : Text) (link : Link) (settled : Settled settings link) :
    Settled settings (told line link) := by
  refine ⟨?_, followsTold settled.2 line⟩
  obtain ⟨disk, log, same⟩ := toldHost line link
  rw [same]
  exact settled.1

theorem courseSettled {link result after} (course : LogCourse link result after)
    (own : ∀ file, link.host.sink ≠ .given file) : Settled link.host.settings after := by
  have settings : (close link).host.settings = link.host.settings := (closeSinkLeaves link.host).2.2.1
  have logFile : (close link).host.settings.logFile = link.host.settings.logFile := by rw [settings]
  cases course with
  | kept same => exact ⟨rfl, .inl (followedPath own same)⟩
  | shut behind unset =>
    exact ⟨settings, .inl ((congrArg Sink.path? (closeUnset behind)).trans (logFile.trans unset).symm)⟩
  | opened behind named opens => exact ⟨settings, .inl (logFile.trans named).symm⟩
  | blocked behind named refused =>
    refine ⟨settings, .inr ⟨closeUnset behind, _, logFile.trans named, ?_⟩⟩
    cases refused with
    | null null => exact .failed null
    | rough halved => exact .rough halved
  | failed behind named refused other =>
    exact settledTold (.plain _) _ ⟨settings, .inr ⟨closeUnset behind, _, logFile.trans named, .failed refused⟩⟩

theorem configurationSettled {params options : Json} {link : Link} {settings : Settings}
    (own : ∀ file, link.host.sink ≠ .given file) (chosen : section? params = .ok (some options))
    (accepted : link.host.settings.updated options = .ok settings) :
    Settled settings ((didChangeConfiguration params).exec link).2 := by
  rw [configurationRun chosen accepted]
  have course := openLogCourse (switchedTo settings link)
  have settled := courseSettled course own
  generalize openLog.exec _ = ran at settled ⊢
  obtain ⟨result, opened⟩ := ran
  cases result with
  | error interrupt => exact settled
  | ok done =>
    have frame := sweepFrame (analyseAllSweep opened.host.buffers.entries opened)
    simp only
    rw [frame]
    exact settled

/- The root and the options that a request to begin gives, if all of it can be read. -/
def introduced (params : Json) : Except Fault (Json × Json) := do
  let root ← workspaceRoot params
  let client := orEmpty (← params.member "capabilities")
  let workspace := orEmpty (← client.member "workspace")
  let _ ← workspace.member "workspaceFolders"
  let configuration := orEmpty (← workspace.member "didChangeConfiguration")
  let _ ← configuration.member "dynamicRegistration"
  let options ← params.member "initializationOptions"
  pure (root, options)

def rootLine (root : Json) : Text := "Workspace root: " ++ root.plain

def introducing (root : Json) (link : Link) : Link :=
  told (rootLine root) { link with host := { note "Received initialize request" link.host with root } }

theorem introducingHost (root : Json) (link : Link) : ∃ disk log, introducing root link =
    { link with host := { link.host with root, disk, log } } := by
  obtain ⟨disk, log, same⟩ := toldHost (rootLine root)
    { link with host := { note "Received initialize request" link.host with root } }
  exact ⟨disk, log, same⟩

/- A settings file counts where it could be read; else the settings stay. -/
def chosenSettings (held : Settings) : Option (Except Settings.LoadFault Settings) → Settings
  | some (.ok settings) => settings
  | _ => held

theorem setUpRun {params root options : Json} (read : introduced params = .ok (root, options)) {link : Link}
    (takes : Takes link.host (rootLine root)) :
    ∃ workspaceFolders registersConfiguration, ((setUp params).exec link).2 =
      ((loadSettings options).exec { introducing root link with
        host := { (introducing root link).host with workspaceFolders, registersConfiguration } }).2 := by
  obtain ⟨_, rooted, read⟩ := bindGives.mp read
  obtain ⟨capabilities, first, read⟩ := bindGives.mp read
  obtain ⟨workspace, second, read⟩ := bindGives.mp read
  obtain ⟨folders, third, read⟩ := bindGives.mp read
  obtain ⟨configuration, fourth, read⟩ := bindGives.mp read
  obtain ⟨registration, fifth, read⟩ := bindGives.mp read
  obtain ⟨_, last, read⟩ := bindGives.mp read
  cases read
  have noted : (Act.tell (rootLine root)).exec
      { link with host := { note "Received initialize request" link.host with root } } =
        (.ok (), introducing root link) := runTellTaken takes
  refine ⟨folders.isTruthy, registration.isTruthy, ?_⟩
  simp only [setUp, Act.runBind, runNote, rooted, Act.runLiftOk, runUpdate]
  rw [rootLine] at noted
  simp only [record, noted, first, second, third, fourth, fifth, last, Act.runLiftOk]
  split
  · rename_i ran
    exact (congrArg Prod.snd ran).symm
  · rename_i ran
    exact (congrArg Prod.snd ran).symm

/- The end of loading settings. -/
def announce : Act Unit := do
  openLog
  Act.note ("Comment lead: " ++ (← Act.session).settings.lead.text)

theorem announceSettled {link : Link} (own : ∀ file, link.host.sink ≠ .given file) :
    Settled link.host.settings (announce.exec link).2 := by
  have settled := courseSettled (openLogCourse link) own
  obtain ⟨result, opened, ran⟩ : ∃ result opened, openLog.exec link = (result, opened) := ⟨_, _, rfl⟩
  rw [ran] at settled
  simp only [announce, Act.runBind, ran]
  cases result with
  | error interrupt => exact settled
  | ok done => exact settledTold (.plain _) _ settled

/- Loading settings once the file has been seen to. -/
def override (options : Json) : Act Unit := do
  match (← Act.session).settings.updated options with
  | .ok settings => Act.update fun s => { s with settings }
  | .error fault => Act.note ("Ignoring initializationOptions: " ++ fault.message)
  announce

theorem loadSettingsEq (options : Json) : loadSettings options = (do
    match ← fileSettings (← Act.session) with
    | some (.ok settings) => Act.update fun s => { s with settings }
    | some (.error fault) => Act.note ("Error loading settings file: " ++ fault.message)
    | Option.none => pure ()
    override options) := rfl

theorem overrideRun (options : Json) (link : Link) :
    ∃ base : Link, base.host.settings = link.host.settings.overridden options ∧ base.host.sink = link.host.sink ∧
      (override options).exec link = announce.exec base := by
  cases updated : link.host.settings.updated options with
  | ok settings =>
    refine ⟨{ link with host := { link.host with settings } }, (Settings.overriddenOk updated).symm, rfl, ?_⟩
    simp only [override, Act.runBind, runSession, updated, runUpdate]
  | error fault =>
    refine ⟨record ("Ignoring initializationOptions: " ++ fault.message) link, ?_, rfl, ?_⟩
    · rw [Settings.overridden, updated]
      rfl
    · simp only [override, Act.runBind, runSession, updated, runNote]

/- A session once its settings file has been seen to. -/
def fileSeen (link : Link) : Option (Except Settings.LoadFault Settings) → Link
  | some (.ok settings) => { link with host := { link.host with settings } }
  | some (.error fault) => record ("Error loading settings file: " ++ fault.message) link
  | Option.none => link

theorem loadRun (options : Json) {link : Link} {found : Option (Except Settings.LoadFault Settings)}
    (file : fileSettings link.host = .ok found) :
    ∃ base : Link, base.host.settings = (chosenSettings link.host.settings found).overridden options ∧
      base.host.sink = link.host.sink ∧ (loadSettings options).exec link = announce.exec base := by
  obtain ⟨base, settings, sink, ran⟩ := overrideRun options (fileSeen link found)
  refine ⟨base, ?_, ?_, ?_⟩
  · rw [settings]
    rcases found with _ | fault | loaded <;> rfl
  · rw [sink]
    rcases found with _ | fault | loaded <;> rfl
  · rw [← ran, loadSettingsEq]
    rcases found with _ | fault | loaded <;>
      simp only [fileSeen, Act.runBind, runSession, file, Act.runLiftOk, runUpdate, runNote]

theorem loadSettled {options : Json} {link : Link} {found : Option (Except Settings.LoadFault Settings)}
    {settings : Settings} (own : ∀ file, link.host.sink ≠ .given file) (file : fileSettings link.host = .ok found)
    (accepted : (chosenSettings link.host.settings found).updated options = .ok settings) :
    Settled settings ((loadSettings options).exec link).2 := by
  obtain ⟨base, chosen, same, ran⟩ := loadRun options file
  rw [ran, ← Settings.overriddenOk accepted, ← chosen]
  exact announceSettled (same ▸ own)

/- A message that brings new settings, which are accepted. -/
inductive Accepts (link : Link) (message : Message) : Settings → Prop where
  | changed {options settings} (notified : Notifies message "workspace/didChangeConfiguration")
      (chosen : section? (Host.parameters message) = .ok (some options))
      (accepted : link.host.settings.updated options = .ok settings) : Accepts link message settings
  | begun {root options found settings} (requested : Requests message "initialize")
      (read : introduced (Host.parameters message) = .ok (root, options)) (takes : Takes link.host (rootLine root))
      (file : fileSettings (introducing root link).host = .ok found)
      (accepted : (chosenSettings link.host.settings found).updated options = .ok settings) :
      Accepts link message settings

theorem acceptedSettled {link : Link} {message : Message} {settings : Settings}
    (own : ∀ file, link.host.sink ≠ .given file) (accepts : Accepts link message settings) :
    Settled settings (step link message).2 := by
  cases accepts with
  | changed notified chosen accepted =>
    exact noticeKeeps settledTold notified rfl (configurationSettled own chosen accepted)
  | @begun root options found settings requested read takes file accepted =>
    obtain ⟨workspaceFolders, registersConfiguration, ran⟩ := setUpRun read takes
    refine requestKeeps settledTold requested rfl ?_
    obtain ⟨disk, log, same⟩ := introducingHost root link
    rw [ran]
    rw [same] at file ⊢
    exact loadSettled own file accepted

theorem logFollowsSettings {start link : Link} (since : Since start link) :
    ∃ heard deeds, Kept start.host link.host heard deeds ∧
      (start.host.sink = .none →
        Ledger link.host deeds ∧
        (∃ more, (close link).host.disk.deeds = link.host.disk.deeds ++ more ∧
          (Disk.opens (deeds ++ more)).Nodup ∧ Disk.opens (deeds ++ more) = Disk.closes (deeds ++ more)) ∧
        ∀ message settings, Accepts link message settings → Settled settings (step link message).2) ∧
      (∀ file, start.host.sink = .given file →
        link.host.sink = .given file ∧ close link = link ∧
        deeds = heard.map fun entry => .wrote file (entry.2.shown ++ "\n")) ∧
      ∀ room input, ∃ last, Since start last ∧ (serve room start input).2 = close last := by
  obtain ⟨heard, logs⟩ := sinceLogged since
  obtain ⟨deeds, kept⟩ := logsKept logs
  refine ⟨heard, deeds, kept, fun unset => ?_, fun file given => ?_, fun room => serveSince room start⟩
  · have ledger := keptLedger kept unset
    exact ⟨ledger, closeSettles ledger, fun message settings => acceptedSettled ledger.own⟩
  · obtain ⟨same, all⟩ := logsGiven logs given
    refine ⟨same, ?_, List.append_cancel_left (kept.disk.symm.trans all)⟩
    rw [close, closeSink, same]

/- A session that is told of a log file. -/
def loggingMessage : Message := configuring [("logFile", .text "a.log")]

def loggingLink : Link := (step freshLink loggingMessage).2

def loggingFile : Disk.Handle := ⟨0, ["a.log"]⟩

theorem loggingFollows :
    Since freshLink loggingLink ∧ Accepts freshLink loggingMessage { logFile := some "a.log" } ∧
    loggingLink.host.sink = .opened "a.log" loggingFile ∧
    Settled { logFile := some "a.log" } loggingLink ∧
    ∃ deeds, loggingLink.host.disk.deeds = deeds ∧ Disk.opens deeds = [loggingFile] ∧ Disk.closes deeds = [] ∧
      ∃ more, (close loggingLink).host.disk.deeds = deeds ++ more ∧
        Disk.opens (deeds ++ more) = Disk.closes (deeds ++ more) := by
  have since : Since freshLink loggingLink := .handled .start _
  have accepts : Accepts freshLink loggingMessage { logFile := some "a.log" } := .changed ⟨rfl, rfl⟩ rfl rfl
  obtain ⟨_, _, _, first, _⟩ := logFollowsSettings (.start : Since freshLink freshLink)
  obtain ⟨heard, deeds, kept, ledger, _⟩ := logFollowsSettings since
  obtain ⟨_, ⟨more, closed, _, same⟩, _⟩ := ledger rfl
  have all : loggingLink.host.disk.deeds = deeds := kept.disk
  refine ⟨since, accepts, rfl, (first rfl).2.2 _ _ accepts, deeds, all, ?_, ?_, more, all ▸ closed, same⟩
  · rw [← all]
    rfl
  · rw [← all]
    rfl

end LanguageService.Session
