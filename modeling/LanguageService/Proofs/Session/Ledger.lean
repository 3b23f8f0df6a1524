import LanguageService.Proofs.Disk.Handles
import LanguageService.Proofs.Session.Frame

/-! The handles of a session. A session opens the file that its settings name and closes it before it opens
another, so that of all its handles at most the current one is open; and it leaves a file alone that was
handed in. Opens may fail at any time: between two messages the files may change. A write to a file that is open
does not fail. -/
namespace LanguageService.Session
open LanguageService.Act (Within Order)

/- How a session goes on as far as its log is concerned. Each line comes with the handle that takes it. -/
inductive Logs : Session → List (Option Disk.Handle × Text) → Session → Prop where
  | rest {s} : Logs s [] s
  | aside {s t u heard} (sink : t.sink = s.sink) (log : t.log = s.log)
      (numbers : t.disk.nextHandle = s.disk.nextHandle) (deeds : t.disk.deeds = s.disk.deeds)
      (later : Logs t heard u) : Logs s heard u
  | line {s t u heard} (text : Text) (taken : s.tell text = .ok t) (later : Logs t heard u) :
      Logs s ((s.sink.file?, text) :: heard) u
  | shut {s u heard path file} (held : s.sink = .opened path file)
      (later : Logs { s with sink := .none, disk := s.disk.close file } heard u) : Logs s heard u
  | opens {s u heard path disk file} (unset : s.sink = .none)
      (opened : s.disk.openFile path false = .ok (disk, file))
      (later : Logs { s with disk, sink := .opened path file } heard u) : Logs s heard u

theorem Logs.trans {s t u : Session} {heard more : List (Option Disk.Handle × Text)} (first : Logs s heard t)
    (second : Logs t more u) : Logs s (heard ++ more) u := by
  induction first with
  | rest => exact second
  | aside sink log numbers deeds later ih => exact .aside sink log numbers deeds (ih second)
  | line text taken later ih => exact .line text taken (ih second)
  | shut held later ih => exact .shut held (ih second)
  | opens unset opened later ih => exact .opens unset opened (ih second)

def Logged (before after : Link) : Prop := ∃ heard, Logs before.host heard after.host

theorem loggedOrder : Order Logged where
  refl _ := ⟨[], .rest⟩
  trans first second := by
    obtain ⟨heard, first⟩ := first
    obtain ⟨more, second⟩ := second
    exact ⟨heard ++ more, first.trans second⟩

theorem toldLogged (line : Text) (link : Link) : Logged link (told line link) := by
  unfold told
  cases taken : link.host.tell line with
  | error fault => exact loggedOrder.refl link
  | ok host => exact ⟨_, .line line taken .rest⟩

theorem closeLogs (s : Session) : Logs s [] s.closeSink := by
  unfold closeSink
  split
  · rename_i path file held
    exact .shut held .rest
  · exact .rest

theorem closeLogged (link : Link) : Logged link (close link) := ⟨[], closeLogs link.host⟩

theorem asideLogged {before after : Link} (sink : after.host.sink = before.host.sink)
    (log : after.host.log = before.host.log) (numbers : after.host.disk.nextHandle = before.host.disk.nextHandle)
    (deeds : after.host.disk.deeds = before.host.disk.deeds) : Logged before after :=
  ⟨[], .aside sink log numbers deeds .rest⟩

theorem unfiledLogged {f : Session → Session} (deaf : Deaf f) (unfiled : Unfiled f) :
    Within Logged (Act.update f) := by
  intro link
  obtain ⟨sink, disk⟩ := unfiled link.host
  have same : f link.host = { f link.host with log := link.host.log } := deaf link.host link.host.log
  have log : (f link.host).log = link.host.log := by rw [same]
  exact asideLogged sink log (congrArg Disk.nextHandle disk) (congrArg Disk.deeds disk)

theorem closeUnset {link : Link} (behind : followed link.host = false) : (close link).host.sink = .none :=
  congrArg Session.sink (closeSinkOpen behind)

theorem courseLogged {link result after} (course : LogCourse link result after) : Logged link after := by
  cases course with
  | kept same => exact loggedOrder.refl _
  | shut behind unset => exact closeLogged link
  | opened behind named opens =>
    exact loggedOrder.trans (closeLogged link) ⟨[], .opens (closeUnset behind) opens .rest⟩
  | blocked behind named refused => exact closeLogged link
  | failed behind named refused other => exact loggedOrder.trans (closeLogged link) (toldLogged (.plain _) _)

theorem loggedRules : Rules (Within Logged) where
  toAsking := withinAsking loggedOrder fun line link => by
    rw [runTell]
    exact toldLogged line link
  update _ deaf unfiled := unfiledLogged deaf unfiled
  openLogHolds link := courseLogged (openLogCourse link)

theorem stepLogged (link : Link) (message : Message) : Logged link (step link message).2 := by
  refine Host.handleWithin (h := host) loggedOrder loggedRules.hostNote (fun _ _ => asideLogged rfl rfl rfl rfl)
    (fun _ _ error => loggedRules.registeredHolds error) ?_ ?_ link
  · intro name run named asked found
    exact loggedRules.requestHolds found
      (fun _ settings => unfiledLogged (settingsEdits settings).deaf (settingsEdits settings).unfiled)
      (fun _ => unfiledLogged (fun _ _ => rfl) fun _ => ⟨rfl, rfl⟩) _
  · intro name run named silent found
    refine loggedRules.notificationHolds (fun edits => unfiledLogged edits.deaf edits.unfiled) ?_ ?_
      (fun _ _ => loggedOrder.throw _) found _
    · intro message link
      have same := Act.sendHost message link
      exact asideLogged (by rw [same]) (by rw [same]) (by rw [same]) (by rw [same])
    · intro link
      rw [runRegister]
      exact asideLogged rfl rfl rfl rfl

/- A session and what it became. Whoever else works with the files may change them at any time. -/
inductive Since (start : Link) : Link → Prop where
  | start : Since start start
  | handled {link} (since : Since start link) (message : Message) : Since start (step link message).2
  | logged {link} (since : Since start link) (line : Text) : Since start (told line link)
  | answered {link} (since : Since start link) (response : Json) : Since start (link.push response)
  | elsewhere {link} (since : Since start link) (files : Table (List String) (List UInt8))
      (folders : List (List String)) (current : List String) :
      Since start { link with host := { link.host with disk := { link.host.disk with files, folders, current } } }

theorem sinceLogged {start link : Link} (since : Since start link) : Logged start link := by
  induction since with
  | start => exact loggedOrder.refl start
  | handled _ message ih => exact loggedOrder.trans ih (stepLogged _ message)
  | logged _ line ih => exact loggedOrder.trans ih (toldLogged line _)
  | answered _ response ih => exact loggedOrder.trans ih (asideLogged rfl rfl rfl rfl)
  | elsewhere _ files folders current ih => exact loggedOrder.trans ih (asideLogged rfl rfl rfl rfl)

theorem respondSends (link : Link) (response : Json) :
    respond link response = if response.isScalar then (Option.none, link.push response)
      else (some (.failure (Fault.unencodable (.ofPoints response.renderPoints)).message), link) := by
  have sent : (Act.send response).run.run link = (Act.send response).exec link := rfl
  rw [respond, sent, Act.runSend]
  cases response.isScalar <;> rfl

theorem respondSince {start link : Link} (since : Since start link) (response : Json) :
    Since start (respond link response).2 := by
  rw [respondSends]
  split
  · exact since.answered response
  · exact since

theorem reactSince {start link : Link} (since : Since start link) (outcome : Frame.Outcome) :
    Since start (react link outcome).2 := by
  cases outcome with
  | closed => exact since
  | badLength fault => exact since
  | refused code message => exact respondSince (since.logged (.plain _)) _
  | message members =>
    have next := since.handled members
    obtain ⟨result, after, ran⟩ : ∃ result after, step link members = (result, after) := ⟨_, _, rfl⟩
    rw [ran] at next
    simp only [react, ran]
    rcases result with interrupt | _ | response
    · exact next
    · exact next
    · exact respondSince next response

theorem loopSince {start link : Link} (since : Since start link) (room : Frame.Room) (input : List UInt8) :
    Since start (loop room link input).2 := by
  fun_induction loop room link input with
  | case1 link => exact since
  | case2 link b bytes ending after reacted =>
    have next := reactSince since (Frame.read room (b :: bytes)).1
    rw [reacted] at next
    exact next
  | case3 link b bytes after reacted ih =>
    have next := reactSince since (Frame.read room (b :: bytes)).1
    rw [reacted] at next
    exact ih next

theorem failureTold (ending : Ending) (link : Link) :
    recordFailure ending link = link ∨ ∃ line, recordFailure ending link = told line link := by
  cases ending with
  | failure message =>
    refine .inr ⟨"Server error: " ++ message, ?_⟩
    rw [recordFailure, told]
    cases link.host.tell ("Server error: " ++ message) <;> rfl
  | _ => exact .inl rfl

theorem serveSince (room : Frame.Room) (start : Link) (input : List UInt8) :
    ∃ last, Since start last ∧ (serve room start input).2 = close last := by
  have looped : Since start (loop room (record "Asteroid Language Server starting" start) input).2 :=
    loopSince (.logged .start (.plain _)) room input
  refine ⟨_, .logged ?_ (.plain "Server stopped"), rfl⟩
  rcases failureTold (loop room (record "Asteroid Language Server starting" start) input).1
    (loop room (record "Asteroid Language Server starting" start) input).2 with same | ⟨line, same⟩
  · rw [same]
    exact looped
  · rw [same]
    exact .logged looped line

/- What a line adds to the deeds of a disk. -/
def writes (sink : Sink) (line : Text) : List Disk.Deed :=
  sink.file?.toList.map fun file => .wrote file (line.shown ++ "\n")

/- What a line that is taken does. Where a file takes it, it has bytes. -/
structure Hears (s t : Session) (line : Text) : Prop where
  sink : t.sink = s.sink
  log : t.log = s.log ++ [line]
  deeds : t.disk.deeds = s.disk.deeds ++ writes s.sink line
  numbers : t.disk.nextHandle = s.disk.nextHandle
  bytes : s.sink.file?.isSome = true → line = .plain line.shown

theorem tellHears {s t : Session} {line : Text} (taken : s.tell line = .ok t) : Hears s t line := by
  unfold tell at taken
  cases line with
  | plain line =>
    cases taken
    unfold note
    cases file : s.sink.file? with
    | none => exact ⟨rfl, rfl, by simp [writes, file], rfl, fun _ => rfl⟩
    | some handle => exact ⟨rfl, rfl, by simp [writes, file, Disk.append, Text.shown], rfl, fun _ => rfl⟩
  | rough points halved =>
    cases file : s.sink.file? with
    | none =>
      simp only [file] at taken
      cases taken
      exact ⟨rfl, rfl, by simp [writes, file], rfl, fun filed => by simp [file] at filed⟩
    | some handle =>
      simp only [file] at taken
      cases taken

theorem writesLines {s t : Session} {line : Text} (hears : Hears s t line) (file : Disk.Handle) :
    (Disk.written file (writes s.sink line)).map Text.plain =
      if s.sink.file? = some file then [line ++ .plain "\n"] else [] := by
  have bytes := hears.bytes
  unfold writes
  cases held : s.sink.file? with
  | none => rfl
  | some other =>
    rw [held] at bytes
    rw [bytes rfl]
    by_cases same : other = file <;> simp [Disk.written, Disk.Deed.text?, same, Text.shown]

/- Which deeds belong to the log of a session, and what was written through each handle. -/
structure Kept (start link : Session) (heard : List (Option Disk.Handle × Text)) (deeds : List Disk.Deed) :
    Prop where
  course : Logs start heard link
  log : link.log = start.log ++ heard.map Prod.snd
  disk : link.disk.deeds = start.disk.deeds ++ deeds
  lines : ∀ file, (Disk.written file deeds).map Text.plain =
    (heard.filter fun entry => entry.1 = some file).map fun entry => entry.2 ++ .plain "\n"

theorem logsKept {s t heard} (logs : Logs s heard t) : ∃ deeds, Kept s t heard deeds := by
  have course := logs
  induction logs with
  | rest => exact ⟨[], course, by simp, by simp, fun _ => rfl⟩
  | aside sink log numbers deeds later ih =>
    obtain ⟨more, kept⟩ := ih later
    exact ⟨more, course, by rw [kept.log, log], by rw [kept.disk, deeds], kept.lines⟩
  | @line s t u heard text taken later ih =>
    obtain ⟨more, kept⟩ := ih later
    have hears := tellHears taken
    refine ⟨writes s.sink text ++ more, course, ?_, ?_, fun file => ?_⟩
    · rw [kept.log, hears.log, List.map_cons, List.append_assoc, List.singleton_append]
    · rw [kept.disk, hears.deeds, List.append_assoc]
    · rw [Disk.writtenAppend, List.map_append, writesLines hears, kept.lines]
      by_cases own : s.sink.file? = some file <;> simp [own]
  | @shut s u heard path file held later ih =>
    obtain ⟨more, kept⟩ := ih later
    refine ⟨.closed file :: more, course, kept.log, ?_, kept.lines⟩
    rw [kept.disk, Disk.close, List.append_assoc, List.singleton_append]
  | @opens s u heard path disk file unset opened later ih =>
    obtain ⟨more, kept⟩ := ih later
    refine ⟨.opened path file :: more, course, kept.log, ?_, kept.lines⟩
    rw [kept.disk, (Disk.openOpens opened).deeds, List.append_assoc, List.singleton_append]

/- The handles of a session that was handed none: all are closed but the current one, each of them once. -/
structure Ledger (s : Session) (deeds : List Disk.Deed) : Prop where
  own : ∀ file, s.sink ≠ .given file
  held : Disk.opens deeds = Disk.closes deeds ++ s.sink.file?.toList
  distinct : (Disk.opens deeds).Nodup
  numbered : ∀ file ∈ Disk.opens deeds, file.number < s.disk.nextHandle
  named : ∀ path file, s.sink = .opened path file → .opened path file ∈ deeds

theorem writesOpens (sink : Sink) (text : Text) :
    Disk.opens (writes sink text) = [] ∧ Disk.closes (writes sink text) = [] := by
  unfold writes
  cases sink.file? <;> exact ⟨rfl, rfl⟩

theorem ledgerTold {s t : Session} {deeds : List Disk.Deed} (ledger : Ledger s deeds) {text : Text}
    (hears : Hears s t text) : Ledger t (deeds ++ writes s.sink text) where
  own := hears.sink ▸ ledger.own
  held := by
    rw [Disk.opensAppend, Disk.closesAppend, (writesOpens _ _).1, (writesOpens _ _).2, List.append_nil,
      List.append_nil, hears.sink]
    exact ledger.held
  distinct := by
    rw [Disk.opensAppend, (writesOpens _ _).1, List.append_nil]
    exact ledger.distinct
  numbered := by
    rw [Disk.opensAppend, (writesOpens _ _).1, List.append_nil, hears.numbers]
    exact ledger.numbered
  named path file held := List.mem_append_left _ (ledger.named path file (hears.sink ▸ held))

theorem ledgerShut {s : Session} {deeds : List Disk.Deed} {path : String} {file : Disk.Handle}
    (ledger : Ledger s deeds) (held : s.sink = .opened path file) :
    Ledger { s with sink := .none, disk := s.disk.close file } (deeds ++ [.closed file]) where
  own _ same := by cases same
  held := by
    have before := ledger.held
    rw [held] at before
    rw [Disk.opensClosed, Disk.closesClosed, before]
    exact (List.append_nil _).symm
  distinct := by
    rw [Disk.opensClosed]
    exact ledger.distinct
  numbered := by
    rw [Disk.opensClosed]
    exact ledger.numbered
  named _ _ same := by cases same

theorem ledgerOpens {s : Session} {deeds : List Disk.Deed} {path : String} {disk : Disk} {file : Disk.Handle}
    (ledger : Ledger s deeds) (unset : s.sink = .none) (opens : Disk.Opens s.disk path disk file) :
    Ledger { s with disk, sink := .opened path file } (deeds ++ [.opened path file]) where
  own _ same := by cases same
  held := by
    have before := ledger.held
    rw [unset] at before
    rw [Disk.opensOpened, Disk.closesOpened, before, List.append_assoc]
    rfl
  distinct := by
    rw [Disk.opensOpened, ← List.concat_eq_append]
    -- the new number is above all those that were given before
    refine ledger.distinct.concat fun listed => ?_
    have old := ledger.numbered file listed
    rw [opens.number] at old
    exact Nat.lt_irrefl _ old
  numbered := by
    rw [Disk.opensOpened]
    intro other listed
    rw [opens.next]
    rcases List.mem_append.mp listed with old | new
    · exact Nat.lt_succ_of_lt (ledger.numbered other old)
    · rw [List.mem_singleton.mp new, opens.number]
      exact Nat.lt_succ_self _
  named _ _ same := by
    cases same
    exact List.mem_append_right _ (List.mem_singleton_self _)

theorem logsLedger {s t heard} (logs : Logs s heard t) {deeds : List Disk.Deed} (ledger : Ledger s deeds) :
    ∃ more, t.disk.deeds = s.disk.deeds ++ more ∧ Ledger t (deeds ++ more) := by
  -- the ledger so far is carried along, and each step adds its own deeds at the end
  induction logs generalizing deeds with
  | rest => exact ⟨[], (List.append_nil _).symm, (List.append_nil deeds).symm ▸ ledger⟩
  | @aside s t u heard sink log numbers same later ih =>
    have ledger : Ledger t deeds := {
      own := sink ▸ ledger.own
      held := sink ▸ ledger.held
      distinct := ledger.distinct
      numbered := numbers ▸ ledger.numbered
      named := sink ▸ ledger.named }
    rw [← same]
    exact ih ledger
  | @line s t u heard text taken later ih =>
    have hears := tellHears taken
    obtain ⟨more, all, last⟩ := ih (ledgerTold ledger hears)
    refine ⟨writes s.sink text ++ more, ?_, List.append_assoc deeds _ _ ▸ last⟩
    rw [all, hears.deeds, List.append_assoc]
  | @shut s u heard path file held later ih =>
    obtain ⟨more, all, last⟩ := ih (ledgerShut ledger held)
    refine ⟨[.closed file] ++ more, ?_, List.append_assoc deeds _ _ ▸ last⟩
    rw [all, Disk.close, List.append_assoc]
  | @opens s u heard path disk file unset opened later ih =>
    have opens := Disk.openOpens opened
    obtain ⟨more, all, last⟩ := ih (ledgerOpens ledger unset opens)
    refine ⟨[.opened path file] ++ more, ?_, List.append_assoc deeds _ _ ▸ last⟩
    rw [all, opens.deeds, List.append_assoc]

theorem keptLedger {start link heard deeds} (kept : Kept start link heard deeds) (unset : start.sink = .none) :
    Ledger link deeds := by
  have first : Ledger start [] := by
    refine ⟨?_, ?_, List.nodup_nil, fun _ listed => (by cases listed), ?_⟩
    · exact fun file same => by cases unset.symm.trans same
    · rw [unset]
      rfl
    · exact fun path file same => by cases unset.symm.trans same
  obtain ⟨more, all, ledger⟩ := logsLedger kept.course first
  rw [kept.disk] at all
  cases List.append_cancel_left all
  exact ledger

/- A file that was handed in takes every line, and nothing else is done with it. -/
theorem logsGiven {s t heard} (logs : Logs s heard t) {file : Disk.Handle} (given : s.sink = .given file) :
    t.sink = .given file ∧
      t.disk.deeds = s.disk.deeds ++ heard.map fun entry => .wrote file (entry.2.shown ++ "\n") := by
  induction logs with
  | rest => exact ⟨given, (List.append_nil _).symm⟩
  | aside sink log numbers same later ih =>
    rw [← same]
    exact ih (sink.trans given)
  | @line s t u heard text taken later ih =>
    have hears := tellHears taken
    obtain ⟨last, all⟩ := ih (hears.sink.trans given)
    refine ⟨last, ?_⟩
    rw [all, hears.deeds, given, List.append_assoc]
    rfl
  | shut held later ih => cases held.symm.trans given
  | opens unset opened later ih => cases unset.symm.trans given

theorem closeSettles {s : Session} {deeds : List Disk.Deed} (ledger : Ledger s deeds) :
    ∃ more, s.closeSink.disk.deeds = s.disk.deeds ++ more ∧
      (Disk.opens (deeds ++ more)).Nodup ∧ Disk.opens (deeds ++ more) = Disk.closes (deeds ++ more) := by
  obtain ⟨more, all, last⟩ := logsLedger (closeLogs s) ledger
  refine ⟨more, all, last.distinct, ?_⟩
  have unset : s.closeSink.sink.file? = Option.none := by
    unfold closeSink
    cases sink : s.sink with
    | none => simp [sink, Sink.file?]
    | given file => exact absurd sink (ledger.own file)
    | opened path file => rfl
  rw [last.held, unset]
  exact List.append_nil _

theorem writtenOnly (file : Disk.Handle) (texts : List String) :
    Disk.opens (texts.map (.wrote file)) = [] ∧ Disk.closes (texts.map (.wrote file)) = [] := by
  simp [Disk.opens, Disk.closes, List.filterMap_eq_nil_iff, Disk.Deed.opened?, Disk.Deed.closed?]

/- At the end of a run all handles that were opened in it are closed, each of them once. -/
theorem serveCloses (room : Frame.Room) {start : Link} (unopened : start.host.sink.path? = Option.none)
    (input : List UInt8) :
    ∃ deeds, (serve room start input).2.host.disk.deeds = start.host.disk.deeds ++ deeds ∧
      (Disk.opens deeds).Nodup ∧ Disk.opens deeds = Disk.closes deeds := by
  obtain ⟨last, since, ended⟩ := serveSince room start input
  obtain ⟨heard, logs⟩ := sinceLogged since
  rw [ended]
  cases sink : start.host.sink with
  | none =>
    obtain ⟨deeds, kept⟩ := logsKept logs
    obtain ⟨more, all, distinct, same⟩ := closeSettles (keptLedger kept sink)
    refine ⟨deeds ++ more, ?_, distinct, same⟩
    rw [close, all, kept.disk, List.append_assoc]
  | given file =>
    obtain ⟨held, all⟩ := logsGiven logs sink
    have only := writtenOnly file (heard.map fun entry => entry.2.shown ++ "\n")
    rw [List.map_map] at only
    refine ⟨_, ?_, only.1 ▸ List.nodup_nil, only.1.trans only.2.symm⟩
    rw [close, closeSink, held]
    exact all
  | opened path file =>
    rw [sink] at unopened
    cases unopened

end LanguageService.Session
