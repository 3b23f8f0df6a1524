import LanguageService.Proofs.Session.Endings
import LanguageService.Proofs.Session.Local
import LanguageService.Proofs.Session.Publishing

/-! Documents apart from each other. A message about one document leaves the others alone, and messages
about two documents can change places. Questions leave everything alone but the log. -/
namespace LanguageService.Session
open LanguageService.Act (Within Order)

def copied (sink : Sink) (lines : List Text) (disk : Disk) : Disk :=
  lines.foldl (fun disk line => match sink.file?, line with
    | some file, .plain line => disk.append file (line ++ "\n")
    | _, _ => disk) disk

/- A session with some lines more in its log. -/
def noted (lines : List Text) (s : Session) : Session :=
  { s with log := s.log ++ lines, disk := copied s.sink lines s.disk }

theorem notedAppend (first second : List Text) (s : Session) :
    noted (first ++ second) s = noted second (noted first s) := by
  simp only [noted, copied, List.append_assoc, List.foldl_append]

theorem notedNil (s : Session) : noted [] s = s := by
  simp only [noted, List.append_nil]
  rfl

theorem toldNoted (line : Text) (link : Link) :
    ∃ lines, told line link = { link with host := noted lines link.host } := by
  cases line with
  | plain line =>
    refine ⟨[.plain line], ?_⟩
    rw [toldPlain, record, note, noted, copied, List.foldl_cons, List.foldl_nil]
    cases link.host.sink.file? <;> rfl
  | rough points halved =>
    cases unfiled : link.host.sink.file? with
    | none =>
      refine ⟨[.rough points halved], ?_⟩
      simp only [told, tell, unfiled, noted, copied, List.foldl_cons, List.foldl_nil, Except.toOption, Option.getD]
    | some file =>
      refine ⟨[], ?_⟩
      rw [notedNil]
      simp only [told, tell, unfiled, Except.toOption, Option.getD]

/- What a message about a document leaves as it was. -/
structure Apart (uri : Text) (before after : Link) : Prop where
  buffers : ∀ key, key ≠ .text uri → after.host.buffers.get? key = before.host.buffers.get? key
  index : ∀ key, key ≠ .text uri → after.host.index.get? key = before.host.index.get? key
  host : ∃ lines, after.host =
    { noted lines before.host with buffers := after.host.buffers, index := after.host.index }
  sent : ∃ told, after.sent = before.sent ++ List.map (report (.text uri)) told
  rest : after = { before with host := after.host, sent := after.sent }

theorem apartOrder (uri : Text) : Order (Apart uri) where
  refl link := {
    buffers := fun _ _ => rfl
    index := fun _ _ => rfl
    host := ⟨[], by rw [notedNil]⟩
    sent := ⟨[], by simp⟩
    rest := rfl }
  trans {a b c} first second := by
    obtain ⟨lines, host⟩ := first.host
    obtain ⟨later, last⟩ := second.host
    obtain ⟨told, sent⟩ := first.sent
    obtain ⟨more, all⟩ := second.sent
    refine {
      buffers := fun key other => (second.buffers key other).trans (first.buffers key other)
      index := fun key other => (second.index key other).trans (first.index key other)
      host := ⟨lines ++ later, ?_⟩
      sent := ⟨told ++ more, by rw [all, sent, List.map_append, List.append_assoc]⟩
      rest := ?_ }
    · rw [last, host, notedAppend]
      rfl
    · rw [second.rest, first.rest]

theorem touchApart (uri : Text) (link : Link) (touch : Touch) : Apart uri link (touch.on uri link) := by
  have same := (apartOrder uri).refl link
  cases touch with
  | line text =>
    obtain ⟨lines, noted⟩ := toldNoted text link
    rw [Touch.on, noted]
    exact { same with host := ⟨lines, rfl⟩, rest := rfl }
  | hold languageId version content =>
    refine { same with buffers := fun key other => ?_, host := ⟨[], ?_⟩, rest := rfl }
    · exact (Table.getInsert _ _ _ _).trans (if_neg other)
    · rw [notedNil]
      rfl
  | drop =>
    refine { same with buffers := fun key other => ?_, host := ⟨[], ?_⟩, rest := rfl }
    · exact (Table.getErase _ _ _).trans (if_neg other)
    · rw [notedNil]
      rfl
  | file outline =>
    refine { same with index := fun key other => ?_, host := ⟨[], ?_⟩, rest := rfl }
    · exact (Table.getInsert _ _ _ _).trans (if_neg other)
    · rw [notedNil]
      rfl
  | tell findings => exact { same with sent := ⟨[findings], rfl⟩, rest := rfl }

theorem touchedApart (uri : Text) (link : Link) (touches : List Touch) :
    Apart uri link (touched uri link touches) := by
  induction touches generalizing link with
  | nil => exact (apartOrder uri).refl link
  | cons touch rest ih => exact (apartOrder uri).trans (touchApart uri link touch) (ih _)

theorem apartAgree {uri other : Text} (differs : uri ≠ other) {before after : Link}
    (apart : Apart other before after) : Agree uri before after := by
  have foreign : Key.text uri ≠ .text other := fun same => differs (Key.text.inj same)
  obtain ⟨lines, host⟩ := apart.host
  exact ⟨by rw [host]; rfl, by rw [host]; rfl, apart.buffers _ foreign, apart.index _ foreign⟩

def tellings : List Touch → List (List Finding)
  | [] => []
  | .tell findings :: rest => findings :: tellings rest
  | _ :: rest => tellings rest

theorem touchedSent (uri : Text) (link : Link) (touches : List Touch) :
    (touched uri link touches).sent = link.sent ++ (tellings touches).map (report (.text uri)) := by
  induction touches generalizing link with
  | nil => exact (List.append_nil _).symm
  | cons touch rest ih =>
    rw [touched, List.foldl_cons]
    refine (ih _).trans ?_
    cases touch with
    | tell findings => exact List.append_assoc _ _ _
    | _ => rfl

theorem filterReports (other uri : Text) (told : List (List Finding)) :
    (told.map (report (.text uri))).filter (reportsOn other) =
      if other = uri then told.map (report (.text uri)) else [] := by
  by_cases same : other = uri
  · rw [if_pos same, List.filter_eq_self]
    intro message member
    obtain ⟨findings, _, rfl⟩ := List.mem_map.mp member
    rw [reportsOnReport, decide_eq_true same]
  · rw [if_neg same, List.filter_eq_nil_iff]
    intro message member
    obtain ⟨findings, _, rfl⟩ := List.mem_map.mp member
    rw [reportsOnReport, decide_eq_true_iff]
    exact same

/- The same documents and outlines as maps, and the same reports on every document. -/
structure Equivalent (a b : Link) : Prop where
  buffers : ∀ key, a.host.buffers.get? key = b.host.buffers.get? key
  index : ∀ key, a.host.index.get? key = b.host.index.get? key
  reports : ∀ uri, a.sent.filter (reportsOn uri) = b.sent.filter (reportsOn uri)

/- Touches of two documents in either order. Where one of the documents is concerned, the other row of
touches makes no difference, before or behind. -/
theorem touchedExchange {uri other : Text} (differs : uri ≠ other) (link : Link) (first second : List Touch) :
    Equivalent (touched other (touched uri link first) second)
      (touched uri (touched other link second) first) := by
  have forth := touchedApart other (touched uri link first) second
  have back := touchedApart uri (touched other link second) first
  have mine : Agree uri (touched other (touched uri link first) second)
      (touched uri (touched other link second) first) :=
    (apartAgree differs forth).symm.trans
      (touchedAgree (apartAgree differs (touchedApart other link second)) first)
  have yours : Agree other (touched uri (touched other link second) first)
      (touched other (touched uri link first) second) :=
    (apartAgree differs.symm back).symm.trans
      (touchedAgree (apartAgree differs.symm (touchedApart uri link first)) second)
  refine ⟨fun key => ?_, fun key => ?_, fun name => ?_⟩
  · by_cases own : key = .text uri
    · rw [own, mine.buffer]
    by_cases foreign : key = .text other
    · rw [foreign, yours.buffer]
    rw [forth.buffers key foreign, back.buffers key own, (touchedApart uri link first).buffers key own,
      (touchedApart other link second).buffers key foreign]
  · by_cases own : key = .text uri
    · rw [own, mine.entry]
    by_cases foreign : key = .text other
    · rw [foreign, yours.entry]
    rw [forth.index key foreign, back.index key own, (touchedApart uri link first).index key own,
      (touchedApart other link second).index key foreign]
  · simp only [touchedSent, List.filter_append, filterReports]
    by_cases own : name = uri
    · simp [own, differs]
    · simp [own]

def KeepsNames (before after : Link) : Prop := Named before.host → Named after.host

theorem keepsOrder : Order KeepsNames where
  refl _ named := named
  trans first second named := second (first named)

theorem keepsBuffers {before after : Link} (same : after.host.buffers = before.host.buffers) :
    KeepsNames before after := by
  intro named
  rw [Named, same]
  exact named

theorem tellKeeps (line : Text) : Within KeepsNames (Act.tell line) := by
  intro link
  rw [runTell]
  exact keepsBuffers (toldBuffers line link)

theorem publishKeeps (uri : Json) (findings : List Finding) : Within KeepsNames (publish uri findings) :=
  fun link => keepsBuffers (congrArg Session.buffers (publishHost uri findings link))

theorem analyseKeeps (key : Key) (b : Buffer) : Within KeepsNames (analyse key b) :=
  fun link => keepsBuffers (analyseBuffers key b link)

theorem storeKeeps {key : Key} {b : Buffer} (own : b.uri.key? = some key) :
    Within KeepsNames (store key b) := fun _ named => namedInsert named own

theorem keyRead {v : Json} {key : Key} (read : v.key = .ok key) : v.key? = some key := by
  unfold Json.key at read
  split at read
  · cases read
    assumption
  · cases read

theorem didOpenKeeps (params : Json) : Within KeepsNames (didOpen params) := by
  have closed := keepsOrder.closed
  refine closed.bindLift fun document _ => closed.bindLift fun uri _ => closed.bindLift fun _ _ =>
    closed.bindLift fun _ _ => closed.bindLift fun _ _ => closed.bind (tellKeeps _) fun _ => ?_
  refine closed.bindLift fun key read => ?_
  exact closed.bind (storeKeeps (keyRead read)) fun _ => analyseKeeps _ _

theorem didChangeKeeps (params : Json) : Within KeepsNames (didChange params) := by
  intro link named
  obtain ⟨result, after, course⟩ := courseExists link params
  rw [courseExec course]
  cases course with
  | unread refused => exact named
  | unknown read takes => exact keepsBuffers (toldBuffers _ link) named
  | unnoted read refused => exact named
  | stopped read applied fails => exact namedUpdate named (readingHeld read).1 rfl
  | unscanned read applied fails => exact namedUpdate named (readingHeld read).1 rfl
  | unpublished read applied scanned rough => exact namedUpdate named (readingHeld read).1 rfl
  | complete read applied scanned scalar => exact namedUpdate named (readingHeld read).1 rfl

theorem didCloseKeeps (params : Json) : Within KeepsNames (didClose params) := by
  have closed := keepsOrder.closed
  refine closed.bindLift fun uri _ => closed.bind (tellKeeps _) fun _ =>
    closed.bind (fun _ => keepsBuffers rfl) fun s => ?_
  split
  · exact publishKeeps uri []
  · refine closed.bindLift fun key _ => closed.bind (fun _ named => ?_) fun _ => publishKeeps uri []
    exact namedErase named key

theorem didSaveKeeps (params : Json) : Within KeepsNames (didSave params) := by
  have closed := keepsOrder.closed
  refine closed.bindLift fun uri _ => closed.bindLift fun text _ => closed.bindLift fun key read => ?_
  intro link named
  rw [Act.runBind, runSession]
  cases held : link.host.buffers.get? key with
  | none =>
    simp only [held]
    exact named
  | some b =>
    simp only [held]
    split
    · exact named
    · exact closed.bind (storeKeeps (b := { b with content := text }) (named key b held))
        (fun _ => analyseKeeps _ _) link named

theorem analyseAllKeeps (entries : List (Key × Buffer)) : Within KeepsNames (analyseAll entries) := by
  induction entries with
  | nil => exact keepsOrder.pure _
  | cons entry rest ih => exact keepsOrder.bind (analyseKeeps entry.1 entry.2) fun _ => ih

theorem configurationKeeps (params : Json) : Within KeepsNames (didChangeConfiguration params) := by
  have closed := keepsOrder.closed
  refine closed.bindLift fun chosen _ => ?_
  cases chosen with
  | none => exact closed.pure _
  | some options =>
    refine closed.bind (fun _ => keepsBuffers rfl) fun s => ?_
    cases s.settings.updated options with
    | error fault => exact fun _ => keepsBuffers rfl
    | ok settings =>
      refine closed.bind (fun _ => keepsBuffers rfl) fun _ => closed.bind (fun _ => keepsBuffers rfl) fun _ =>
        closed.bind (fun link => keepsBuffers (sameDocumentsRules.openLogHolds link).buffers) fun _ =>
        closed.bind (fun _ => keepsBuffers rfl) fun _ => analyseAllKeeps _

theorem effectKeeps {name : Text} (listed : name ∈ effective) :
    ∃ run, notification? name = some run ∧ ∀ params, Within KeepsNames (run params) := by
  simp only [effective, List.mem_cons, List.not_mem_nil, or_false] at listed
  rcases listed with rfl | rfl | rfl | rfl | rfl
  · exact ⟨didOpen, rfl, didOpenKeeps⟩
  · exact ⟨didChange, rfl, didChangeKeeps⟩
  · exact ⟨didClose, rfl, didCloseKeeps⟩
  · exact ⟨didSave, rfl, didSaveKeeps⟩
  · exact ⟨didChangeConfiguration, rfl, configurationKeeps⟩

theorem stepNamed (link : Link) (message : Message) : KeepsNames link (step link message).2 := by
  by_cases effect : ∃ name ∈ effective, Notifies message name
  · obtain ⟨name, listed, notified⟩ := effect
    obtain ⟨run, found, keeps⟩ := effectKeeps listed
    refine noticeKeeps (fun line after kept => ?_) notified found (keeps (Host.parameters message) link)
    exact keepsOrder.trans kept (keepsBuffers (toldBuffers line after))
  · by_cases set : Requests message "initialize"
    · exact keepsBuffers (stepSetUp set link).buffers
    · refine keepsBuffers (stepUntouched set ?_ link).buffers
      intro name listed notified
      exact effect ⟨name, listed, notified⟩

/- A session at any time. -/
inductive Reached : Link → Prop where
  | start (disk : Disk) (sink : Sink) (settingsPath : Option String) :
      Reached (Command.newLink disk sink settingsPath)
  | handled {link} (reached : Reached link) (message : Message) : Reached (step link message).2
  | logged {link} (reached : Reached link) (line : String) : Reached (record line link)
  | answered {link} (reached : Reached link) (response : Json) : Reached (link.push response)

theorem reachedNamed {link : Link} (reached : Reached link) : Named link.host := by
  induction reached with
  | start => exact fun _ _ found => by cases found
  | handled _ message ih => exact stepNamed _ message ih
  | logged _ line ih => exact ih
  | answered _ response ih => exact ih

def questions : List Text :=
  ["textDocument/completion", "completionItem/resolve", "textDocument/hover", "textDocument/definition",
    "textDocument/documentSymbol"]

def Asks (message : Message) : Prop := ∃ name ∈ questions, Requests message name

def OnlyNotes (before after : Link) : Prop := ∃ lines, after = { before with host := noted lines before.host }

theorem onlyNotesOrder : Order OnlyNotes where
  refl link := ⟨[], by rw [notedNil]⟩
  trans first second := by
    obtain ⟨lines, rfl⟩ := first
    obtain ⟨later, rfl⟩ := second
    exact ⟨lines ++ later, by rw [notedAppend]⟩

theorem onlyNotesAsking : Asking (Within OnlyNotes) := by
  refine withinAsking onlyNotesOrder fun line link => ?_
  rw [runTell]
  exact toldNoted line link

theorem questionFound {name : Text} (listed : name ∈ questions) :
    (∃ run, request? name = some run) ∧ name ∉ (["initialize", "shutdown"] : List Text) := by
  simp only [questions, List.mem_cons, List.not_mem_nil, or_false] at listed
  rcases listed with rfl | rfl | rfl | rfl | rfl
  all_goals exact ⟨⟨_, rfl⟩, by decide⟩

theorem stepQuestion {message : Message} (asks : Asks message) (link : Link) :
    ∃ response lines,
      step link message = (.ok (some response), { link with host := noted lines link.host }) := by
  obtain ⟨name, listed, requested⟩ := asks
  obtain ⟨⟨run, found⟩, other⟩ := questionFound listed
  have faults := requestFaults found (Host.parameters message) link
  obtain ⟨lines, only⟩ := onlyNotesAsking.questionHolds found other (Host.parameters message) link
  obtain ⟨result, after, ran⟩ : ∃ result after, (run (Host.parameters message)).exec link =
    (result, after) := ⟨_, _, rfl⟩
  rw [ran] at faults only
  rw [stepExec, Host.handleRequested requested.1 requested.2 found, ran]
  subst only
  cases result with
  | ok value => exact ⟨_, lines, rfl⟩
  | error interrupt =>
    obtain ⟨fault, rfl⟩ := faults interrupt rfl
    obtain ⟨name, rfl⟩ := Text.plainText (requestPlain found)
    obtain ⟨more, last⟩ := toldNoted (Host.trouble name (.fault fault)) { link with host := noted lines link.host }
    refine ⟨_, lines ++ more, Prod.ext rfl ?_⟩
    rw [notedAppend]
    exact last

theorem documentsApart {link : Link} (reached : Reached link) :
    (∀ message uri, Concerns message uri →
      (step link message).1 = .ok Option.none ∧ Apart uri link (step link message).2) ∧
    (∀ message, Asks message → ∃ response lines,
      step link message = (.ok (some response), { link with host := noted lines link.host })) ∧
    ∀ first second uri other, uri ≠ other → Concerns first uri → Concerns second other →
      Equivalent (step (step link first).2 second).2 (step (step link second).2 first).2 := by
  have named := reachedNamed reached
  refine ⟨fun message uri concerns => ?_, fun message asks => stepQuestion asks link, ?_⟩
  · obtain ⟨touches, stepped⟩ := stepTouches concerns named
    rw [stepped link (Agree.refl uri link)]
    exact ⟨rfl, touchedApart uri link touches⟩
  · intro first second uri other differs mine yours
    obtain ⟨touches, one⟩ := stepTouches mine named
    obtain ⟨others, two⟩ := stepTouches yours named
    -- neither message can tell whether the other one came before it
    rw [one link (Agree.refl uri link), two link (Agree.refl other link),
      two _ (apartAgree differs.symm (touchedApart uri link touches)),
      one _ (apartAgree differs (touchedApart other link others))]
    exact touchedExchange differs link touches others

/- A batch that stops in the middle, a second document and a question, in a session with one document. -/
theorem halfBatchApart :
    Reached draftLink ∧ Concerns halfBatch "file:///a.ast" ∧
    Concerns (openingMessage "file:///b.ast" "let z = 3") "file:///b.ast" ∧
    Asks [("id", .int 1), ("method", .text "completionItem/resolve")] ∧
    Apart "file:///a.ast" draftLink (step draftLink halfBatch).2 ∧
    Equivalent (step (step draftLink halfBatch).2 (openingMessage "file:///b.ast" "let z = 3")).2
      (step (step draftLink (openingMessage "file:///b.ast" "let z = 3")).2 halfBatch).2 ∧
    ∃ response lines, step draftLink [("id", .int 1), ("method", .text "completionItem/resolve")] =
      (.ok (some response), { draftLink with host := noted lines draftLink.host }) := by
  have reached : Reached draftLink := .handled (.start {} .none Option.none) _
  have mine : Concerns halfBatch "file:///a.ast" := ⟨_, by decide, ⟨rfl, rfl⟩, rfl⟩
  have yours : Concerns (openingMessage "file:///b.ast" "let z = 3") "file:///b.ast" :=
    ⟨_, by decide, ⟨rfl, rfl⟩, rfl⟩
  have asks : Asks [("id", .int 1), ("method", .text "completionItem/resolve")] :=
    ⟨"completionItem/resolve", by decide, rfl, rfl⟩
  obtain ⟨frame, questions, exchange⟩ := documentsApart reached
  exact ⟨reached, mine, yours, asks, (frame _ _ mine).2, exchange _ _ _ _ (by decide) mine yours,
    questions _ asks⟩

end LanguageService.Session
