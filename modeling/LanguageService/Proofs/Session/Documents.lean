import LanguageService.Proofs.Rpc.Act
import LanguageService.Proofs.Session.Messages
import LanguageService.Proofs.Table

/-! What the handlers of document messages do to a session, exactly, for messages of the right
types. Each analysis files one outline and publishes one list of findings. -/
namespace LanguageService.Index

theorem outlineFile (index : Index) (key other : Key) (uri : Json) (outline : Outline) :
    (index.file key uri outline).outline? other =
      if other = key then some outline else index.outline? other := by
  rw [outline?, file, Table.getInsert]
  split <;> rfl

theorem keysFile (index : Index) (key : Key) (uri : Json) (outline : Outline) :
    index.keys <+: (index.file key uri outline).keys :=
  Table.keysInsertPrefix _ _ _

theorem outlineKeys {index : Index} {key : Key} :
    key ∈ index.keys ↔ ∃ outline, index.outline? key = some outline := by
  simp [Table.memKeys, outline?]

end LanguageService.Index

namespace LanguageService.Session

@[simp] theorem runSession (link : Link) : Act.session.exec link = (.ok link.host, link) := rfl

@[simp] theorem runUpdate (f : Session → Session) (link : Link) :
    (Act.update f).exec link = (.ok (), { link with host := f link.host }) := rfl

@[simp] theorem runNote (line : String) (link : Link) :
    (Act.note line).exec link = (.ok (), record line link) := rfl

@[simp] theorem recordBuffers (line : String) (link : Link) :
    (record line link).host.buffers = link.host.buffers := rfl

/- A session after a line for its log. Where the log does not take the line, nothing is logged. -/
def told (line : Text) (link : Link) : Link :=
  { link with host := (link.host.tell line).toOption.getD link.host }

theorem runTell (line : Text) (link : Link) :
    (Act.tell line).exec link =
      (((link.host.tell line).map fun _ => ()).mapError Interrupt.fault, told line link) := by
  simp only [Act.tell, Act.runBind, runSession, told]
  cases link.host.tell line <;> rfl

/- A rough line is taken while there is no file for it. -/
def Takes (s : Session) (line : Text) : Prop := line.isPlain = true ∨ s.sink.file? = Option.none

theorem tellTaken {s : Session} {line : Text} (takes : Takes s line) : ∃ t, s.tell line = .ok t := by
  cases line with
  | plain line => exact ⟨_, rfl⟩
  | rough points halved =>
    rcases takes with plain | unfiled
    · cases plain
    · exact ⟨_, by rw [tell, unfiled]⟩

theorem tellRefused {s : Session} {line : Text} (refused : ¬ Takes s line) :
    s.tell line = .error (.unencodable (.ofPoints line.points)) := by
  cases line with
  | plain line => exact absurd (.inl rfl) refused
  | rough points halved =>
    cases file : s.sink.file? with
    | none => exact absurd (.inr file) refused
    | some file' => rw [tell, file]; rfl

theorem runTellTaken {line : Text} {link : Link} (takes : Takes link.host line) :
    (Act.tell line).exec link = (.ok (), told line link) := by
  obtain ⟨t, taken⟩ := tellTaken takes
  rw [runTell, taken]
  rfl

theorem runTellRefused {line : Text} {link : Link} (refused : ¬ Takes link.host line) :
    (Act.tell line).exec link = (.error (.fault (.unencodable (.ofPoints line.points))), link) := by
  rw [runTell, told, tellRefused refused]
  rfl

/- Nothing but the log and the disk under it changes with a line. -/
theorem toldHost (line : Text) (link : Link) : ∃ disk log, told line link =
    { link with host := { link.host with disk, log } } := by
  cases line with
  | plain line => exact ⟨_, _, rfl⟩
  | rough points halved =>
    rw [told, tell]
    cases link.host.sink.file? with
    | none => exact ⟨_, _, rfl⟩
    | some file => exact ⟨_, _, rfl⟩

theorem toldUnfiled (line : Text) {link : Link} (unset : link.host.sink = .none) :
    (told line link).host.disk = link.host.disk := by
  cases line <;> simp [told, tell, note, Sink.file?, unset, Except.toOption]

theorem toldPlain (line : String) (link : Link) : told (.plain line) link = record line link := rfl

theorem noteTell (line : String) : Act.note line = Act.tell (.plain line) := rfl

theorem hostNote (line : Text) : host.note line = Act.tell line := by
  funext link
  show (host.note line).exec link = (Act.tell line).exec link
  rw [Host.runNote, runTell, Host.logged, told]
  simp only [host]
  cases link.host.tell line <;> rfl

@[simp] theorem toldBuffers (line : Text) (link : Link) : (told line link).host.buffers = link.host.buffers := by
  obtain ⟨disk, log, same⟩ := toldHost line link
  rw [same]

theorem findingScalar (f : Finding) : (Reply.finding f).isScalar = true := rfl

theorem reportScalar (uri : Json) (findings : List Finding) : (report uri findings).isScalar = uri.isScalar := by
  have listed : Json.itemsScalar (findings.map Reply.finding) = true := by
    rw [Json.itemsScalarIff]
    intro v member
    obtain ⟨f, _, rfl⟩ := List.mem_map.mp member
    exact findingScalar f
  simp [report, Connection.notification, Connection.version, Connection.parameters, Json.isScalar,
    Json.membersScalar, listed, Text.isPlain]

/- What there is to say where a report has no bytes. -/
def reportFault (uri : Json) (findings : List Finding) : Fault :=
  .unencodable (.ofPoints (report uri findings).renderPoints)

theorem runPublish (uri : Json) (findings : List Finding) (link : Link) :
    (publish uri findings).exec link = if uri.isScalar then (.ok (), link.push (report uri findings))
      else (.error (.fault (reportFault uri findings)), link) := by
  rw [← reportScalar uri findings]
  exact Act.runSend _ link

@[simp] theorem publishPlain (uri : String) (findings : List Finding) (link : Link) :
    (publish (.text uri) findings).exec link = (.ok (), link.push (report (.text uri) findings)) :=
  runPublish _ _ _

/- What the findings are of that are published, if any are to be. -/
def verdict (settings : Settings) (tokens : List Token) : List Finding :=
  if settings.diagnostics then Finding.ofTokens tokens else []

def findings (settings : Settings) (text : Text) : List Finding :=
  verdict settings (Token.ofSource settings.lead text.shown)

def stored (link : Link) (key : Key) (b : Buffer) : Link :=
  { link with host := { link.host with buffers := link.host.buffers.insert key b } }

def dropped (link : Link) (key : Key) : Link :=
  { link with host := { link.host with buffers := link.host.buffers.erase key } }

def indexed (link : Link) (key : Key) (uri : Json) (outline : Outline) : Link :=
  { link with host := { link.host with index := link.host.index.file key uri outline } }

def filed (link : Link) (key : Key) (uri : Json) (text : Text) : Link :=
  { link with
    host := { link.host with
      index := link.host.index.file key uri (Outline.ofSource link.host.settings.lead text.shown) }
    sent := link.sent ++ [report uri (findings link.host.settings text)] }

@[simp] theorem runStore (key : Key) (b : Buffer) (link : Link) :
    (store key b).exec link = (.ok (), stored link key b) := rfl

/- The outline is filed before the findings are published. -/
theorem analyseScanned {b : Buffer} {tokens : List Token} {link : Link} (key : Key)
    (scanned : Buffer.tokens link.host.settings.lead b.content = .ok tokens) :
    (analyse key b).exec link = (publish b.uri (verdict link.host.settings tokens)).exec
      (indexed link key b.uri (Outline.ofTokens tokens)) := by
  simp only [analyse, Act.runBind, runSession, scanned, Act.runLiftOk, runUpdate]
  rfl

theorem analyseFails {b : Buffer} {fault : Fault} {link : Link} (key : Key)
    (fails : Buffer.tokens link.host.settings.lead b.content = .error fault) :
    (analyse key b).exec link = (.error (.fault fault), link) := by
  simp only [analyse, Act.runBind, runSession, fails, Act.runLiftError]

theorem runAnalyse {b : Buffer} {uri : String} {text : Text} (name : b.uri = .text uri)
    (content : b.content = .text text) (key : Key) (link : Link) :
    (analyse key b).exec link = (.ok (), filed link key b.uri text) := by
  have scanned : Buffer.tokens link.host.settings.lead b.content =
      .ok (Token.ofSource link.host.settings.lead text.shown) := by rw [content, Buffer.tokens]
  rw [analyseScanned key scanned, name, publishPlain]
  rfl

theorem publishHost (uri : Json) (findings : List Finding) (link : Link) :
    ((publish uri findings).exec link).2.host = link.host := Act.sendHost _ link

theorem analyseBuffers (key : Key) (b : Buffer) (link : Link) :
    ((analyse key b).exec link).2.host.buffers = link.host.buffers := by
  cases scanned : Buffer.tokens link.host.settings.lead b.content with
  | error fault => rw [analyseFails key scanned]
  | ok tokens =>
    rw [analyseScanned key scanned, publishHost]
    rfl

/- The buffer of a document as it is opened. -/
def openedBuffer (uri text : Text) (document : List (Text × Json)) : Buffer where
  uri := .text uri
  languageId := (document.lookup (.plain "languageId")).getD (.text "asteroid")
  version := (document.lookup (.plain "version")).getD (.int 0)
  content := .text text

theorem didOpenNamed {message uri text members document} (names : Names message uri members document)
    (given : document.lookup (.plain "text") = some (.text text)) {link : Link}
    (takes : Takes link.host ("Document opened: " ++ uri)) :
    (didOpen (Host.parameters message)).exec link = (analyse (.text uri) (openedBuffer uri text document)).exec
      (stored (told ("Document opened: " ++ uri) link) (.text uri) (openedBuffer uri text document)) := by
  rw [names.parameters]
  simp [didOpen, names.found, Json.memberD, names.name, given, Json.plain, Json.key, Json.key?,
    runTellTaken takes, openedBuffer]

theorem didOpenRun {message uri text} (opening : Opening message uri text) {link : Link}
    (takes : Takes link.host ("Document opened: " ++ uri)) :
    ∃ b : Buffer, b.uri = .text uri ∧ b.content = .text text ∧
      (didOpen (Host.parameters message)).exec link =
        (analyse (.text uri) b).exec (stored (told ("Document opened: " ++ uri) link) (.text uri) b) := by
  obtain ⟨members, document, names, given⟩ := opening
  exact ⟨_, rfl, rfl, didOpenNamed names given takes⟩

theorem didOpenRefused {message uri text} (opening : Opening message uri text) {link : Link}
    (refused : ¬ Takes link.host ("Document opened: " ++ uri)) :
    ((didOpen (Host.parameters message)).exec link).2 = link := by
  obtain ⟨members, document, names, given⟩ := opening
  rw [names.parameters]
  simp [didOpen, names.found, Json.memberD, names.name, Json.plain, runTellRefused refused]

theorem storedStored (link : Link) (key : Key) (first second : Buffer) :
    stored (stored link key first) key second = stored link key second := by
  simp [stored, Table.insertInsert]

theorem applyChangesRun {src values out} (changed : Change.Changed src values out) {b : Buffer}
    (content : b.content = .text (.ofPoints src)) (key : Key) (link : Link) :
    ∃ link', (applyChanges key b values).exec link =
        (.ok { b with content := .text (.ofPoints out) }, link') ∧
      ∀ other, stored link' key other = stored link key other := by
  induction changed generalizing b link with
  | nil =>
    refine ⟨link, ?_, fun _ => rfl⟩
    rw [← content]
    rfl
  | @cons src value change rest out sent tail ih =>
    have applied : Edit.apply b.content value = .ok (.text (.ofPoints (change.apply src))) := by
      rw [content, Change.applySent sent, Text.pointsOfPoints]
    obtain ⟨link', ran, last⟩ := ih (b := { b with content := .text (.ofPoints (change.apply src)) })
      rfl (stored link key { b with content := .text (.ofPoints (change.apply src)) })
    -- the buffer is stored after each change, and only what is stored last counts
    refine ⟨link', ?_, fun other => by rw [last, storedStored]⟩
    simp [applyChanges, applied, ran]

theorem didChangeRun {message uri values src out} (changing : Changing message uri values)
    (changed : Change.Changed src values out) {link : Link} {b : Buffer}
    (found : link.host.buffers.get? (.text uri) = some b)
    (content : b.content = .text (.ofPoints src)) :
    ∃ version, let b' := { b with content := .text (.ofPoints out), version }
      (didChange (Host.parameters message)).exec link =
        (analyse (.text uri) b').exec (stored link (.text uri) b') := by
  obtain ⟨members, document, names, given⟩ := changing
  obtain ⟨link', ran, last⟩ := applyChangesRun changed content (.text uri) link
  refine ⟨(document.lookup (.plain "version")).getD b.version, ?_⟩
  rw [names.parameters]
  simp [didChange, names.found, Json.memberD, names.name, given, Json.elements, Json.key, Json.key?,
    found, ran, last]

theorem didChangeUnknown {message uri values} (changing : Changing message uri values) {link : Link}
    (closed : link.host.buffers.get? (.text uri) = none) :
    (didChange (Host.parameters message)).exec link =
      (Act.tell ("Warning: didChange for unknown document: " ++ uri)).exec link := by
  obtain ⟨members, document, names, given⟩ := changing
  rw [names.parameters]
  simp [didChange, names.found, Json.memberD, names.name, Json.key, Json.key?, closed, Json.plain]

theorem didCloseLocated {params : Json} {uri : Text} (located : documentUri params = .ok (.text uri))
    {link : Link} (takes : Takes link.host ("Document closed: " ++ uri)) :
    (didClose params).exec link =
      (publish (.text uri) []).exec (dropped (told ("Document closed: " ++ uri) link) (.text uri)) := by
  by_cases empty : link.host.buffers.isEmpty = true
  · have same : dropped (told ("Document closed: " ++ uri) link) (.text uri) =
        told ("Document closed: " ++ uri) link := by
      rw [dropped, toldBuffers, Table.eraseEmpty empty, ← toldBuffers ("Document closed: " ++ uri) link]
    simp [didClose, located, Json.plain, runTellTaken takes, empty, same]
  · simp [didClose, located, Json.plain, runTellTaken takes, empty, Json.key, Json.key?, dropped]

theorem didCloseRefused {params : Json} {uri : Text} (located : documentUri params = .ok (.text uri))
    {link : Link} (refused : ¬ Takes link.host ("Document closed: " ++ uri)) :
    (didClose params).exec link =
      (.error (.fault (.unencodable (.ofPoints ("Document closed: " ++ uri).points))), link) := by
  simp only [didClose, Act.runBind, located, Act.runLiftOk, Json.plain, runTellRefused refused]

theorem didCloseRun {message : Message} {uri : String} (closing : Closing message uri) (link : Link) :
    (didClose (Host.parameters message)).exec link =
      (.ok (), (dropped (record ("Document closed: " ++ uri) link) (.text uri)).push
        (report (.text uri) [])) := by
  obtain ⟨members, document, names⟩ := closing
  rw [names.parameters, didCloseLocated names.located (.inl rfl), publishPlain]
  rfl

theorem didSaveRun {message uri text} (saving : Saving message uri (some text)) {link : Link}
    {b : Buffer} (found : link.host.buffers.get? (.text uri) = some b) :
    (didSave (Host.parameters message)).exec link =
      (analyse (.text uri) { b with content := .text text }).exec
        (stored link (.text uri) { b with content := .text text }) := by
  obtain ⟨members, document, names, given⟩ := saving
  rw [names.parameters]
  simp [didSave, names.located, Json.member, Json.memberD, given, Json.key, Json.key?, found,
    Json.isNull]

theorem didSaveUnknown {message uri text} (saving : Saving message uri text) {link : Link}
    (idle : link.host.buffers.get? (.text uri) = none ∨ text = none) :
    (didSave (Host.parameters message)).exec link = (.ok (), link) := by
  obtain ⟨members, document, names, given⟩ := saving
  rw [names.parameters]
  simp only [didSave, Act.runBind, names.located, Act.runLiftOk, Json.member, Json.memberD, given,
    Json.key, Json.key?, runSession]
  cases found : link.host.buffers.get? (.text uri) with
  | none => rfl
  | some b =>
    rcases idle with closed | rfl
    · rw [found] at closed; cases closed
    · rfl

structure Refiled (entries : List (Key × Buffer)) (before after : Link) : Prop where
  buffers : after.host.buffers = before.host.buffers
  settings : after.host.settings = before.host.settings
  keys : before.host.index.keys <+: after.host.index.keys
  others : ∀ key ∉ entries.map Prod.fst,
    after.host.index.outline? key = before.host.index.outline? key
  outlines : ∀ key b text, (key, b) ∈ entries → b.content = .text text →
    after.host.index.outline? key = some (Outline.ofSource before.host.settings.lead text.shown)

theorem Refiled.cons {entries : List (Key × Buffer)} {key : Key} {b : Buffer} {text : Text}
    {before after : Link} (fresh : key ∉ entries.map Prod.fst) (content : b.content = .text text)
    (rest : Refiled entries (filed before key b.uri text) after) :
    Refiled ((key, b) :: entries) before after where
  buffers := rest.buffers
  settings := rest.settings
  keys := (Index.keysFile _ _ _ _).trans rest.keys
  others other absent := by
    rw [List.map_cons, List.mem_cons, not_or] at absent
    rw [rest.others other absent.2, filed, Index.outlineFile, if_neg absent.1]
  outlines other held source entry given := by
    rcases List.mem_cons.mp entry with same | later
    · cases same
      cases Json.text.inj (content.symm.trans given)
      rw [rest.others key fresh, filed, Index.outlineFile, if_pos rfl]
    · exact rest.outlines other held source later given

theorem analyseAllRun {entries : List (Key × Buffer)} (distinct : (entries.map Prod.fst).Nodup)
    (texts : ∀ entry ∈ entries, ∃ (uri : String) (text : Text), entry.2.uri = .text uri ∧ entry.2.content = .text text)
    (link : Link) :
    ∃ link', (analyseAll entries).exec link = (.ok (), link') ∧ Refiled entries link link' := by
  induction entries generalizing link with
  | nil => exact ⟨link, rfl, rfl, rfl, List.prefix_refl _, fun _ _ => rfl, fun _ _ _ entry => by cases entry⟩
  | cons entry rest ih =>
    obtain ⟨key, b⟩ := entry
    obtain ⟨uri, text, name, content⟩ := texts _ List.mem_cons_self
    obtain ⟨fresh, distinct⟩ := List.nodup_cons.mp distinct
    obtain ⟨link', ran, refiled⟩ := ih distinct
      (fun entry member => texts entry (List.mem_cons_of_mem _ member)) (filed link key b.uri text)
    refine ⟨link', ?_, refiled.cons fresh content⟩
    simp [analyseAll, runAnalyse name content, ran]

theorem stepExec (link : Link) (message : Message) : step link message = (host.handle message).exec link := rfl

theorem loggedTold {α : Type} (line : Text) (answer : α) (link : Link) :
    (host.logged line answer link).2 = told line link := by
  simp only [Host.logged, host, told]
  cases link.host.tell line <;> rfl

theorem stepNotified {message : Message} {name : Text} {run : Json → Act Unit}
    (notified : Notifies message name) (found : notification? name = some run) {link link' : Link}
    (ran : (run (Host.parameters message)).exec link = (.ok (), link')) :
    step link message = (.ok Option.none, link') := by
  rw [stepExec, Host.handleNotified notified.1 notified.2 found, ran]

/- A handler that fails is left at a line in the log, which has bytes whatever the fault is about. -/
theorem stepFaulted {message : Message} {name : String} {run : Json → Act Unit} (notified : Notifies message name)
    (found : notification? name = some run) {link link' : Link} {fault : Fault}
    (ran : (run (Host.parameters message)).exec link = (.error (.fault fault), link')) :
    step link message = (.ok Option.none, record ("Error handling " ++ name ++ ": " ++ fault.message) link') := by
  rw [stepExec, Host.handleNotified notified.1 notified.2 found, ran]
  rfl

/- A notice ends as its handler does, up to a line in the log. -/
theorem stepBehind {message : Message} {name : Text} {run : Json → Act Unit}
    (notified : Notifies message name) (found : notification? name = some run) (link : Link) :
    let after := ((run (Host.parameters message)).exec link).2
    (step link message).2 = after ∨ ∃ line, (step link message).2 = told line after := by
  obtain ⟨result, after, ran⟩ : ∃ result after, (run (Host.parameters message)).exec link =
    (result, after) := ⟨_, _, rfl⟩
  rw [stepExec, Host.handleNotified notified.1 notified.2 found, ran]
  match result with
  | .ok () => exact Or.inl rfl
  | .error (.exit code) => exact Or.inl rfl
  | .error (.fault fault) => exact Or.inr ⟨_, loggedTold _ _ _⟩
  | .error (.failure text) => exact Or.inr ⟨_, loggedTold _ _ _⟩
  | .error (.refusal code text data) => exact Or.inr ⟨_, loggedTold _ _ _⟩

/- What a handler left is kept by the line that may follow on its failure. -/
theorem noticeKeeps {P : Link → Prop} (notes : ∀ line link, P link → P (told line link)) {message : Message}
    {name : Text} {run : Json → Act Unit} (notified : Notifies message name) (found : notification? name = some run)
    {link : Link} (ran : P ((run (Host.parameters message)).exec link).2) : P (step link message).2 := by
  rcases stepBehind notified found link with last | ⟨line, last⟩
  · rw [last]
    exact ran
  · rw [last]
    exact notes line _ ran

end LanguageService.Session
