import LanguageService.Proofs.Session.Batches

/-! Messages about one document. What such a message does is a row of touches of the document, whether
or not it fails on the way, and which touches these are depends on nothing but the settings and what is
held under the name of the document. -/
namespace LanguageService.Session

inductive Touch where
  | line (text : Text)
  | hold (languageId version content : Json)
  | drop
  | file (outline : Outline)
  | tell (findings : List Finding)

def Touch.on (uri : Text) (link : Link) : Touch → Link
  | line text => told text link
  | hold languageId version content => stored link (.text uri) ⟨.text uri, languageId, version, content⟩
  | drop => dropped link (.text uri)
  | file outline => indexed link (.text uri) (.text uri) outline
  | tell findings => link.push (report (.text uri) findings)

def touched (uri : Text) (link : Link) (touches : List Touch) : Link := touches.foldl (Touch.on uri) link

/- Every document is held under its own name. -/
def Named (s : Session) : Prop := ∀ key b, s.buffers.get? key = some b → b.uri.key? = some key

theorem textKey {v : Json} {uri : Text} (key : v.key? = some (.text uri)) : v = .text uri := by
  cases v with
  | text other =>
    cases key
    rfl
  | real x =>
    simp only [Json.key?] at key
    split at key <;> cases key
  | _ => cases key

theorem namedInsert {s : Session} (named : Named s) {key : Key} {b : Buffer} (own : b.uri.key? = some key) :
    Named { s with buffers := s.buffers.insert key b } := by
  intro other held found
  rw [Table.getInsert] at found
  split at found
  · rename_i same
    cases found
    rw [same, own]
  · exact named other held found

theorem namedUpdate {s : Session} (named : Named s) {key : Key} {b next : Buffer}
    (held : s.buffers.get? key = some b) (same : next.uri = b.uri) :
    Named { s with buffers := s.buffers.insert key next } := by
  refine namedInsert named ?_
  rw [same]
  exact named key b held

theorem namedErase {s : Session} (named : Named s) (key : Key) :
    Named { s with buffers := s.buffers.erase key } := by
  intro other held found
  rw [Table.getErase] at found
  split at found
  · cases found
  · exact named other held found

theorem touchNamed {link : Link} (named : Named link.host) (uri : Text) (touch : Touch) :
    Named (touch.on uri link).host := by
  cases touch with
  | hold languageId version content => exact namedInsert named rfl
  | drop => exact namedErase named _
  | line text =>
    intro key b found
    rw [Touch.on, toldBuffers] at found
    exact named key b found
  | _ => exact named

theorem touchedNamed {link : Link} (named : Named link.host) (uri : Text) (touches : List Touch) :
    Named (touched uri link touches).host := by
  induction touches generalizing link with
  | nil => exact named
  | cons touch rest ih => exact ih (touchNamed named uri touch)

/- Two sessions that a message about one document cannot tell apart. -/
structure Agree (uri : Text) (a b : Link) : Prop where
  settings : b.host.settings = a.host.settings
  sink : b.host.sink = a.host.sink
  buffer : b.host.buffers.get? (.text uri) = a.host.buffers.get? (.text uri)
  entry : b.host.index.get? (.text uri) = a.host.index.get? (.text uri)

theorem Agree.refl (uri : Text) (link : Link) : Agree uri link link := ⟨rfl, rfl, rfl, rfl⟩

theorem Agree.symm {uri : Text} {a b : Link} (agree : Agree uri a b) : Agree uri b a :=
  ⟨agree.settings.symm, agree.sink.symm, agree.buffer.symm, agree.entry.symm⟩

theorem Agree.trans {uri : Text} {a b c : Link} (first : Agree uri a b) (second : Agree uri b c) : Agree uri a c :=
  ⟨second.settings.trans first.settings, second.sink.trans first.sink, second.buffer.trans first.buffer,
    second.entry.trans first.entry⟩

theorem toldAgree (uri line : Text) (link : Link) : Agree uri link (told line link) := by
  obtain ⟨disk, log, same⟩ := toldHost line link
  rw [same]
  exact ⟨rfl, rfl, rfl, rfl⟩

theorem touchAgree {uri : Text} {a b : Link} (agree : Agree uri a b) (touch : Touch) :
    Agree uri (touch.on uri a) (touch.on uri b) := by
  cases touch with
  | line text => exact (toldAgree uri text a).symm.trans (agree.trans (toldAgree uri text b))
  | hold languageId version content =>
    refine ⟨agree.settings, agree.sink, ?_, agree.entry⟩
    rw [Touch.on, Touch.on, heldStored, heldStored]
  | drop =>
    refine ⟨agree.settings, agree.sink, ?_, agree.entry⟩
    rw [Touch.on, Touch.on, dropped, dropped, Table.getErase, Table.getErase, if_pos rfl, if_pos rfl]
  | file outline =>
    refine ⟨agree.settings, agree.sink, agree.buffer, ?_⟩
    simp only [Touch.on, indexed, Index.file, Table.getInsert, agree.entry]
  | tell findings => exact ⟨agree.settings, agree.sink, agree.buffer, agree.entry⟩

theorem touchedAgree {uri : Text} {a b : Link} (agree : Agree uri a b) (touches : List Touch) :
    Agree uri (touched uri a touches) (touched uri b touches) := by
  induction touches generalizing a b with
  | nil => exact agree
  | cons touch rest ih => exact ih (touchAgree agree touch)

theorem touchedAppend (uri : Text) (link : Link) (first second : List Touch) :
    touched uri link (first ++ second) = touched uri (touched uri link first) second :=
  List.foldl_append

/- What an action does is told by what a session holds of one document, and is done to this document. -/
def Local {α : Type} (uri : Text) (x : Act α) : Prop :=
  ∀ link, Named link.host → ∃ (result : Except Fault α) (touches : List Touch),
    ∀ other, Agree uri link other → x.exec other = (result.mapError .fault, touched uri other touches)

namespace Local
variable {α β : Type} {uri : Text}

theorem pure (a : α) : Local uri (Pure.pure a : Act α) := fun _ _ => ⟨.ok a, [], fun _ _ => rfl⟩

theorem touch (touch : Touch) {x : Act Unit} (ran : ∀ link, x.exec link = (.ok (), touch.on uri link)) :
    Local uri x := fun _ _ => ⟨.ok (), [touch], fun other _ => ran other⟩

theorem bind {x : Act α} {f : α → Act β} (first : Local uri x) (rest : ∀ a, Local uri (f a)) :
    Local uri (x >>= f) := by
  intro link named
  obtain ⟨result, touches, ran⟩ := first link named
  cases result with
  | error fault =>
    refine ⟨.error fault, touches, fun other agree => ?_⟩
    rw [Act.runBind, ran other agree]
    rfl
  | ok a =>
    -- the second part starts from what the first left, which agrees where the start did
    obtain ⟨result, later, followed⟩ := rest a (touched uri link touches) (touchedNamed named uri touches)
    refine ⟨result, touches ++ later, fun other agree => ?_⟩
    rw [Act.runBind, ran other agree, touchedAppend]
    exact followed _ (touchedAgree agree touches)

theorem bindLift {value : Except Fault α} {f : α → Act β} (rest : ∀ a, value = .ok a → Local uri (f a)) :
    Local uri (liftM value >>= f) := by
  cases value with
  | ok a => exact rest a rfl
  | error fault => exact fun _ _ => ⟨.error fault, [], fun _ _ => rfl⟩

theorem takesAgree {line : Text} {link other : Link} (agree : Agree uri link other) :
    Takes other.host line ↔ Takes link.host line := by
  rw [Takes, Takes, agree.sink]

theorem tell (line : Text) : Local uri (Act.tell line) := by
  intro link _
  by_cases takes : Takes link.host line
  · exact ⟨.ok (), [.line line], fun other agree => runTellTaken ((takesAgree agree).mpr takes)⟩
  · exact ⟨.error _, [], fun other agree => runTellRefused (mt (takesAgree agree).mp takes)⟩

theorem publish (findings : List Finding) : Local uri (publish (.text uri) findings) := by
  intro link _
  cases scalar : (Json.text uri).isScalar with
  | true =>
    refine ⟨.ok (), [.tell findings], fun other _ => ?_⟩
    rw [runPublish, scalar]
    rfl
  | false =>
    refine ⟨.error (reportFault (.text uri) findings), [], fun other _ => ?_⟩
    rw [runPublish, scalar]
    rfl

theorem store {b : Buffer} (own : b.uri = .text uri) : Local uri (store (.text uri) b) := by
  obtain ⟨name, languageId, version, content⟩ := b
  cases own
  exact touch (.hold languageId version content) fun _ => rfl

theorem analyse {b : Buffer} (own : b.uri = .text uri) : Local uri (analyse (.text uri) b) := by
  intro link named
  cases scanned : Buffer.tokens link.host.settings.lead b.content with
  | error fault =>
    refine ⟨.error fault, [], fun other agree => ?_⟩
    rw [← agree.settings] at scanned
    exact analyseFails _ scanned
  | ok tokens =>
    -- the outline is filed whatever comes of the report
    obtain ⟨result, touches, ran⟩ := publish (verdict link.host.settings tokens)
      (touched uri link [.file (Outline.ofTokens tokens)]) (touchedNamed named uri _)
    refine ⟨result, .file (Outline.ofTokens tokens) :: touches, fun other agree => ?_⟩
    have later := ran _ (touchedAgree agree [.file (Outline.ofTokens tokens)])
    rw [← agree.settings] at scanned later
    rw [analyseScanned _ scanned, own]
    exact later

/- What an action asks of a session is the buffer of the document. -/
theorem buffer {f : Session → Act α}
    (same : ∀ s t, t.buffers.get? (.text uri) = s.buffers.get? (.text uri) → f t = f s)
    (rest : ∀ s, Named s → Local uri (f s)) : Local uri (Act.session >>= f) := by
  intro link named
  obtain ⟨result, touches, ran⟩ := rest link.host named link named
  refine ⟨result, touches, fun other agree => ?_⟩
  rw [Act.runBind, runSession]
  simp only
  rw [same _ _ agree.buffer]
  exact ran other agree

theorem applyChanges {b : Buffer} (own : b.uri = .text uri) (changes : List Json) {f : Buffer → Act α}
    (rest : ∀ b : Buffer, b.uri = .text uri → Local uri (f b)) :
    Local uri (applyChanges (.text uri) b changes >>= f) := by
  induction changes generalizing b with
  | nil => exact rest b own
  | cons change others ih =>
    simp only [Session.applyChanges, bind_assoc]
    exact bindLift fun content _ => (store (b := { b with content }) own).bind fun _ => ih own

end Local

section Handlers
variable {uri : Text} {params : Json} (located : documentUri params = .ok (.text uri))
include located

theorem locatedDocument {document : Json} (found : Session.document params = .ok document) :
    document.memberD "uri" (.text "") = .ok (.text uri) := by
  rw [documentUri, found] at located
  exact located

theorem didOpenLocal : Local uri (didOpen params) := by
  refine Local.bindLift fun document found => Local.bindLift fun name named => ?_
  cases (locatedDocument located found).symm.trans named
  refine Local.bindLift fun languageId _ => Local.bindLift fun version _ => Local.bindLift fun content _ => ?_
  refine (Local.tell _).bind fun _ => Local.bindLift fun key own => ?_
  cases own
  exact (Local.store rfl).bind fun _ => Local.analyse rfl

theorem didChangeLocal : Local uri (didChange params) := by
  refine Local.bindLift fun document found => Local.bindLift fun name named => ?_
  cases (locatedDocument located found).symm.trans named
  refine Local.bindLift fun key own => ?_
  cases own
  refine Local.buffer (fun s t same => by simp only [same]) fun s named => ?_
  cases held : s.buffers.get? (.text uri) with
  | none => exact Local.tell _
  | some b =>
    refine Local.bindLift fun listed _ => Local.bindLift fun changes _ => ?_
    refine Local.applyChanges (textKey (named _ b held)) changes fun last own => ?_
    refine Local.bindLift fun version _ => ?_
    exact (Local.store (b := { last with version }) own).bind fun _ => Local.analyse own

theorem didCloseLocal : Local uri (didClose params) := by
  intro link named
  by_cases takes : Takes link.host ("Document closed: " ++ uri)
  · -- a name that is not open may be dropped as well, so that it does not matter which documents are
    have published : Local uri (publish (.text uri) []) := Local.publish []
    obtain ⟨result, touches, ran⟩ := published
      (touched uri link [.line ("Document closed: " ++ uri), .drop]) (touchedNamed named uri _)
    refine ⟨result, [.line ("Document closed: " ++ uri), .drop] ++ touches, fun other agree => ?_⟩
    rw [didCloseLocated located ((Local.takesAgree agree).mpr takes), touchedAppend]
    exact ran _ (touchedAgree agree _)
  · refine ⟨.error (.unencodable (.ofPoints ("Document closed: " ++ uri).points)), [], fun other agree => ?_⟩
    exact didCloseRefused located (mt (Local.takesAgree agree).mp takes)

theorem didSaveLocal : Local uri (didSave params) := by
  refine Local.bindLift fun name named => ?_
  cases located.symm.trans named
  refine Local.bindLift fun text _ => Local.bindLift fun key own => ?_
  cases own
  refine Local.buffer (fun s t same => by simp only [same]) fun s named => ?_
  cases held : s.buffers.get? (.text uri) with
  | none => exact Local.pure _
  | some b =>
    simp only
    split
    · exact Local.pure _
    · have own : b.uri = .text uri := textKey (named _ b held)
      exact (Local.store (b := { b with content := text }) own).bind fun _ => Local.analyse own

end Handlers

def notices : List String :=
  ["textDocument/didOpen", "textDocument/didChange", "textDocument/didClose", "textDocument/didSave"]

/- A message about a document. Nothing is said of the types of what else it holds. -/
def Concerns (message : Message) (uri : Text) : Prop :=
  ∃ name ∈ notices, Notifies message name ∧ documentUri (Host.parameters message) = .ok (.text uri)

theorem noticeLocal {message : Message} {uri : Text} (concerns : Concerns message uri) :
    ∃ (name : String) (run : Json → Act Unit), Notifies message name ∧ notification? name = some run ∧
      Local uri (run (Host.parameters message)) := by
  obtain ⟨name, listed, notified, located⟩ := concerns
  simp only [notices, List.mem_cons, List.not_mem_nil, or_false] at listed
  rcases listed with rfl | rfl | rfl | rfl
  · exact ⟨_, didOpen, notified, rfl, didOpenLocal located⟩
  · exact ⟨_, didChange, notified, rfl, didChangeLocal located⟩
  · exact ⟨_, didClose, notified, rfl, didCloseLocal located⟩
  · exact ⟨_, didSave, notified, rfl, didSaveLocal located⟩

theorem stepTouches {message : Message} {uri : Text} (concerns : Concerns message uri) {link : Link}
    (named : Named link.host) :
    ∃ touches, ∀ other, Agree uri link other →
      step other message = (.ok Option.none, touched uri other touches) := by
  obtain ⟨name, run, notified, found, isLocal⟩ := noticeLocal concerns
  obtain ⟨result, touches, ran⟩ := isLocal link named
  cases result with
  | ok done => exact ⟨touches, fun other agree => stepNotified notified found (ran other agree)⟩
  | error fault =>
    refine ⟨touches ++ [.line ("Error handling " ++ name ++ ": " ++ fault.message)], fun other agree => ?_⟩
    rw [stepExec, Host.handleNotified notified.1 notified.2 found, ran other agree, touchedAppend]
    rfl

end LanguageService.Session
