import LanguageService.Proofs.Disk.Handles
import LanguageService.Proofs.Session.Apart

/-! New settings and the open documents. The settings are switched first, then the log file follows them,
and then the documents are analysed one after another. Each of these steps may stop the others: a path that
no file can have keeps all documents from being analysed, and a document that cannot be scanned or named in a
report those behind it. -/
namespace LanguageService.Session
open LanguageService.Act (Within Order)

def KeepsDistinct (before after : Link) : Prop :=
  before.host.buffers.keys.Nodup → after.host.buffers.keys.Nodup

theorem distinctOrder : Order KeepsDistinct where
  refl _ distinct := distinct
  trans first second distinct := second (first distinct)

theorem distinctRules : Rules (Within KeepsDistinct) := by
  refine withinRules distinctOrder fun leaves link distinct => ?_
  rw [runUpdate, (leaves link.host).1]
  exact distinct

theorem stepDistinct (link : Link) (message : Message) : KeepsDistinct link (step link message).2 := by
  refine Host.handleWithin (h := host) distinctOrder distinctRules.hostNote (fun _ _ distinct => distinct)
    (fun _ _ error => distinctRules.registeredHolds error) ?_ ?_ link
  · intro name run named asked found
    exact distinctRules.requestHolds found (fun _ _ _ distinct => distinct) (fun _ _ distinct => distinct) _
  · intro name run named silent found
    refine distinctRules.notificationHolds (fun edits link => edits.distinct link.host) ?_ ?_
      (fun _ _ => distinctOrder.throw _) found _
    · intro message link distinct
      rwa [Act.sendHost]
    · intro link distinct
      rw [runRegister]
      exact distinct

theorem reachedDistinct {link : Link} (reached : Reached link) : link.host.buffers.keys.Nodup := by
  induction reached with
  | start => exact List.nodup_nil
  | handled _ message ih => exact stepDistinct _ message ih
  | logged _ line ih => exact ih
  | answered _ response ih => exact ih

/- Documents analysed in a row, up to the first that cannot be scanned or has no name to be reported under. -/
inductive Sweep : Link → List (Key × Buffer) → Except Interrupt Unit → Link → Prop where
  | done {link} : Sweep link [] (.ok ()) link
  | stuck {link key b rest fault} (fails : Buffer.tokens link.host.settings.lead b.content = .error fault) :
      Sweep link ((key, b) :: rest) (.error (.fault fault)) link
  | mute {link key b rest tokens} (scanned : Buffer.tokens link.host.settings.lead b.content = .ok tokens)
      (rough : b.uri.isScalar = false) :
      Sweep link ((key, b) :: rest) (.error (.fault (reportFault b.uri (verdict link.host.settings tokens))))
        (indexed link key b.uri (Outline.ofTokens tokens))
  | next {link key b rest tokens result after}
      (scanned : Buffer.tokens link.host.settings.lead b.content = .ok tokens) (scalar : b.uri.isScalar = true)
      (later : Sweep (analysed link key b.uri tokens) rest result after) :
      Sweep link ((key, b) :: rest) result after

theorem analyseAllSweep (entries : List (Key × Buffer)) (link : Link) :
    Sweep link entries ((analyseAll entries).exec link).1 ((analyseAll entries).exec link).2 := by
  induction entries generalizing link with
  | nil => exact .done
  | cons entry rest ih =>
    obtain ⟨key, b⟩ := entry
    cases scanned : Buffer.tokens link.host.settings.lead b.content with
    | error fault =>
      simp only [analyseAll, Act.runBind, analyseFails key scanned]
      exact .stuck scanned
    | ok tokens =>
      simp only [analyseAll, Act.runBind, analyseScanned key scanned, runPublish]
      cases scalar : b.uri.isScalar with
      | true => exact .next scanned scalar (ih _)
      | false => exact .mute scanned scalar

theorem sweepFrame {link entries result after} (sweep : Sweep link entries result after) :
    after = { link with host := { link.host with index := after.host.index }, sent := after.sent } := by
  induction sweep with
  | done => rfl
  | stuck fails => rfl
  | mute scanned rough => rfl
  | next scanned scalar later ih =>
    rw [ih]
    rfl

def Tells (settings : Settings) (entry : Key × Buffer) (message : Json) : Prop :=
  ∃ tokens, Buffer.tokens settings.lead entry.2.content = .ok tokens ∧
    message = report entry.2.uri (if settings.diagnostics then Finding.ofTokens tokens else [])

/- A report on the document can be written. -/
def sayable (entry : Key × Buffer) : Bool := entry.2.uri.isScalar

/- Some documents have new outlines, and new reports where these can be written; no others have. -/
structure Reanalysed (settings : Settings) (done : List (Key × Buffer)) (before after : Link) : Prop where
  outlines : ∀ key b, (key, b) ∈ done → ∃ tokens, Buffer.tokens settings.lead b.content = .ok tokens ∧
    after.host.index.outline? key = some (Outline.ofTokens tokens)
  others : ∀ key ∉ done.map Prod.fst, after.host.index.outline? key = before.host.index.outline? key
  sent : ∃ reports, after.sent = before.sent ++ reports ∧
    List.Forall₂ (Tells settings) (done.filter sayable) reports

theorem reanalysedNone (settings : Settings) {before after : Link} (index : after.host.index = before.host.index)
    (sent : after.sent = before.sent) : Reanalysed settings [] before after :=
  ⟨fun _ _ entry => (by cases entry), fun _ _ => by rw [index], [], by rw [sent, List.append_nil], .nil⟩

theorem reanalysedMute {link : Link} {key : Key} {b : Buffer} {tokens : List Token}
    (scanned : Buffer.tokens link.host.settings.lead b.content = .ok tokens) (rough : b.uri.isScalar = false) :
    Reanalysed link.host.settings [(key, b)] link (indexed link key b.uri (Outline.ofTokens tokens)) where
  outlines other held entry := by
    cases List.mem_singleton.mp entry
    exact ⟨tokens, scanned, (Index.outlineFile _ _ _ _ _).trans (if_pos rfl)⟩
  others other absent := by
    rw [List.map_singleton, List.mem_singleton] at absent
    exact (Index.outlineFile _ _ _ _ _).trans (if_neg absent)
  sent := by
    refine ⟨[], (List.append_nil _).symm, ?_⟩
    simp [sayable, rough]

theorem Reanalysed.cons {link after : Link} {key : Key} {b : Buffer} {tokens : List Token} {done : List (Key × Buffer)}
    (scanned : Buffer.tokens link.host.settings.lead b.content = .ok tokens) (scalar : b.uri.isScalar = true)
    (fresh : key ∉ done.map Prod.fst)
    (rest : Reanalysed link.host.settings done (analysed link key b.uri tokens) after) :
    Reanalysed link.host.settings ((key, b) :: done) link after where
  outlines other held entry := by
    rcases List.mem_cons.mp entry with same | later
    · cases same
      refine ⟨tokens, scanned, (rest.others key fresh).trans ?_⟩
      exact (Index.outlineFile _ _ _ _ _).trans (if_pos rfl)
    · exact rest.outlines other held later
  others other absent := by
    rw [List.map_cons, List.mem_cons, not_or] at absent
    exact (rest.others other absent.2).trans ((Index.outlineFile _ _ _ _ _).trans (if_neg absent.1))
  sent := by
    obtain ⟨reports, sent, told⟩ := rest.sent
    refine ⟨report b.uri (verdict link.host.settings tokens) :: reports, ?_, ?_⟩
    · rw [sent, analysed, Connection.push, List.append_assoc, List.singleton_append]
      rfl
    · rw [List.filter_cons_of_pos (by exact scalar)]
      exact .cons ⟨tokens, scanned, rfl⟩ told

/- Why a row of analyses came to an end: it came to the end of the documents, or to one that cannot be scanned,
or it is behind one that could not be reported on. -/
inductive Remains (lead : CommentLead) : List (Key × Buffer) → List (Key × Buffer) → Prop where
  | none {done} (said : ∀ entry ∈ done, sayable entry = true) : Remains lead done []
  | stuck {done entry rest fault} (said : ∀ entry ∈ done, sayable entry = true)
      (fails : Buffer.tokens lead entry.2.content = .error fault) : Remains lead done (entry :: rest)
  | mute {done entry rest} (said : ∀ entry ∈ done, sayable entry = true) (rough : sayable entry = false) :
      Remains lead (done ++ [entry]) rest

theorem Remains.cons {lead : CommentLead} {done rest : List (Key × Buffer)} {entry : Key × Buffer}
    (first : sayable entry = true) (remains : Remains lead done rest) : Remains lead (entry :: done) rest := by
  cases remains with
  | none said => exact .none (List.forall_mem_cons.mpr ⟨first, said⟩)
  | stuck said fails => exact .stuck (List.forall_mem_cons.mpr ⟨first, said⟩) fails
  | mute said rough =>
    rw [← List.cons_append]
    exact .mute (List.forall_mem_cons.mpr ⟨first, said⟩) rough

theorem Remains.unscanned {lead : CommentLead} {done rest : List (Key × Buffer)} {entry : Key × Buffer}
    (remains : Remains lead done (entry :: rest)) (none : done = []) :
    ∃ fault, Buffer.tokens lead entry.2.content = .error fault := by
  cases remains with
  | stuck said fails => exact ⟨_, fails⟩
  | mute said rough => simp at none

theorem sweepReanalyses {link entries result after} (sweep : Sweep link entries result after)
    (distinct : (entries.map Prod.fst).Nodup) :
    ∃ done rest, entries = done ++ rest ∧ Reanalysed link.host.settings done link after ∧
      Remains link.host.settings.lead done rest := by
  induction sweep with
  | done => exact ⟨[], [], rfl, reanalysedNone _ rfl rfl, .none (by simp)⟩
  | stuck fails => exact ⟨[], _, rfl, reanalysedNone _ rfl rfl, .stuck (by simp) fails⟩
  | @mute link key b rest tokens scanned rough =>
    have remains : Remains link.host.settings.lead ([] ++ [(key, b)]) rest := .mute (by simp) rough
    exact ⟨[(key, b)], rest, rfl, reanalysedMute scanned rough, remains⟩
  | @next link key b entries tokens result after scanned scalar later ih =>
    obtain ⟨fresh, distinct⟩ := List.nodup_cons.mp distinct
    obtain ⟨done, rest, rfl, reanalysed, remains⟩ := ih distinct
    refine ⟨(key, b) :: done, rest, rfl, reanalysed.cons scanned scalar ?_, remains.cons scalar⟩
    exact fun listed => fresh (List.map_append ▸ List.mem_append_left _ listed)

/- The log file that new settings name cannot be opened on any disk. -/
def Blocked (s : Session) (settings : Settings) : Prop :=
  followed { s with settings } = false ∧ ∃ path, settings.logFile = some path ∧
    (path.isPlain = false ∨ '\x00' ∈ path.shown.toList)

theorem courseBlocked {link : Link} {settings : Settings} {line : String} {result : Except Interrupt Unit}
    {after : Link} (course : LogCourse (record line { link with host := { link.host with settings } }) result after) :
    result = .ok () ∧ ¬ Blocked link.host settings ∨
      (∃ fault, result = .error (.fault fault)) ∧ Blocked link.host settings := by
  cases course with
  | kept same =>
    refine .inl ⟨rfl, fun blocked => ?_⟩
    cases same.symm.trans blocked.1
  | shut behind unset =>
    refine .inl ⟨rfl, ?_⟩
    rintro ⟨_, path, named, _⟩
    cases unset.symm.trans named
  | opened behind named opens =>
    refine .inl ⟨rfl, ?_⟩
    rintro ⟨_, path, same, rough | null⟩
    · cases named.symm.trans same
      cases rough
    · cases named.symm.trans same
      cases opens.symm.trans (Disk.openNull.mpr null)
  | blocked behind named refused =>
    refine .inr ⟨⟨_, rfl⟩, behind, _, named, ?_⟩
    cases refused with
    | null null => exact .inr (Disk.openNull.mp null)
    | rough halved => exact .inl rfl
  | failed behind named refused other =>
    refine .inl ⟨rfl, ?_⟩
    rintro ⟨_, path, same, rough | null⟩
    · cases named.symm.trans same
      cases rough
    · cases named.symm.trans same
      cases refused.symm.trans (Disk.openNull.mpr null)
      exact other rfl

/- What an accepted change leaves: the new settings, and the documents as they were. -/
structure Switched (target : Settings) (before after : Link) : Prop where
  settings : after.host.settings = target
  buffers : after.host.buffers = before.host.buffers
  blocked : Blocked before.host target → after.host.index = before.host.index ∧ after.sent = before.sent
  free : ¬ Blocked before.host target → ∃ done rest, before.host.buffers.entries = done ++ rest ∧
    Reanalysed target done before after ∧ Remains target.lead done rest

theorem configurationSwitches {params options : Json} {link : Link} {settings : Settings}
    (distinct : link.host.buffers.keys.Nodup) (chosen : section? params = .ok (some options))
    (accepted : link.host.settings.updated options = .ok settings) :
    Switched settings link ((didChangeConfiguration params).exec link).2 := by
  rw [configurationRun chosen accepted]
  have course := openLogCourse (switchedTo settings link)
  generalize openLog.exec _ = ran at course ⊢
  obtain ⟨result, opened⟩ := ran
  obtain ⟨sink, disk, log, same⟩ := logCourseFrame course
  simp only at same
  subst same
  rcases courseBlocked course with ⟨rfl, free⟩ | ⟨⟨fault, rfl⟩, blocked⟩
  · have sweep := analyseAllSweep link.host.buffers.entries
      { link with host := { link.host with settings, sink, disk, log } }
    have frame := sweepFrame sweep
    obtain ⟨done, rest, all, reanalysed, remains⟩ := sweepReanalyses sweep distinct
    refine ⟨?_, ?_, fun blocked => absurd blocked free, fun _ => ⟨done, rest, all, ?_, remains⟩⟩
    · exact congrArg (fun link => link.host.settings) frame
    · exact congrArg (fun link => link.host.buffers) frame
    · exact ⟨reanalysed.outlines, reanalysed.others, reanalysed.sent⟩
  · exact ⟨rfl, rfl, fun _ => ⟨rfl, rfl⟩, fun free => absurd blocked free⟩

theorem switchedTold {target : Settings} {before : Link} (line : Text) (after : Link)
    (switched : Switched target before after) : Switched target before (told line after) := by
  obtain ⟨disk, log, same⟩ := toldHost line after
  rw [same]
  refine ⟨switched.settings, switched.buffers, switched.blocked, fun free => ?_⟩
  obtain ⟨done, rest, all, reanalysed, remains⟩ := switched.free free
  exact ⟨done, rest, all, ⟨reanalysed.outlines, reanalysed.others, reanalysed.sent⟩, remains⟩

theorem stepSwitches {link : Link} (reached : Reached link) {message : Message}
    (notified : Notifies message "workspace/didChangeConfiguration") {options : Json}
    (chosen : section? (Host.parameters message) = .ok (some options)) {settings : Settings}
    (accepted : link.host.settings.updated options = .ok settings) : Switched settings link (step link message).2 :=
  noticeKeeps switchedTold notified rfl (configurationSwitches (reachedDistinct reached) chosen accepted)

theorem configurationReaches {link : Link} (reached : Reached link) {message : Message}
    (notified : Notifies message "workspace/didChangeConfiguration") {options : Json}
    (chosen : section? (Host.parameters message) = .ok (some options)) :
    (step link message).1 = .ok Option.none ∧
    (∀ fault, link.host.settings.updated options = .error fault →
      (step link message).2 = record ("Ignoring configuration change: " ++ fault.message) link) ∧
    ∀ settings, link.host.settings.updated options = .ok settings →
      Switched settings link (step link message).2 := by
  refine ⟨noticeOutcome notified.1 notified.2 rfl (by decide) link, fun fault rejected => ?_,
    fun settings accepted => ?_⟩
  · rw [stepNotified notified rfl (configurationRejected chosen rejected)]
  · exact stepSwitches reached notified chosen accepted

def markedKey : Key := .text "file:///a.ast"

def markedLink : Link := (step freshLink (openingMessage "file:///a.ast" markedText)).2

/- The same document behind one that was opened without a text. -/
def emptyOpening : Message :=
  [("method", .text "textDocument/didOpen"),
    ("params", .object [("textDocument", .object [("uri", .text "file:///m.ast"), ("text", .null)])])]

def shadowedLink : Link := (step (step freshLink emptyOpening).2 (openingMessage "file:///a.ast" markedText)).2

def nullLogMessage : Message := configuring [("commentLead", .text "%"), ("logFile", .text "a\x00b")]

theorem markedReached : Reached markedLink := .handled (.start {} .none Option.none) _

theorem shadowedReached : Reached shadowedLink := .handled (.handled (.start {} .none Option.none) _) _

theorem markedReconfigured :
    Reached markedLink ∧
    Notifies percentMessage "workspace/didChangeConfiguration" ∧ section? (Host.parameters percentMessage) =
      .ok (some (.object [("commentLead", .text "%")])) ∧
    (step markedLink percentMessage).2.host.settings.lead = .percent ∧
    (step markedLink percentMessage).2.host.index.outline? markedKey =
      some (Outline.ofSource .percent markedText) := by
  have notified : Notifies percentMessage "workspace/didChangeConfiguration" := ⟨rfl, rfl⟩
  obtain ⟨b, content, marked⟩ := openingStep freshLink "file:///a.ast" markedText
  have single : markedLink.host.buffers.entries = [(markedKey, b)] := by
    rw [markedLink, marked]
    rfl
  obtain ⟨_, _, accepted⟩ := configurationReaches markedReached notified rfl
  have switched := accepted { lead := .percent } (by rw [markedLink, marked]; rfl)
  refine ⟨markedReached, notified, rfl, congrArg Settings.lead switched.settings, ?_⟩
  obtain ⟨done, rest, all, reanalysed, remains⟩ := switched.free (by rintro ⟨_, path, unset, _⟩; cases unset)
  cases done with
  | nil =>
    -- the only document has a text, so that it is not left behind
    rw [single, List.nil_append] at all
    subst all
    obtain ⟨fault, fails⟩ := remains.unscanned rfl
    rw [content] at fails
    cases fails
  | cons entry others =>
    rw [single, List.cons_append] at all
    cases (List.cons.inj all).1
    obtain ⟨tokens, scanned, outline⟩ := reanalysed.outlines markedKey _ List.mem_cons_self
    rw [content] at scanned
    cases scanned
    exact outline

theorem changesStop :
    Reached markedLink ∧ Reached shadowedLink ∧
    (step markedLink nullLogMessage).2.host.settings.lead = .percent ∧
    (step markedLink nullLogMessage).2.host.index.outline? markedKey =
      some (Outline.ofSource .dashes markedText) ∧
    (step shadowedLink percentMessage).2.host.settings.lead = .percent ∧
    (step shadowedLink percentMessage).2.host.index.outline? markedKey =
      some (Outline.ofSource .dashes markedText) ∧
    Outline.ofSource .dashes markedText ≠ Outline.ofSource .percent markedText := by
  obtain ⟨b, _, marked⟩ := openingStep freshLink "file:///a.ast" markedText
  obtain ⟨c, _, shadowed⟩ := openingStep (step freshLink emptyOpening).2 "file:///a.ast" markedText
  have logged : Switched { lead := .percent, logFile := some "a\x00b" } markedLink (step markedLink nullLogMessage).2 :=
    stepSwitches markedReached ⟨rfl, rfl⟩ rfl (by rw [markedLink, marked]; rfl)
  have blocked : Blocked markedLink.host { lead := .percent, logFile := some "a\x00b" } :=
    ⟨by rw [markedLink, marked]; rfl, _, rfl, .inr (by decide)⟩
  have switched : Switched { lead := .percent } shadowedLink (step shadowedLink percentMessage).2 :=
    stepSwitches shadowedReached ⟨rfl, rfl⟩ rfl (by rw [shadowedLink, shadowed]; rfl)
  refine ⟨markedReached, shadowedReached, congrArg Settings.lead logged.settings, ?_,
    congrArg Settings.lead switched.settings, ?_, outlinesDiffer⟩
  · rw [(logged.blocked blocked).1, markedLink, marked]
    exact (Index.outlineFile _ _ _ _ _).trans (if_pos rfl)
  · obtain ⟨done, rest, all, reanalysed, _⟩ := switched.free (by rintro ⟨_, path, unset, _⟩; cases unset)
    cases done with
    | nil =>
      rw [reanalysed.others markedKey (by simp), shadowedLink, shadowed]
      exact (Index.outlineFile _ _ _ _ _).trans (if_pos rfl)
    | cons entry others =>
      -- the first document has no text that could be scanned
      have entries : shadowedLink.host.buffers.entries =
          [(.text "file:///m.ast", ⟨.text "file:///m.ast", .text "asteroid", .int 0, .null⟩), (markedKey, c)] := by
        rw [shadowedLink, shadowed]
        rfl
      rw [entries, List.cons_append] at all
      cases (List.cons.inj all).1
      obtain ⟨tokens, scanned, _⟩ := reanalysed.outlines _ _ List.mem_cons_self
      cases scanned

end LanguageService.Session
