import LanguageService.Command.Run
import LanguageService.Proofs.Session.Frame

/-! Buffers, settings and index agree after every message, in whatever order documents are opened,
changed, saved, closed and opened again and the settings are switched. A closed document keeps the
outline of its last text. -/
namespace LanguageService.Session

structure Consistent (s : Session) : Prop where
  distinct : s.buffers.keys.Nodup
  named : ∀ key b, s.buffers.get? key = some b → ∃ uri, key = .text uri ∧ b.uri = .text uri
  outlined : ∀ key b, s.buffers.get? key = some b →
    ∃ text, b.content = .text text ∧
      s.index.outline? key = some (Outline.ofSource s.settings.lead text.shown)

/- What one message may do: no outline is lost, and only those of open documents change. -/
structure Advance (before after : Link) : Prop where
  consistent : Consistent after.host
  keys : before.host.index.keys <+: after.host.index.keys
  closed : ∀ key, after.host.buffers.get? key = none →
    after.host.index.outline? key = before.host.index.outline? key

theorem untouchedConsistent {before after : Link} (same : Untouched before after)
    (consistent : Consistent before.host) : Consistent after.host where
  distinct := by
    rw [same.buffers]
    exact consistent.distinct
  named key b found := by
    rw [same.buffers] at found
    exact consistent.named key b found
  outlined key b found := by
    rw [same.buffers] at found
    rw [same.index, same.settings]
    exact consistent.outlined key b found

theorem sameKeys {before after : Link} (same : SameDocuments before after) :
    before.host.index.keys <+: after.host.index.keys := by
  simp only [same.index, List.prefix_rfl]

theorem untouchedAdvance {before after : Link} (same : Untouched before after)
    (consistent : Consistent before.host) : Advance before after where
  consistent := untouchedConsistent same consistent
  keys := sameKeys same.toSameDocuments
  closed _ _ := by rw [same.index]

/- What was last reported on the documents, once one of them has been reported on. Only a plain name can be. -/
def Retells (uri : Text) (findings : List Finding) (before after : List Json) : Prop :=
  ∀ other, lastReport? other after = if other = uri ∧ uri.isPlain = true then some (report (.text uri) findings)
    else lastReport? other before

/- A document with a new text. -/
structure Analysed (before : Link) (uri : Text) (b : Buffer) (text : Text) (after : Link) : Prop where
  buffers : after.host.buffers = before.host.buffers.insert (.text uri) b
  index : after.host.index = before.host.index.file (.text uri) b.uri
    (Outline.ofSource before.host.settings.lead text.shown)
  settings : after.host.settings = before.host.settings
  reports : Retells uri (findings before.host.settings text) before.sent after.sent

/- A document that is not open any more. -/
structure Shut (before : Link) (uri : Text) (after : Link) : Prop where
  buffers : after.host.buffers = before.host.buffers.erase (.text uri)
  index : after.host.index = before.host.index
  settings : after.host.settings = before.host.settings
  reports : Retells uri [] before.sent after.sent

theorem reportsOnReport (other uri : Text) (findings : List Finding) :
    reportsOn other (report (.text uri) findings) = decide (other = uri) := by
  show (("textDocument/publishDiagnostics" == "textDocument/publishDiagnostics") && (uri == other)) = _
  rw [beq_self_eq_true, Bool.true_and, Bool.eq_iff_iff, beq_iff_eq, decide_eq_true_iff, eq_comm]

theorem lastReportSent (other uri : Text) (sent : List Json) (findings : List Finding) :
    lastReport? other (sent ++ [report (.text uri) findings]) =
      if other = uri then some (report (.text uri) findings) else lastReport? other sent := by
  rw [lastReportSnoc, reportsOnReport]
  by_cases same : other = uri <;> simp [same]

theorem publishRetells (uri : Text) (findings : List Finding) (link : Link) :
    Retells uri findings link.sent ((publish (.text uri) findings).exec link).2.sent := by
  intro other
  rw [runPublish]
  cases uri with
  | plain uri => exact (lastReportSent other uri link.sent findings).trans (by simp [Text.isPlain])
  | rough points halved => exact (if_neg fun told => Bool.noConfusion told.2).symm

theorem analyseAnalysed {b : Buffer} {uri text : Text} (name : b.uri = .text uri) (content : b.content = .text text)
    (link : Link) :
    Analysed link uri b text ((analyse (.text uri) b).exec (stored link (.text uri) b)).2 := by
  have scanned : Buffer.tokens (stored link (.text uri) b).host.settings.lead b.content =
      .ok (Token.ofSource link.host.settings.lead text.shown) := by rw [content]; rfl
  rw [analyseScanned _ scanned, name]
  refine ⟨?_, ?_, ?_, publishRetells uri _ _⟩
  all_goals rw [publishHost]
  · rfl
  · rw [name]
    rfl
  · rfl

theorem publishShut (uri : Text) (link : Link) :
    Shut link uri ((publish (.text uri) []).exec (dropped link (.text uri))).2 := by
  refine ⟨?_, ?_, ?_, publishRetells uri _ _⟩
  all_goals rw [publishHost]; rfl

theorem Retells.around {uri : Text} {findings : List Finding} {before first second after : Link}
    (retells : Retells uri findings first.sent second.sent) (ahead : Untouched before first)
    (behind : Untouched second after) : Retells uri findings before.sent after.sent := by
  intro other
  rw [behind.reports, retells other, ahead.reports]

theorem Analysed.around {before first second after : Link} {uri text : Text} {b : Buffer}
    (analysed : Analysed first uri b text second) (ahead : Untouched before first) (behind : Untouched second after) :
    Analysed before uri b text after where
  buffers := by rw [behind.buffers, analysed.buffers, ahead.buffers]
  index := by rw [behind.index, analysed.index, ahead.index, ahead.settings]
  settings := by rw [behind.settings, analysed.settings, ahead.settings]
  reports := by
    rw [← ahead.settings]
    exact .around analysed.reports ahead behind

theorem Shut.around {before first second after : Link} {uri : Text} (shut : Shut first uri second)
    (ahead : Untouched before first) (behind : Untouched second after) : Shut before uri after where
  buffers := by rw [behind.buffers, shut.buffers, ahead.buffers]
  index := by rw [behind.index, shut.index, ahead.index]
  settings := by rw [behind.settings, shut.settings, ahead.settings]
  reports := .around shut.reports ahead behind

theorem analysedAdvance {before after : Link} (consistent : Consistent before.host) {uri text : Text} {b : Buffer}
    (name : b.uri = .text uri) (content : b.content = .text text) (analysed : Analysed before uri b text after) :
    Advance before after where
  consistent := {
    distinct := by
      rw [analysed.buffers]
      exact Table.nodupInsert consistent.distinct _ _
    named := by
      intro key other found
      rw [analysed.buffers, Table.getInsert] at found
      split at found
      · cases found
        exact ⟨uri, by assumption, name⟩
      · exact consistent.named key other found
    outlined := by
      intro key other found
      rw [analysed.buffers, Table.getInsert] at found
      rw [analysed.index, analysed.settings, Index.outlineFile]
      split at found
      · rename_i same
        cases found
        exact ⟨text, content, if_pos same⟩
      · rename_i differs
        obtain ⟨source, given, outline⟩ := consistent.outlined key other found
        exact ⟨source, given, by rw [if_neg differs, outline]⟩ }
  keys := by
    rw [analysed.index]
    exact Index.keysFile _ _ _ _
  closed key gone := by
    rw [analysed.buffers, Table.getInsert] at gone
    rw [analysed.index, Index.outlineFile]
    split at gone
    · cases gone
    · rename_i differs
      rw [if_neg differs]

theorem shutAdvance {before after : Link} (consistent : Consistent before.host) {uri : Text}
    (shut : Shut before uri after) : Advance before after where
  consistent := {
    distinct := by
      rw [shut.buffers]
      exact Table.nodupErase consistent.distinct _
    named := by
      intro key b found
      rw [shut.buffers, Table.getErase] at found
      split at found
      · cases found
      · exact consistent.named key b found
    outlined := by
      intro key b found
      rw [shut.buffers, Table.getErase] at found
      rw [shut.index, shut.settings]
      split at found
      · cases found
      · exact consistent.outlined key b found }
  keys := by simp only [shut.index, List.prefix_rfl]
  closed _ _ := by rw [shut.index]

theorem refiledAdvance {before middle after : Link} (same : SameDocuments before middle)
    (consistent : Consistent before.host)
    (refiled : Refiled middle.host.buffers.entries middle after) : Advance before after where
  consistent := {
    distinct := by
      rw [refiled.buffers, same.buffers]
      exact consistent.distinct
    named := by
      intro key b found
      rw [refiled.buffers, same.buffers] at found
      exact consistent.named key b found
    outlined := by
      intro key b found
      rw [refiled.buffers] at found
      have before := found
      rw [same.buffers] at before
      obtain ⟨text, given, _⟩ := consistent.outlined key b before
      refine ⟨text, given, ?_⟩
      rw [refiled.settings]
      exact refiled.outlines key b text (Table.getEntry found) given }
  keys := by
    rw [← same.index]
    exact refiled.keys
  closed key gone := by
    rw [← same.index]
    refine refiled.others key fun listed => ?_
    obtain ⟨b, found⟩ := Table.memKeys.mp listed
    rw [refiled.buffers, found] at gone
    cases gone

/- Every open document has a name that can be written. -/
def Writable (s : Session) : Prop := ∀ key b, s.buffers.get? key = some b → b.uri.isScalar = true

theorem openEntries {s : Session} (consistent : Consistent s) (writable : Writable s) :
    ∀ entry ∈ s.buffers.entries, ∃ (uri : String) (text : Text), entry.1 = .text uri ∧ entry.2.uri = .text uri ∧
      entry.2.content = .text text := by
  intro entry member
  have found := Table.entryGet consistent.distinct member
  obtain ⟨uri, key, name⟩ := consistent.named _ _ found
  obtain ⟨text, content, _⟩ := consistent.outlined _ _ found
  have plain := writable _ _ found
  rw [name, Json.isScalar] at plain
  obtain ⟨uri, rfl⟩ := Text.plainText plain
  exact ⟨uri, text, key, name, content⟩

theorem analyseOpen {before middle : Link} (same : SameDocuments before middle)
    (consistent : Consistent before.host) (writable : Writable before.host) :
    ∃ after, (analyseAll middle.host.buffers.entries).exec middle = (.ok (), after) ∧
      Refiled middle.host.buffers.entries middle after := by
  rw [same.buffers]
  refine analyseAllRun consistent.distinct (fun entry member => ?_) middle
  obtain ⟨uri, text, _, name, content⟩ := openEntries consistent writable entry member
  exact ⟨uri, text, name, content⟩

/- What a message may do to the documents of a session. -/
inductive Moved (before : Link) : Link → Prop where
  | idle {after} (same : Untouched before after) : Moved before after
  | begun {after} (empty : before.host.buffers.isEmpty = true) (same : SameDocuments before after) :
      Moved before after
  | analysed {after uri text b} (name : b.uri = .text uri) (content : b.content = .text text)
      (analysed : Analysed before uri b text after) : Moved before after
  | closed {after uri} (shut : Shut before uri after) : Moved before after
  | switched {middle after} (same : SameDocuments before middle) (writable : Writable before.host)
      (ran : (analyseAll middle.host.buffers.entries).exec middle = (.ok (), after)) : Moved before after

theorem refusedTold {link : Link} (refused : LogRefused link.host) (line : Text) :
    LogRefused (told line link).host := by
  obtain ⟨shut, path, fault, named, blocks⟩ := refused
  have same := toldUnfiled line shut
  obtain ⟨disk, log, kept⟩ := toldHost line link
  rw [kept] at same ⊢
  cases same
  exact ⟨shut, path, fault, named, blocks⟩

/- What a handler of a document notice did is done, whether or not a line on its failure follows. -/
theorem noticeMoved {message : Message} {name : Text} {run : Json → Act Unit} (notified : Notifies message name)
    (found : notification? name = some run) {link : Link}
    (moved : ∀ after, Untouched ((run (Host.parameters message)).exec link).2 after → Moved link after) :
    Moved link (step link message).2 := by
  refine moved _ (noticeKeeps (fun line after same => ?_) notified found (untouchedOrder.refl _))
  exact untouchedOrder.trans same (toldUntouched line after)

theorem stepConfiguration {link : Link} {message : Message} (consistent : Consistent link.host)
    (writable : Writable link.host) (notified : Notifies message "workspace/didChangeConfiguration")
    (logged : ¬ LogRefused (step link message).2.host) : Moved link (step link message).2 := by
  rcases configurationCases (Host.parameters message) link with same | refused | ⟨opened, same, ran⟩
  · exact noticeMoved notified rfl fun after behind => .idle (untouchedOrder.trans same behind)
  · refine absurd ?_ logged
    exact noticeKeeps (P := fun link => LogRefused link.host) (fun line _ refused => refusedTold refused line)
      notified rfl refused
  · obtain ⟨after, analysed, _⟩ := analyseOpen same consistent writable
    rw [stepNotified notified rfl (ran.trans analysed)]
    exact .switched same writable analysed

theorem stepOpen {link : Link} {message : Message} {uri text : Text}
    (notified : Notifies message "textDocument/didOpen") (opening : Opening message uri text) :
    Moved link (step link message).2 := by
  refine noticeMoved notified rfl fun after behind => ?_
  by_cases takes : Takes link.host ("Document opened: " ++ uri)
  · obtain ⟨b, name, content, ran⟩ := didOpenRun opening takes
    rw [ran] at behind
    exact .analysed name content ((analyseAnalysed name content _).around (toldUntouched _ link) behind)
  · rw [didOpenRefused opening takes] at behind
    exact .idle behind

theorem stepClose {link : Link} {message : Message} {uri : Text}
    (notified : Notifies message "textDocument/didClose") (closing : Closing message uri) :
    Moved link (step link message).2 := by
  obtain ⟨members, document, names⟩ := closing
  refine noticeMoved notified rfl fun after behind => ?_
  rw [names.parameters] at behind
  by_cases takes : Takes link.host ("Document closed: " ++ uri)
  · rw [didCloseLocated names.located takes] at behind
    exact .closed ((publishShut uri _).around (toldUntouched _ link) behind)
  · rw [didCloseRefused names.located takes] at behind
    exact .idle behind

theorem ownName {s : Session} (consistent : Consistent s) {uri : Text} {b : Buffer}
    (found : s.buffers.get? (.text uri) = some b) : b.uri = .text uri := by
  obtain ⟨name, same, own⟩ := consistent.named _ _ found
  cases same
  exact own

theorem stepChange {link : Link} {message : Message} {uri : Text} {values : List Json}
    (consistent : Consistent link.host) (notified : Notifies message "textDocument/didChange")
    (changing : Changing message uri values) (sent : ∀ value ∈ values, ∃ change, Change.Sent value change) :
    Moved link (step link message).2 := by
  refine noticeMoved notified rfl fun after behind => ?_
  cases found : link.host.buffers.get? (.text uri) with
  | none =>
    rw [didChangeUnknown changing found, runTell] at behind
    exact .idle (untouchedOrder.trans (toldUntouched _ link) behind)
  | some b =>
    obtain ⟨text, content, _⟩ := consistent.outlined _ _ found
    obtain ⟨out, changed⟩ := Change.changedExists sent text.points
    rw [← Text.ofPointsPoints text] at content
    obtain ⟨version, ran⟩ := didChangeRun changing changed found content
    have own := ownName consistent found
    have analysed := analyseAnalysed (b := { b with content := .text (.ofPoints out), version }) own rfl link
    rw [ran] at behind
    refine .analysed ?_ ?_ (analysed.around (untouchedOrder.refl link) behind)
    · exact own
    · rfl

theorem stepSave {link : Link} {message : Message} {uri : Text} {text : Option Text}
    (consistent : Consistent link.host) (notified : Notifies message "textDocument/didSave")
    (saving : Saving message uri text) : Moved link (step link message).2 := by
  have idle (unknown : link.host.buffers.get? (.text uri) = Option.none ∨ text = Option.none) :
      Moved link (step link message).2 := by
    rw [stepNotified notified rfl (didSaveUnknown saving unknown)]
    exact .idle (untouchedOrder.refl link)
  cases found : link.host.buffers.get? (.text uri) with
  | none => exact idle (Or.inl found)
  | some b =>
    cases text with
    | none => exact idle (Or.inr rfl)
    | some saved =>
      have own := ownName consistent found
      refine noticeMoved notified rfl fun after behind => ?_
      have analysed := analyseAnalysed (b := { b with content := .text saved }) own rfl link
      rw [didSaveRun saving found] at behind
      refine .analysed ?_ ?_ (analysed.around (untouchedOrder.refl link) behind)
      · exact own
      · rfl

/- Messages about documents have the types that they should have. All others are free. -/
structure WellTyped (message : Message) : Prop where
  opens : Notifies message "textDocument/didOpen" → ∃ uri text, Opening message uri text
  changes : Notifies message "textDocument/didChange" → ∃ uri values, Changing message uri values ∧
    ∀ value ∈ values, ∃ change, Change.Sent value change
  closes : Notifies message "textDocument/didClose" → ∃ uri, Closing message uri
  saves : Notifies message "textDocument/didSave" → ∃ uri text, Saving message uri text

/- A session is set up before documents are open, and its configuration changes while their names can be
written: the reports on the others would stop the analysis of those behind them. -/
structure Admitted (link : Link) (message : Message) : Prop extends WellTyped message where
  early : Requests message "initialize" → link.host.buffers.isEmpty = true
  logged : ¬ LogRefused (step link message).2.host
  named : Notifies message "workspace/didChangeConfiguration" → Writable link.host

theorem emptyConsistent {s : Session} (empty : s.buffers.isEmpty = true) : Consistent s := by
  refine ⟨?_, ?_, ?_⟩
  · rw [Table.keys, List.isEmpty_iff.mp empty]
    exact List.nodup_nil
  · intro key b found
    cases (Table.getEmpty empty key).symm.trans found
  · intro key b found
    cases (Table.getEmpty empty key).symm.trans found

theorem stepMoved {link : Link} {message : Message} (admitted : Admitted link message)
    (consistent : Consistent link.host) : Moved link (step link message).2 := by
  by_cases effect : ∃ name ∈ effective, Notifies message name
  · obtain ⟨name, listed, notified⟩ := effect
    simp only [effective, List.mem_cons, List.not_mem_nil, or_false] at listed
    rcases listed with rfl | rfl | rfl | rfl | rfl
    · obtain ⟨uri, text, opening⟩ := admitted.opens notified
      exact stepOpen notified opening
    · obtain ⟨uri, values, changing, sent⟩ := admitted.changes notified
      exact stepChange consistent notified changing sent
    · obtain ⟨uri, closing⟩ := admitted.closes notified
      exact stepClose notified closing
    · obtain ⟨uri, text, saving⟩ := admitted.saves notified
      exact stepSave consistent notified saving
    · exact stepConfiguration consistent (admitted.named notified) notified admitted.logged
  · by_cases set : Requests message "initialize"
    · exact .begun (admitted.early set) (stepSetUp set link)
    · refine .idle (stepUntouched set ?_ link)
      intro name listed notified
      exact effect ⟨name, listed, notified⟩

theorem movedAdvance {before after : Link} (moved : Moved before after)
    (consistent : Consistent before.host) : Advance before after := by
  cases moved with
  | idle same => exact untouchedAdvance same consistent
  | begun empty same =>
    refine ⟨emptyConsistent ?_, sameKeys same, ?_⟩
    · rw [same.buffers]
      exact empty
    · intro key gone
      rw [same.index]
  | analysed name content analysed => exact analysedAdvance consistent name content analysed
  | closed shut => exact shutAdvance consistent shut
  | switched same writable ran =>
    obtain ⟨_, analysed, refiled⟩ := analyseOpen same consistent writable
    cases analysed.symm.trans ran
    exact refiledAdvance same consistent refiled

theorem stepAdvance {link : Link} {message : Message} (admitted : Admitted link message)
    (consistent : Consistent link.host) : Advance link (step link message).2 :=
  movedAdvance (stepMoved admitted consistent) consistent

/- A session after some messages, and the states that it had before, the latest first. -/
inductive History : Link → List Link → Prop where
  | start (disk : Disk) (sink : Sink) (settingsPath : Option String) :
      History (Command.newLink disk sink settingsPath) []
  | more {link past message} (history : History link past) (admitted : Admitted link message) :
      History (step link message).2 (link :: past)

theorem pastConsistent {link past} (history : History link past) :
    ∀ state ∈ link :: past, Consistent state.host := by
  induction history with
  | start =>
    intro state member
    rw [List.mem_singleton.mp member]
    exact emptyConsistent rfl
  | @more link _ _ _ admitted ih =>
    have advance := stepAdvance admitted (ih link List.mem_cons_self)
    exact List.forall_mem_cons.mpr ⟨advance.consistent, ih⟩

theorem historyConsistent {link past} (history : History link past) : Consistent link.host :=
  pastConsistent history link List.mem_cons_self

theorem historyKeys {link past} (history : History link past) :
    ∀ earlier ∈ past, earlier.host.index.keys <+: link.host.index.keys := by
  induction history with
  | start => exact fun _ member => by cases member
  | more history admitted ih =>
    intro earlier member
    have kept := (stepAdvance admitted (historyConsistent history)).keys
    rcases List.mem_cons.mp member with same | older
    · rw [same]
      exact kept
    · exact (ih earlier older).trans kept

def lastOpen? (key : Key) (states : List Link) : Option Link :=
  states.find? fun link => link.host.buffers.contains key

theorem lastOpenHeld {link : Link} {key : Key} (held : link.host.buffers.contains key = true)
    (past : List Link) : lastOpen? key (link :: past) = some link := by
  simp [lastOpen?, held]

theorem lastOpenGone {link : Link} {key : Key} (gone : link.host.buffers.contains key = false)
    (past : List Link) : lastOpen? key (link :: past) = lastOpen? key past := by
  simp [lastOpen?, gone]

/- The index holds what it held when the document was open last. -/
theorem historyLast {link past} (history : History link past) (key : Key) :
    link.host.index.outline? key =
      (lastOpen? key (link :: past)).bind fun was => was.host.index.outline? key := by
  induction history with
  | start =>
    rw [lastOpenGone rfl]
    rfl
  | @more link past message history admitted ih =>
    cases held : (step link message).2.host.buffers.contains key with
    | true =>
      rw [lastOpenHeld held]
      rfl
    | false =>
      have gone : (step link message).2.host.buffers.get? key = Option.none := by
        simpa [Table.contains] using held
      rw [lastOpenGone held, ← ih]
      exact (stepAdvance admitted (historyConsistent history)).closed key gone

theorem lastOutline {link past} (history : History link past) {key : Key} {was : Link}
    (last : lastOpen? key (link :: past) = some was) :
    ∃ b text, was.host.buffers.get? key = some b ∧ b.content = .text text ∧
      link.host.index.outline? key = some (Outline.ofSource was.host.settings.lead text.shown) := by
  have held := List.find?_some (p := fun state : Link => state.host.buffers.contains key) last
  obtain ⟨b, found⟩ := Option.isSome_iff_exists.mp held
  have consistent := pastConsistent history was (List.mem_of_find?_eq_some last)
  obtain ⟨text, content, outline⟩ := consistent.outlined key b found
  refine ⟨b, text, found, content, ?_⟩
  rw [historyLast history, last]
  exact outline

theorem historyOutlines {link past} (history : History link past) :
    Consistent link.host ∧
    (∀ earlier ∈ past, earlier.host.index.keys <+: link.host.index.keys) ∧
    (∀ key, key ∈ link.host.index.keys ↔ (lastOpen? key (link :: past)).isSome = true) ∧
    ∀ key was, lastOpen? key (link :: past) = some was →
      ∃ b text, was.host.buffers.get? key = some b ∧ b.content = .text text ∧
        link.host.index.outline? key = some (Outline.ofSource was.host.settings.lead text.shown) := by
  refine ⟨historyConsistent history, historyKeys history, ?_, fun key was last => lastOutline history last⟩
  intro key
  rw [Index.outlineKeys]
  cases last : lastOpen? key (link :: past) with
  | none => simp [historyLast history, last]
  | some was =>
    obtain ⟨b, text, _, _, outline⟩ := lastOutline history last
    simp [outline]

theorem openingStep (link : Link) (uri : String) (text : Text) :
    ∃ b : Buffer, b.content = .text text ∧
      (step link (openingMessage uri text)).2 =
        filed (stored (record ("Document opened: " ++ uri) link) (.text uri) b) (.text uri) b.uri text := by
  have takes : Takes link.host ("Document opened: " ++ uri) := .inl rfl
  obtain ⟨b, name, content, ran⟩ := didOpenRun (openingOpens uri text) takes
  exact ⟨b, content, by rw [stepNotified ⟨rfl, rfl⟩ rfl (ran.trans (runAnalyse name content _ _))]; rfl⟩

theorem closingStep (link : Link) (uri : String) :
    (step link (closingMessage uri)).2 =
      (dropped (record ("Document closed: " ++ uri) link) (.text uri)).push (report (.text uri) []) := by
  rw [stepNotified ⟨rfl, rfl⟩ rfl (didCloseRun (closingCloses uri) link)]

theorem openingTyped (uri text : Text) : WellTyped (openingMessage uri text) := by
  refine ⟨fun _ => ⟨uri, text, openingOpens uri text⟩, ?_, ?_, ?_⟩
  · simp [Notifies, openingMessage]
  · simp [Notifies, openingMessage]
  · simp [Notifies, openingMessage]

theorem openingAdmitted (link : Link) (quiet : link.host.settings.logFile = Option.none)
    (uri : String) (text : Text) : Admitted link (openingMessage uri text) := by
  refine ⟨openingTyped uri text, ?_, ?_, ?_⟩
  · simp [Requests, openingMessage]
  · rintro ⟨_, path, _, named, _⟩
    obtain ⟨b, _, ran⟩ := openingStep link uri text
    rw [ran] at named
    cases quiet.symm.trans named
  · simp [Notifies, openingMessage]

theorem closingAdmitted (link : Link) (quiet : link.host.settings.logFile = Option.none) (uri : String) :
    Admitted link (closingMessage uri) := by
  refine ⟨⟨?_, ?_, fun _ => ⟨uri, closingCloses uri⟩, ?_⟩, ?_, ?_, ?_⟩
  · simp [Notifies, closingMessage]
  · simp [Notifies, closingMessage]
  · simp [Notifies, closingMessage]
  · simp [Requests, closingMessage]
  · rintro ⟨_, path, _, named, _⟩
    rw [closingStep] at named
    cases quiet.symm.trans named
  · simp [Notifies, closingMessage]

def freshLink : Link := Command.newLink {} .none Option.none

def openedLink : Link := (step freshLink (openingMessage "file:///a.ast" "let x = 1.")).2

def closedLink : Link := (step openedLink (closingMessage "file:///a.ast")).2

theorem closedOutlineStays :
    History closedLink [openedLink, freshLink] ∧
    closedLink.host.buffers.get? (.text "file:///a.ast") = Option.none ∧
    closedLink.host.index.outline? (.text "file:///a.ast") =
      some (Outline.ofSource .dashes "let x = 1.") := by
  obtain ⟨b, content, opened⟩ := openingStep freshLink "file:///a.ast" "let x = 1."
  have quiet : openedLink.host.settings = {} := by
    rw [openedLink, opened]
    rfl
  have held : openedLink.host.buffers.get? (.text "file:///a.ast") = some b := by
    rw [openedLink, opened, filed, stored, Table.getInsert, if_pos rfl]
  have gone : closedLink.host.buffers.get? (.text "file:///a.ast") = Option.none := by
    rw [closedLink, closingStep, Connection.push, dropped, Table.getErase, if_pos rfl]
  have history : History closedLink [openedLink, freshLink] :=
    .more (.more (.start {} .none Option.none) (openingAdmitted _ rfl _ _))
      (closingAdmitted _ (by rw [quiet]) _)
  have last : lastOpen? (.text "file:///a.ast") [closedLink, openedLink, freshLink] = some openedLink := by
    rw [lastOpenGone (by rw [Table.contains, gone]; rfl), lastOpenHeld (by rw [Table.contains, held]; rfl)]
  obtain ⟨_, _, _, outlines⟩ := historyOutlines history
  obtain ⟨other, text, found, same, outline⟩ := outlines _ _ last
  cases held.symm.trans found
  cases content.symm.trans same
  rw [quiet] at outline
  exact ⟨history, gone, outline⟩

/- A name that is half of a pair, and a document whose second declaration other settings make a comment. -/
def halfName : Text := .ofPoints [.ofUnit 0xD800]

def markedText : String := "let x = 1 % let y = 2"

def configuring (options : List (Text × Json)) : Message :=
  [("method", .text "workspace/didChangeConfiguration"),
    ("params", .object [("settings", .object [("asteroid", .object options)])])]

def percentMessage : Message := configuring [("commentLead", .text "%")]

def halfLink : Link := (step freshLink (openingMessage halfName "")).2

def strandedLink : Link := (step (step halfLink (openingMessage "file:///a.ast" markedText)).2 percentMessage).2

def halfBuffer : Buffer := ⟨.text halfName, .text "asteroid", .int 0, .text ""⟩

/- The name is noted, the document opened and its outline filed; then the report on it has no bytes. -/
theorem halfOpened : ∃ line, halfLink = record line (indexed (stored (told ("Document opened: " ++ halfName) freshLink)
    (.text halfName) halfBuffer) (.text halfName) (.text halfName) (Outline.ofSource .dashes "")) := by
  have names : Names (openingMessage halfName "") halfName _ _ := ⟨rfl, rfl, rfl⟩
  have takes : Takes freshLink.host ("Document opened: " ++ halfName) := .inr rfl
  have scanned : Buffer.tokens .dashes halfBuffer.content = .ok (Token.ofSource .dashes "") := rfl
  have ran := didOpenNamed names rfl takes
  rw [analyseScanned _ scanned, runPublish, if_neg (by decide)] at ran
  exact ⟨_, congrArg Prod.snd (stepFaulted ⟨rfl, rfl⟩ rfl ran)⟩

theorem percentTyped : WellTyped percentMessage := by
  refine ⟨?_, ?_, ?_, ?_⟩
  all_goals simp [Notifies, percentMessage, configuring]

theorem outlinesDiffer : Outline.ofSource .dashes markedText ≠ Outline.ofSource .percent markedText := by
  intro same
  have names : (Outline.ofSource .dashes markedText).symbols.keys ≠
      (Outline.ofSource .percent markedText).symbols.keys := by decide +kernel
  exact names (by rw [same])

/- The documents are analysed in the order in which they were opened, and the first report stops it. -/
theorem strandedRun (link : Link) (settings : link.host.settings = {}) (sink : link.host.sink = .none)
    {rest : List (Key × Buffer)} (entries : link.host.buffers.entries = (.text halfName, halfBuffer) :: rest) :
    ∃ line, (step link percentMessage).2 = record line
      (indexed (switchedTo { lead := .percent } link) (.text halfName) (.text halfName)
        (Outline.ofSource .percent "")) := by
  have accepted : link.host.settings.updated (.object [("commentLead", .text "%")]) = .ok { lead := .percent } := by
    rw [settings]
    rfl
  have chosen : section? (Host.parameters percentMessage) = .ok (some (.object [("commentLead", .text "%")])) := rfl
  have ran := configurationRun chosen accepted
  have opened (changed : Link) (unset : changed.host.settings.logFile = Option.none)
      (shut : changed.host.sink = .none) : openLog.exec changed = (.ok (), changed) := by
    rw [openLogEq, Act.runBind, runSession]
    simp only [followed, unset, shut, Sink.path?, beq_self_eq_true, if_true, Act.runPure]
  have listed : (switchedTo { lead := .percent } link).host.buffers.entries = (.text halfName, halfBuffer) :: rest :=
    entries
  rw [opened (switchedTo { lead := .percent } link) rfl sink] at ran
  simp only [listed, analyseAll, Act.runBind] at ran
  have scanned : Buffer.tokens .percent halfBuffer.content = .ok (Token.ofSource .percent "") := rfl
  rw [analyseScanned _ scanned, runPublish, if_neg (by decide)] at ran
  exact ⟨_, congrArg Prod.snd (stepFaulted ⟨rfl, rfl⟩ rfl ran)⟩

theorem strandedStale :
    WellTyped (openingMessage halfName "") ∧ WellTyped (openingMessage "file:///a.ast" markedText) ∧
    WellTyped percentMessage ∧ strandedLink.host.settings = { lead := .percent } ∧
    (∃ b, strandedLink.host.buffers.get? (.text "file:///a.ast") = some b ∧ b.content = .text markedText) ∧
    strandedLink.host.index.outline? (.text "file:///a.ast") = some (Outline.ofSource .dashes markedText) ∧
    Outline.ofSource .dashes markedText ≠ Outline.ofSource .percent markedText := by
  obtain ⟨line, half⟩ := halfOpened
  obtain ⟨b, content, opened⟩ := openingStep halfLink "file:///a.ast" markedText
  have entries : (step halfLink (openingMessage "file:///a.ast" markedText)).2.host.buffers.entries =
      (.text halfName, halfBuffer) :: [(.text "file:///a.ast", b)] := by
    rw [opened, half]
    rfl
  obtain ⟨last, stranded⟩ := strandedRun _ (by rw [opened, half]; rfl) (by rw [opened, half]; rfl) entries
  refine ⟨openingTyped _ _, openingTyped _ _, percentTyped, ?_, ⟨b, ?_, content⟩, ?_, outlinesDiffer⟩
  · rw [strandedLink, stranded]
    rfl
  · rw [strandedLink, stranded, recordBuffers, indexed, switchedTo, recordBuffers, opened, filed, stored,
      Table.getInsert, if_pos rfl]
  · have other : Key.text "file:///a.ast" ≠ Key.text halfName := by decide
    rw [strandedLink, stranded]
    refine (Index.outlineFile _ _ _ _ _).trans ((if_neg other).trans ?_)
    rw [switchedTo, opened]
    refine (Index.outlineFile _ _ _ _ _).trans ((if_pos rfl).trans ?_)
    rw [half]
    rfl

end LanguageService.Session
