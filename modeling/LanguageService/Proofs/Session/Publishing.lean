import LanguageService.Proofs.Session.Invariant

/-! What the client was last told about a document. After every message this is what there is to
tell: the findings of the text in the buffer under the settings of that moment, and nothing for a
document that is not open. -/
namespace LanguageService.Session

structure Reported (link : Link) : Prop where
  opened : ∀ (uri : String) b text, link.host.buffers.get? (.text uri) = some b → b.content = .text text →
    lastReport? uri link.sent = some (report (.text uri) (findings link.host.settings text))
  closed : ∀ (uri : String) message, link.host.buffers.get? (.text uri) = none →
    lastReport? uri link.sent = some message → message = report (.text uri) []
  rough : ∀ uri : Text, uri.isPlain = false → lastReport? uri link.sent = none

theorem untouchedReported {before after : Link} (same : Untouched before after)
    (reported : Reported before) : Reported after where
  opened uri b text found content := by
    rw [same.buffers] at found
    rw [same.reports, same.settings]
    exact reported.opened uri b text found content
  closed uri message gone last := by
    rw [same.buffers] at gone
    rw [same.reports] at last
    exact reported.closed uri message gone last
  rough uri rough := by
    rw [same.reports]
    exact reported.rough uri rough

/- Settings may change while no document is open. -/
theorem emptyReported {before after : Link} (empty : before.host.buffers.isEmpty = true)
    (same : SameDocuments before after) (reported : Reported before) : Reported after := by
  refine ⟨?_, ?_, ?_⟩
  · intro uri b text found
    rw [same.buffers, Table.getEmpty empty] at found
    cases found
  · intro uri message _ last
    rw [same.reports] at last
    exact reported.closed uri message (Table.getEmpty empty _) last
  · intro uri rough
    rw [same.reports]
    exact reported.rough uri rough

/- A report settles what there is to tell about its own document and nothing else. -/
theorem reportSettles {before after : Link} {uri : Text} {told : List Finding} (reported : Reported before)
    (settings : after.host.settings = before.host.settings) (retells : Retells uri told before.sent after.sent)
    (others : ∀ other, other ≠ uri →
      after.host.buffers.get? (.text other) = before.host.buffers.get? (.text other))
    (held : ∀ b text, after.host.buffers.get? (.text uri) = some b → b.content = .text text →
      told = findings after.host.settings text)
    (gone : after.host.buffers.get? (.text uri) = none → told = []) : Reported after where
  opened other b text found content := by
    rw [retells]
    by_cases same : Text.plain other = uri
    · subst same
      rw [if_pos ⟨rfl, rfl⟩, held b text found content]
    · rw [others other same] at found
      rw [if_neg fun both => same both.1, settings]
      exact reported.opened other b text found content
  closed other message absent last := by
    rw [retells] at last
    by_cases same : Text.plain other = uri
    · subst same
      rw [if_pos ⟨rfl, rfl⟩, gone absent] at last
      exact (Option.some.inj last).symm
    · rw [others other same] at absent
      rw [if_neg fun both => same both.1] at last
      exact reported.closed other message absent last
  rough other rough := by
    rw [retells, if_neg]
    · exact reported.rough other rough
    · rintro ⟨rfl, plain⟩
      cases rough.symm.trans plain

theorem analysedReported {before after : Link} (reported : Reported before) {uri text : Text} {b : Buffer}
    (content : b.content = .text text) (analysed : Analysed before uri b text after) : Reported after := by
  have own : after.host.buffers.get? (.text uri) = some b := by
    rw [analysed.buffers, Table.getInsert, if_pos rfl]
  refine reportSettles reported analysed.settings analysed.reports ?_ ?_ ?_
  · intro other differs
    rw [analysed.buffers]
    exact (Table.getInsert _ _ _ _).trans (if_neg fun same => differs (Key.text.inj same))
  · intro held source found given
    cases own.symm.trans found
    cases content.symm.trans given
    rw [analysed.settings]
  · intro gone
    cases own.symm.trans gone

theorem shutReported {before after : Link} (reported : Reported before) {uri : Text} (shut : Shut before uri after) :
    Reported after := by
  have gone : after.host.buffers.get? (.text uri) = none := by
    rw [shut.buffers, Table.getErase, if_pos rfl]
  refine reportSettles reported shut.settings shut.reports ?_ ?_ fun _ => rfl
  · intro other differs
    rw [shut.buffers]
    exact (Table.getErase _ _ _).trans (if_neg fun same => differs (Key.text.inj same))
  · intro b text found
    cases gone.symm.trans found

structure Retold (entries : List (Key × Buffer)) (before after : Link) : Prop where
  others : ∀ uri, .text uri ∉ entries.map Prod.fst → lastReport? uri after.sent = lastReport? uri before.sent
  reports : ∀ uri b text, (.text uri, b) ∈ entries → b.content = .text text →
    lastReport? uri after.sent = some (report (.text uri) (findings before.host.settings text))

theorem Retold.cons {entries : List (Key × Buffer)} {uri : String} {text : Text} {b : Buffer} {before after : Link}
    (fresh : .text uri ∉ entries.map Prod.fst) (name : b.uri = .text uri) (content : b.content = .text text)
    (rest : Retold entries (filed before (.text uri) b.uri text) after) :
    Retold ((.text uri, b) :: entries) before after where
  others other absent := by
    rw [List.map_cons, List.mem_cons, not_or] at absent
    rw [rest.others other absent.2, filed, name, lastReportSent]
    exact if_neg fun same => absent.1 (congrArg Key.text same)
  reports other held source entry given := by
    rcases List.mem_cons.mp entry with same | later
    · cases same
      cases Json.text.inj (content.symm.trans given)
      -- the other entries have other names, so that this report stays the last one on its document
      rw [rest.others uri fresh, filed, name, lastReportSent, if_pos rfl]
    · exact rest.reports other held source later given

theorem analyseAllRetold {entries : List (Key × Buffer)} (distinct : (entries.map Prod.fst).Nodup)
    (named : ∀ entry ∈ entries, ∃ (uri : String) (text : Text), entry.1 = .text uri ∧ entry.2.uri = .text uri ∧
      entry.2.content = .text text) (link : Link) :
    Retold entries link ((analyseAll entries).exec link).2 := by
  induction entries generalizing link with
  | nil => exact ⟨fun _ _ => rfl, fun _ _ _ entry => by cases entry⟩
  | cons entry rest ih =>
    obtain ⟨key, b⟩ := entry
    obtain ⟨uri, text, rfl, name, content⟩ := named _ List.mem_cons_self
    obtain ⟨fresh, distinct⟩ := List.nodup_cons.mp distinct
    have retold := ih distinct (fun entry member => named entry (List.mem_cons_of_mem _ member))
      (filed link (.text uri) b.uri text)
    simp only [analyseAll, Act.runBind, runAnalyse name content]
    exact retold.cons fresh name content

theorem retoldReported {before middle after : Link} (same : SameDocuments before middle)
    (reported : Reported before) (writable : ∀ uri : Text, uri.isPlain = false → .text uri ∉ middle.host.buffers.keys)
    (refiled : Refiled middle.host.buffers.entries middle after)
    (retold : Retold middle.host.buffers.entries middle after) : Reported after where
  opened uri b text found content := by
    rw [refiled.buffers] at found
    rw [refiled.settings]
    exact retold.reports uri b text (Table.getEntry found) content
  closed uri message gone last := by
    rw [refiled.buffers] at gone
    have absent : Key.text uri ∉ middle.host.buffers.keys := by
      intro listed
      obtain ⟨b, found⟩ := Table.memKeys.mp listed
      cases gone.symm.trans found
    rw [retold.others uri absent, same.reports] at last
    rw [same.buffers] at gone
    exact reported.closed uri message gone last
  rough uri rough := by
    rw [retold.others uri (writable uri rough), same.reports]
    exact reported.rough uri rough

/- Among names that can be written there is no rough one. -/
theorem writableKeys {s : Session} (consistent : Consistent s) (writable : Writable s) (uri : Text)
    (rough : uri.isPlain = false) : .text uri ∉ s.buffers.keys := by
  intro listed
  obtain ⟨b, found⟩ := Table.memKeys.mp listed
  have plain := writable _ b found
  rw [ownName consistent found, Json.isScalar, rough] at plain
  cases plain

theorem movedReported {before after : Link} (moved : Moved before after)
    (consistent : Consistent before.host) (reported : Reported before) : Reported after := by
  cases moved with
  | idle same => exact untouchedReported same reported
  | begun empty same => exact emptyReported empty same reported
  | analysed name content analysed => exact analysedReported reported content analysed
  | closed shut => exact shutReported reported shut
  | @switched middle _ same writable ran =>
    obtain ⟨_, analysed, refiled⟩ := analyseOpen same consistent writable
    have retold : Retold middle.host.buffers.entries middle
        ((analyseAll middle.host.buffers.entries).exec middle).2 := by
      rw [same.buffers]
      exact analyseAllRetold consistent.distinct (openEntries consistent writable) middle
    rw [ran] at retold
    cases analysed.symm.trans ran
    refine retoldReported same reported (fun uri rough => ?_) refiled retold
    rw [same.buffers]
    exact writableKeys consistent writable uri rough

theorem historyReported {link past} (history : History link past) : Reported link := by
  induction history with
  | start => exact ⟨fun _ _ _ found => (by cases found), fun _ _ _ last => (by cases last), fun _ _ => rfl⟩
  | more history admitted ih =>
    have consistent := historyConsistent history
    exact movedReported (stepMoved admitted consistent) consistent ih

theorem reportsMatchBuffers {link past} (history : History link past) :
    (∀ (uri : String) b, link.host.buffers.get? (.text uri) = some b →
      ∃ text, b.content = .text text ∧
        lastReport? uri link.sent = some (report (.text uri)
          (if link.host.settings.diagnostics then
            Finding.ofTokens (Token.ofSource link.host.settings.lead text.shown) else []))) ∧
    (∀ uri : String, link.host.buffers.get? (.text uri) = none →
      ∀ message, lastReport? uri link.sent = some message → message = report (.text uri) []) ∧
    ∀ uri : Text, uri.isPlain = false → lastReport? uri link.sent = none := by
  have reported := historyReported history
  refine ⟨fun uri b found => ?_, fun uri gone message last => reported.closed uri message gone last, reported.rough⟩
  obtain ⟨text, content, _⟩ := (historyConsistent history).outlined _ _ found
  exact ⟨text, content, reported.opened uri b text found content⟩

theorem openedReportCleared :
    History closedLink [openedLink, freshLink] ∧
    lastReport? "file:///a.ast" openedLink.sent =
      some (report (.text "file:///a.ast") [⟨⟨⟨0, 8⟩, ⟨0, 10⟩⟩, .invalidNumber⟩]) ∧
    lastReport? "file:///a.ast" closedLink.sent = some (report (.text "file:///a.ast") []) := by
  obtain ⟨b, content, opened⟩ := openingStep freshLink "file:///a.ast" "let x = 1."
  have settings : openedLink.host.settings = {} := by
    rw [openedLink, opened]
    rfl
  have held : openedLink.host.buffers.get? (.text "file:///a.ast") = some b := by
    rw [openedLink, opened, filed, stored, Table.getInsert, if_pos rfl]
  have gone : closedLink.host.buffers.get? (.text "file:///a.ast") = Option.none := by
    rw [closedLink, closingStep, Connection.push, dropped, Table.getErase, if_pos rfl]
  have first : History openedLink [freshLink] := .more (.start {} .none Option.none) (openingAdmitted _ rfl _ _)
  have history : History closedLink [openedLink, freshLink] :=
    .more first (closingAdmitted _ (by rw [settings]) _)
  refine ⟨history, ?_, ?_⟩
  · obtain ⟨text, same, told⟩ := (reportsMatchBuffers first).1 "file:///a.ast" b held
    cases content.symm.trans same
    have point : Finding.ofTokens (Token.ofSource .dashes "let x = 1.") =
        [⟨⟨⟨0, 8⟩, ⟨0, 10⟩⟩, .invalidNumber⟩] := by decide +kernel
    rw [told, settings]
    exact congrArg (fun found => some (report _ found)) point
  · obtain ⟨message, last⟩ : ∃ message, lastReport? "file:///a.ast" closedLink.sent = some message := by
      rw [closedLink, closingStep, Connection.push, lastReportSnoc]
      exact ⟨_, if_pos rfl⟩
    rw [last, (reportsMatchBuffers history).2.1 "file:///a.ast" gone message last]

/- A document is open, and nothing was ever reported on it. -/
theorem halfUnreported :
    WellTyped (openingMessage halfName "") ∧
    halfLink.host.buffers.get? (.text halfName) = some halfBuffer ∧ halfBuffer.content = .text "" ∧
    lastReport? halfName halfLink.sent = Option.none := by
  obtain ⟨line, half⟩ := halfOpened
  refine ⟨openingTyped _ _, ?_, rfl, ?_⟩
  · rw [half, recordBuffers, indexed, stored, Table.getInsert, if_pos rfl]
  · rw [half]
    rfl

end LanguageService.Session
