import LanguageService.Proofs.Disk.Handles
import LanguageService.Proofs.Session.Documents

/-! A batch of changes to a document. The changes reach the open buffer one after another, so a batch
that fails leaves the buffer with the changes before the one that failed, and with the outline that it
had before the batch. The rest of the session is spared. -/
namespace LanguageService.Session

inductive Applied : Json → List Json → Json → Prop where
  | nil {content} : Applied content [] content
  | cons {content change next rest last} (first : Edit.apply content change = .ok next)
      (tail : Applied next rest last) : Applied content (change :: rest) last

theorem batchCases (content : Json) (changes : List Json) :
    (∃ last, Applied content changes last) ∨
      ∃ done change rest left fault, changes = done ++ change :: rest ∧ Applied content done left ∧
        Edit.apply left change = .error fault := by
  induction changes generalizing content with
  | nil => exact Or.inl ⟨content, .nil⟩
  | cons change rest ih =>
    cases first : Edit.apply content change with
    | error fault => exact Or.inr ⟨[], change, rest, content, fault, rfl, .nil, first⟩
    | ok next =>
      rcases ih next with ⟨last, tail⟩ | ⟨done, bad, others, left, fault, same, tail, fails⟩
      · exact Or.inl ⟨last, .cons first tail⟩
      · exact Or.inr ⟨change :: done, bad, others, left, fault, by simp [same], .cons first tail, fails⟩

theorem storedHeld {link : Link} {key : Key} {b : Buffer} (held : link.host.buffers.get? key = some b) :
    stored link key b = link := by
  rw [stored, Table.insertHeld held]

theorem heldStored (link : Link) (key : Key) (b : Buffer) :
    (stored link key b).host.buffers.get? key = some b := by
  rw [stored, Table.getInsert, if_pos rfl]

theorem applyChangesAhead {content done left} (applied : Applied content done left) {b : Buffer}
    (given : b.content = content) {key : Key} {link : Link} (held : link.host.buffers.get? key = some b)
    (rest : List Json) :
    (applyChanges key b (done ++ rest)).exec link =
      (applyChanges key { b with content := left } rest).exec (stored link key { b with content := left }) := by
  induction applied generalizing b link with
  | nil =>
    subst given
    rw [List.nil_append, storedHeld held]
  | @cons content change next others left first tail ih =>
    subst given
    have later := ih (b := { b with content := next }) rfl (heldStored link key _)
    rw [storedStored] at later
    rw [List.cons_append, applyChanges, first]
    simp only [Act.runBind, Act.runLiftOk, runStore]
    exact later

/- What is read from the parameters of a batch, before any change is applied. -/
inductive Reading where
  | unknown (uri : Json)
  | batch (key : Key) (b : Buffer) (version : Json) (changes : List Json)

def reading (buffers : Table Key Buffer) (params : Json) : Except Fault Reading := do
  let document ← document params
  let uri ← document.memberD "uri" (.text "")
  let key ← uri.key
  match buffers.get? key with
  | none => .ok (.unknown uri)
  | some b =>
    let changes ← (← params.memberD "contentChanges" (.list [])).elements
    let version ← document.memberD "version" b.version
    .ok (.batch key b version changes)

def analysed (link : Link) (key : Key) (uri : Json) (tokens : List Token) : Link :=
  (indexed link key uri (Outline.ofTokens tokens)).push (report uri (verdict link.host.settings tokens))

def unknownLine (uri : Json) : Text := "Warning: didChange for unknown document: " ++ uri.plain

/- How a batch goes. Only where it is complete is the document analysed, and only where its name has bytes are
the findings published. -/
inductive Course (link : Link) (params : Json) : Except Interrupt Unit → Link → Prop where
  | unread {fault} (refused : reading link.host.buffers params = .error fault) :
      Course link params (.error (.fault fault)) link
  | unknown {uri} (read : reading link.host.buffers params = .ok (.unknown uri))
      (takes : Takes link.host (unknownLine uri)) :
      Course link params (.ok ()) (told (unknownLine uri) link)
  | unnoted {uri} (read : reading link.host.buffers params = .ok (.unknown uri))
      (refused : ¬ Takes link.host (unknownLine uri)) :
      Course link params (.error (.fault (.unencodable (.ofPoints (unknownLine uri).points)))) link
  | stopped {key b version done change rest left fault}
      (read : reading link.host.buffers params = .ok (.batch key b version (done ++ change :: rest)))
      (applied : Applied b.content done left) (fails : Edit.apply left change = .error fault) :
      Course link params (.error (.fault fault)) (stored link key { b with content := left })
  | unscanned {key b version changes last fault}
      (read : reading link.host.buffers params = .ok (.batch key b version changes))
      (applied : Applied b.content changes last)
      (fails : Buffer.tokens link.host.settings.lead last = .error fault) :
      Course link params (.error (.fault fault)) (stored link key { b with content := last, version })
  | unpublished {key b version changes last tokens}
      (read : reading link.host.buffers params = .ok (.batch key b version changes))
      (applied : Applied b.content changes last)
      (scanned : Buffer.tokens link.host.settings.lead last = .ok tokens) (rough : b.uri.isScalar = false) :
      Course link params (.error (.fault (reportFault b.uri (verdict link.host.settings tokens))))
        (indexed (stored link key { b with content := last, version }) key b.uri (Outline.ofTokens tokens))
  | complete {key b version changes last tokens}
      (read : reading link.host.buffers params = .ok (.batch key b version changes))
      (applied : Applied b.content changes last)
      (scanned : Buffer.tokens link.host.settings.lead last = .ok tokens) (scalar : b.uri.isScalar = true) :
      Course link params (.ok ())
        (analysed (stored link key { b with content := last, version }) key b.uri tokens)

def finish (key : Key) (b : Buffer) (version : Json) (changes : List Json) : Act Unit := do
  let b ← applyChanges key b changes
  let b := { b with version }
  store key b
  analyse key b

theorem bindOk {α β : Type} (a : α) (f : α → Except Fault β) : (Except.ok a >>= f) = f a := rfl

theorem memberObject (members : List (Text × Json)) (name : Text) (absent : Json) :
    (Json.object members).memberD name absent = .ok ((members.lookup name).getD absent) := rfl

theorem applyChangesVersion {key : Key} {b last : Buffer} {changes : List Json} {link after : Link}
    (ran : (applyChanges key b changes).exec link = (.ok last, after)) : last.version = b.version := by
  induction changes generalizing b link with
  | nil =>
    cases ran
    rfl
  | cons change rest ih =>
    simp only [applyChanges, Act.runBind] at ran
    cases applied : Edit.apply b.content change with
    | error fault =>
      rw [applied] at ran
      cases ran
    | ok next =>
      rw [applied] at ran
      exact ih (b := { b with content := next }) ran

theorem didChangeReading (link : Link) (params : Json) :
    (didChange params).exec link = match reading link.host.buffers params with
      | .error fault => (.error (.fault fault), link)
      | .ok (.unknown uri) =>
        (Act.tell (unknownLine uri)).exec link
      | .ok (.batch key b version changes) => (finish key b version changes).exec link := by
  simp only [didChange, reading, Act.runBind]
  cases document params with
  | error fault => rfl
  | ok document =>
    simp only [Act.runLiftOk, bindOk]
    cases document with
    | object members =>
      simp only [memberObject, Act.runLiftOk, bindOk]
      cases ((members.lookup (.plain "uri")).getD (.text "")).key with
      | error fault => rfl
      | ok key =>
        simp only [Act.runLiftOk, bindOk, runSession]
        cases link.host.buffers.get? key with
        | none => rfl
        | some b =>
          simp only [Act.runBind]
          cases params.memberD "contentChanges" (.list []) with
          | error fault => rfl
          | ok value =>
            simp only [Act.runLiftOk, bindOk]
            cases value.elements with
            | error fault => rfl
            | ok changes =>
              simp only [Act.runLiftOk, bindOk, finish, Act.runBind]
              obtain ⟨result, after, ran⟩ : ∃ result after, (applyChanges key b changes).exec link =
                (result, after) := ⟨_, _, rfl⟩
              rw [ran]
              cases result with
              | error interrupt => rfl
              | ok last => simp only [applyChangesVersion ran]
    | _ => rfl

theorem readingHeld {buffers : Table Key Buffer} {params : Json} {key : Key} {b : Buffer} {version : Json}
    {changes : List Json} (read : reading buffers params = .ok (.batch key b version changes)) :
    buffers.get? key = some b ∧ ∃ uri, documentUri params = .ok uri ∧ uri.key = .ok key := by
  obtain ⟨document, found, read⟩ := bindGives.mp read
  obtain ⟨uri, named, read⟩ := bindGives.mp read
  obtain ⟨own, key, read⟩ := bindGives.mp read
  cases held : buffers.get? own with
  | none =>
    rw [held] at read
    cases read
  | some other =>
    rw [held] at read
    obtain ⟨_, _, read⟩ := bindGives.mp read
    obtain ⟨_, _, read⟩ := bindGives.mp read
    obtain ⟨_, _, read⟩ := bindGives.mp read
    cases read
    refine ⟨held, uri, ?_, key⟩
    rw [documentUri, found]
    exact named

theorem completeExec {link params key b version changes last}
    (read : reading link.host.buffers params = .ok (.batch key b version changes))
    (applied : Applied b.content changes last) :
    (didChange params).exec link = (analyse key { b with content := last, version }).exec
      (stored link key { b with content := last, version }) := by
  have ahead := applyChangesAhead applied rfl (readingHeld read).1 []
  rw [List.append_nil] at ahead
  simp only [didChangeReading, read, finish, Act.runBind, ahead, applyChanges, Act.runPure, runStore, storedStored]

theorem courseExec {link params result after} (course : Course link params result after) :
    (didChange params).exec link = (result, after) := by
  cases course with
  | unread refused => rw [didChangeReading, refused]
  | unknown read takes =>
    rw [didChangeReading, read]
    exact runTellTaken takes
  | unnoted read refused =>
    rw [didChangeReading, read]
    exact runTellRefused refused
  | stopped read applied fails =>
    have held := (readingHeld read).1
    simp only [didChangeReading, read, finish, Act.runBind, applyChangesAhead applied rfl held, applyChanges,
      fails, Act.runLiftError]
  | unscanned read applied fails =>
    rw [completeExec read applied]
    exact analyseFails _ fails
  | unpublished read applied scanned rough =>
    rw [completeExec read applied, analyseScanned _ (by exact scanned), runPublish, rough]
    rfl
  | complete read applied scanned scalar =>
    rw [completeExec read applied, analyseScanned _ (by exact scanned), runPublish, scalar]
    rfl

theorem courseExists (link : Link) (params : Json) : ∃ result after, Course link params result after := by
  cases read : reading link.host.buffers params with
  | error fault => exact ⟨_, _, .unread read⟩
  | ok found =>
    cases found with
    | unknown uri =>
      by_cases takes : Takes link.host (unknownLine uri)
      · exact ⟨_, _, .unknown read takes⟩
      · exact ⟨_, _, .unnoted read takes⟩
    | batch key b version changes =>
      rcases batchCases b.content changes with ⟨last, applied⟩ | ⟨done, change, rest, left, fault, same, applied, fails⟩
      · cases scanned : Buffer.tokens link.host.settings.lead last with
        | error fault => exact ⟨_, _, .unscanned read applied scanned⟩
        | ok tokens =>
          cases scalar : b.uri.isScalar with
          | false => exact ⟨_, _, .unpublished read applied scanned scalar⟩
          | true => exact ⟨_, _, .complete read applied scanned scalar⟩
      · exact ⟨_, _, .stopped (same ▸ read) applied fails⟩

theorem didChangeIff {link params result after} :
    (didChange params).exec link = (result, after) ↔ Course link params result after := by
  refine ⟨fun ran => ?_, courseExec⟩
  obtain ⟨_, _, course⟩ := courseExists link params
  cases (courseExec course).symm.trans ran
  exact course

/- All but the document that a batch names, and the index too where the name of that document has bytes. -/
structure Spared (link : Link) (params : Json) (after : Link) : Prop where
  rest : after = { link with host := { link.host with buffers := after.host.buffers, index := after.host.index } }
  keys : after.host.buffers.keys = link.host.buffers.keys
  others : ∀ key, (∀ uri, documentUri params = .ok uri → uri.key ≠ .ok key) →
    after.host.buffers.get? key = link.host.buffers.get? key ∧ after.host.index.get? key = link.host.index.get? key
  index : (∀ uri key b, documentUri params = .ok uri → uri.key = .ok key →
    link.host.buffers.get? key = some b → b.uri.isScalar = true) → after.host.index = link.host.index

section Spared
variable {link : Link} {params : Json} {key : Key} {b : Buffer} {version : Json} {changes : List Json}
  (read : reading link.host.buffers params = .ok (.batch key b version changes)) (next : Buffer)
include read

theorem storedSpared : Spared link params (stored link key next) := by
  obtain ⟨held, uri, named, own⟩ := readingHeld read
  refine ⟨rfl, ?_, fun other foreign => ⟨?_, rfl⟩, fun _ => rfl⟩
  · rw [stored, Table.keysInsert, if_pos (Table.memKeys.mpr ⟨b, held⟩)]
  · rw [stored, Table.getInsert, if_neg]
    rintro rfl
    exact foreign uri named own

theorem indexedSpared (rough : b.uri.isScalar = false) (uri : Json) (outline : Outline) :
    Spared link params (indexed (stored link key next) key uri outline) := by
  obtain ⟨held, name, named, own⟩ := readingHeld read
  have spared := storedSpared read next
  refine ⟨rfl, spared.keys, fun other foreign => ⟨(spared.others other foreign).1, ?_⟩, fun scalar => ?_⟩
  · rw [indexed, stored, Index.file, Table.getInsert, if_neg]
    rintro rfl
    exact foreign name named own
  · cases rough.symm.trans (scalar name key b named own held)

end Spared

theorem failedCourse {link params interrupt after} (course : Course link params (.error interrupt) after) :
    (∃ fault, interrupt = .fault fault) ∧ Spared link params after := by
  have same : Spared link params link := ⟨rfl, rfl, fun _ _ => ⟨rfl, rfl⟩, fun _ => rfl⟩
  cases course with
  | unread refused => exact ⟨⟨_, rfl⟩, same⟩
  | unnoted read refused => exact ⟨⟨_, rfl⟩, same⟩
  | stopped read applied fails => exact ⟨⟨_, rfl⟩, storedSpared read _⟩
  | unscanned read applied fails => exact ⟨⟨_, rfl⟩, storedSpared read _⟩
  | unpublished read applied scanned rough => exact ⟨⟨_, rfl⟩, indexedSpared read _ rough _ _⟩

theorem failedBatchKeeps {link : Link} {message : Message} {interrupt : Interrupt} {after : Link}
    (notified : Notifies message "textDocument/didChange")
    (failed : (didChange (Host.parameters message)).exec link = (.error interrupt, after)) :
    ∃ fault, Course link (Host.parameters message) (.error (.fault fault)) after ∧
      Spared link (Host.parameters message) after ∧
      step link message =
        (.ok Option.none, record ("Error handling textDocument/didChange: " ++ fault.message) after) := by
  have course := didChangeIff.mp failed
  obtain ⟨⟨fault, rfl⟩, spared⟩ := failedCourse course
  exact ⟨fault, course, spared, stepFaulted notified rfl failed⟩

/- A document with one declaration, and two batches for it: the second change of one is no change, and
the text of the other is no text. -/
def draftLink : Link := (step { host := {} } (openingMessage "file:///a.ast" "let x = 1")).2

def draftKey : Key := .text "file:///a.ast"

def draft (version : Int) (content : Json) : Buffer :=
  ⟨.text "file:///a.ast", .text "asteroid", .int version, content⟩

theorem draftOpened : draftLink = filed (stored (record "Document opened: file:///a.ast" { host := {} }) draftKey
    (draft 0 (.text "let x = 1"))) draftKey (.text "file:///a.ast") "let x = 1" := by
  have names : Names (openingMessage "file:///a.ast" "let x = 1") "file:///a.ast" _ _ := ⟨rfl, rfl, rfl⟩
  have own : (draft 0 (.text "let x = 1")).uri = .text "file:///a.ast" := rfl
  have ran := (didOpenNamed names rfl (.inl rfl)).trans
    (runAnalyse own rfl draftKey (stored (told _ { host := {} }) draftKey _))
  exact congrArg Prod.snd (stepNotified ⟨rfl, rfl⟩ rfl ran)

def draftBatch (changes : List Json) : Message :=
  [("method", .text "textDocument/didChange"),
    ("params", .object [("textDocument", .object [("uri", .text "file:///a.ast"), ("version", .int 2)]),
      ("contentChanges", .list changes)])]

def halfBatch : Message := draftBatch [(Change.whole "let y = 2").toJson, .int 5]

def emptyBatch : Message := draftBatch [.object [("text", .null)]]

theorem halfBatchCourse :
    Course draftLink (Host.parameters halfBatch) (.error (.fault (.noMember .int "get")))
      (stored draftLink draftKey (draft 0 (.text "let y = 2"))) := by
  have read : reading draftLink.host.buffers (Host.parameters halfBatch) =
      .ok (.batch draftKey (draft 0 (.text "let x = 1")) (.int 2)
        ([(Change.whole "let y = 2").toJson] ++ .int 5 :: [])) := by
    rw [draftOpened]
    rfl
  exact .stopped read (.cons rfl .nil) rfl

theorem emptyBatchCourse :
    Course draftLink (Host.parameters emptyBatch) (.error (.fault (.noLength .null)))
      (stored draftLink draftKey (draft 2 .null)) := by
  have read : reading draftLink.host.buffers (Host.parameters emptyBatch) =
      .ok (.batch draftKey (draft 0 (.text "let x = 1")) (.int 2) [.object [("text", .null)]]) := by
    rw [draftOpened]
    rfl
  exact .unscanned read (.cons rfl .nil) rfl

theorem halfBatchKeeps :
    Notifies halfBatch "textDocument/didChange" ∧
    (didChange (Host.parameters halfBatch)).exec draftLink =
      (.error (.fault (.noMember .int "get")), stored draftLink draftKey (draft 0 (.text "let y = 2"))) ∧
    ∃ fault, Course draftLink (Host.parameters halfBatch) (.error (.fault fault))
        (stored draftLink draftKey (draft 0 (.text "let y = 2"))) ∧
      Spared draftLink (Host.parameters halfBatch) (stored draftLink draftKey (draft 0 (.text "let y = 2"))) ∧
      step draftLink halfBatch = (.ok Option.none,
        record ("Error handling textDocument/didChange: " ++ fault.message)
          (stored draftLink draftKey (draft 0 (.text "let y = 2")))) := by
  have notified : Notifies halfBatch "textDocument/didChange" := ⟨rfl, rfl⟩
  have failed := courseExec halfBatchCourse
  exact ⟨notified, failed, failedBatchKeeps notified failed⟩

/- Both batches fail, and neither is without effect: the buffer and its outline are of two texts. -/
theorem failedBatchesStay :
    draftLink.host.buffers.get? draftKey = some (draft 0 (.text "let x = 1")) ∧
    ((didChange (Host.parameters halfBatch)).exec draftLink).1 = .error (.fault (.noMember .int "get")) ∧
    (step draftLink halfBatch).2.host.buffers.get? draftKey = some (draft 0 (.text "let y = 2")) ∧
    (step draftLink halfBatch).2.host.index.outline? draftKey =
      some (Outline.ofSource .dashes "let x = 1") ∧
    ((didChange (Host.parameters emptyBatch)).exec draftLink).1 = .error (.fault (.noLength .null)) ∧
    (step draftLink emptyBatch).2.host.buffers.get? draftKey = some (draft 2 .null) := by
  have half := courseExec halfBatchCourse
  have empty := courseExec emptyBatchCourse
  rw [stepFaulted ⟨rfl, rfl⟩ rfl half, stepFaulted ⟨rfl, rfl⟩ rfl empty, half, empty]
  refine ⟨?_, rfl, ?_, ?_, rfl, ?_⟩
  · rw [draftOpened]
    rfl
  · rw [recordBuffers, heldStored]
  · rw [draftOpened]
    rfl
  · rw [recordBuffers, heldStored]

end LanguageService.Session
