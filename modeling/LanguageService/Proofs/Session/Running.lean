import LanguageService.Proofs.Session.Ledger
import LanguageService.Proofs.Session.Replies
import LanguageService.Proofs.Wire.Stream

/-! A session over a stream, and the same messages handled one by one. What was sent and logged before
has no part in what a message does, so that the responses, which only the stream takes, make no
difference to the messages behind them. -/
namespace LanguageService.Session

/- A session with another past. -/
def veiled (sent : List Json) (log : List Text) (link : Link) : Link :=
  { link with sent, host := { link.host with log } }

/- What an action comes to: whatever was sent and logged before, the same is sent and logged behind it, and what
is sent has bytes. -/
structure Unseen {α : Type} (x : Act α) (link : Link) (result : Except Interrupt α) (after : Link) (news : List Json)
    (lines : List Text) : Prop where
  scalar : ∀ message ∈ news, message.isScalar = true
  ran : ∀ sent log, x.exec (veiled sent log link) = (result, veiled (sent ++ news) (log ++ lines) after)

def Blind {α : Type} (x : Act α) : Prop := ∀ link, ∃ result after news lines, Unseen x link result after news lines

theorem Unseen.still {α : Type} {x : Act α} {link : Link} {result : Except Interrupt α} {after : Link}
    (ran : ∀ sent log, x.exec (veiled sent log link) = (result, veiled sent log after)) :
    Unseen x link result after [] [] where
  scalar _ listed := by cases listed
  ran sent log := by rw [List.append_nil, List.append_nil, ran]

/- The first part of an action, and what it comes to where the second part is known. -/
theorem Unseen.andThen {α β : Type} {x : Act α} {y : Act β} {link middle after : Link} {first : Except Interrupt α}
    {last : Except Interrupt β} {news more : List Json} {lines later : List Text} {f : Act β}
    (head : Unseen x link first middle news lines) (tail : Unseen y middle last after more later)
    (whole : ∀ sent log, f.exec (veiled sent log link) = y.exec (veiled (sent ++ news) (log ++ lines) middle)) :
    Unseen f link last after (news ++ more) (lines ++ later) where
  scalar := List.forall_mem_append.mpr ⟨head.scalar, tail.scalar⟩
  ran sent log := by
    rw [whole, ← List.append_assoc, ← List.append_assoc]
    exact tail.ran _ _

namespace Blind
variable {α β : Type}

theorem pure (a : α) : Blind (Pure.pure a : Act α) := fun _ => ⟨_, _, _, _, .still fun _ _ => rfl⟩

theorem throw (e : Interrupt) : Blind (MonadExcept.throw e : Act α) := fun _ => ⟨_, _, _, _, .still fun _ _ => rfl⟩

theorem bind {x : Act α} {f : α → Act β} (first : Blind x) (rest : ∀ a, Blind (f a)) : Blind (x >>= f) := by
  intro link
  obtain ⟨result, middle, news, lines, head⟩ := first link
  cases result with
  | error e => exact ⟨.error e, middle, news, lines, head.scalar, fun sent log => by rw [Act.runBind, head.ran]⟩
  | ok a =>
    obtain ⟨result, after, more, later, tail⟩ := rest a middle
    exact ⟨_, _, _, _, head.andThen tail fun sent log => by rw [Act.runBind, head.ran]⟩

theorem tryCatch {x : Act α} {f : Interrupt → Act α} (first : Blind x) (rest : ∀ e, Blind (f e)) :
    Blind (MonadExcept.tryCatch x f) := by
  intro link
  obtain ⟨result, middle, news, lines, head⟩ := first link
  cases result with
  | ok a => exact ⟨.ok a, middle, news, lines, head.scalar, fun sent log => by rw [Act.runTryCatch, head.ran]⟩
  | error e =>
    obtain ⟨result, after, more, later, tail⟩ := rest e middle
    exact ⟨_, _, _, _, head.andThen tail fun sent log => by rw [Act.runTryCatch, head.ran]⟩

theorem update {f : Session → Session} (deaf : Deaf f) : Blind (Act.update f) := by
  refine fun link => ⟨.ok (), { link with host := f link.host }, [], [], .still fun sent log => ?_⟩
  rw [runUpdate, veiled, deaf]
  rfl

theorem send (message : Json) : Blind (Act.send message) := by
  intro link
  cases scalar : message.isScalar with
  | true =>
    refine ⟨.ok (), link, [message], [], List.forall_mem_singleton.mpr scalar, fun sent log => ?_⟩
    rw [Act.runSend, if_pos scalar, List.append_nil]
    rfl
  | false =>
    refine ⟨.error (.fault (.unencodable (.ofPoints message.renderPoints))), link, [], [], .still fun sent log => ?_⟩
    rw [Act.runSend, scalar]
    rfl

theorem tell (line : Text) : Blind (Act.tell line) := by
  intro link
  cases line with
  | plain line => exact ⟨.ok (), record line link, [], [line], by simp, fun sent log => by rw [List.append_nil]; rfl⟩
  | rough points halved =>
    cases file : link.host.sink.file? with
    | none =>
      refine ⟨.ok (), link, [], [.rough points halved], by simp, fun sent log => ?_⟩
      have unfiled : (veiled sent log link).host.sink.file? = Option.none := file
      rw [runTellTaken (.inr unfiled), List.append_nil]
      simp only [told, Session.tell, unfiled]
      rfl
    | some handle =>
      refine ⟨_, link, [], [], .still fun sent log => runTellRefused ?_⟩
      rintro (plain | unfiled)
      · cases plain
      · cases file.symm.trans unfiled

end Blind

theorem blindAsking : Asking Blind where
  pure := Blind.pure
  fault fault := Blind.throw _
  bind := Blind.bind
  session same rest := fun link => by
    obtain ⟨result, after, news, lines, unseen⟩ := rest link.host link
    refine ⟨result, after, news, lines, unseen.scalar, fun sent log => ?_⟩
    rw [Act.runBind, runSession, ← unseen.ran sent log]
    exact congrArg (fun x => Act.exec x _) (same link.host log)
  tell := Blind.tell

theorem blindRules : Rules Blind where
  toAsking := blindAsking
  update _ deaf _ := Blind.update deaf
  openLogHolds := blindAsking.reopens fun _ deaf => Blind.update deaf

theorem settleBlind (message : Message) : Blind (host.settle message) := by
  intro link
  have awaits (sent : List Json) (log : List Text) : (veiled sent log link).pending = link.pending := rfl
  cases awaiting : link.pending.isEmpty with
  | true =>
    refine ⟨.ok (), link, [], [], .still fun sent log => ?_⟩
    simp only [Host.settle, Act.runBind, Act.runGet, awaits, awaiting, if_true, Act.runPure]
  | false =>
    cases plain : (idOf message).key? with
    | none =>
      refine ⟨.error (.fault (.notKey (idOf message).kind)), link, [], [], .still fun sent log => ?_⟩
      simp only [Host.settle, Act.runBind, Act.runGet, awaits, awaiting, Bool.false_eq_true, if_false, Json.key,
        plain, Act.runLiftError]
    | some key =>
      cases awaited : link.pending.get? key with
      | none =>
        refine ⟨.ok (), link, [], [], .still fun sent log => ?_⟩
        simp only [Host.settle, Act.runBind, Act.runGet, awaits, awaiting, Bool.false_eq_true, if_false,
          Json.key, plain, Act.runLiftOk, awaited, Act.runPure]
      | some callback =>
        obtain ⟨result, after, news, lines, unseen⟩ :=
          blindRules.registeredHolds (errorOf message) { link with pending := link.pending.erase key }
        refine ⟨result, after, news, lines, unseen.scalar, fun sent log => ?_⟩
        have held : (veiled sent log link).pending.get? key = some callback := awaited
        rw [settleAwaited plain held]
        exact unseen.ran sent log

theorem registerBlind :
    Blind (Act.call (.text "client/registerCapability") (some registration) (some .registration)) := by
  refine fun link => ⟨.ok (), link.reserve (some .registration),
    [Connection.request link.nextId (.text "client/registerCapability") (some registration)], [],
    List.forall_mem_singleton.mpr rfl, fun sent log => ?_⟩
  rw [runRegister, List.append_nil]
  rfl

theorem stepBlind (message : Message) : Blind (host.handle message) := by
  refine Host.handleHolds (h := host) ⟨Blind.pure, Blind.throw, Blind.bind, Blind.tryCatch⟩ blindRules.hostNote
    (settleBlind message) ?_ ?_
  · intro name run named asked found
    exact blindRules.requestHolds found (fun _ _ => Blind.update fun _ _ => rfl)
      (fun _ => Blind.update fun _ _ => rfl) _
  · intro name run named silent found
    exact blindRules.notificationHolds (fun edits => Blind.update edits.deaf) Blind.send registerBlind
      (fun _ _ => Blind.throw _) found _

/- What handling some messages one by one comes to: the interrupt that stopped it if there was one, what
was sent and answered on the way, and the session at the end. -/
structure Handling where
  stopped : Option Interrupt
  said : List Json
  last : Link

/- What was sent between two moments of a session. -/
def news (before after : Link) : List Json := after.sent.drop before.sent.length

def handled (link : Link) : List Message → Handling
  | [] => ⟨Option.none, [], link⟩
  | message :: rest =>
    match step link message with
    | (.error interrupt, after) => ⟨some interrupt, news link after, after⟩
    | (.ok response, after) =>
      let later := handled after rest
      { later with said := news link after ++ response.toList ++ later.said }

def Handling.ending (talk : Handling) : Ending :=
  match talk.stopped with
  | Option.none => .streamEnd
  | some interrupt => Interrupt.ending interrupt

theorem stepNews (link : Link) (message : Message) :
    ∃ fresh lines, Unseen (host.handle message) link (step link message).1 (step link message).2 fresh lines ∧
      news link (step link message).2 = fresh := by
  obtain ⟨result, after, fresh, lines, unseen⟩ := stepBlind message link
  have own : step link message = (result, veiled (link.sent ++ fresh) (link.host.log ++ lines) after) :=
    unseen.ran link.sent link.host.log
  rw [own]
  exact ⟨fresh, lines, ⟨unseen.scalar, unseen.ran⟩, List.drop_left⟩

theorem handledScalar {messages : List Message} (faithful : ∀ message ∈ messages, Json.Exact (.object message))
    (link : Link) : ∀ said ∈ (handled link messages).said, said.isScalar = true := by
  induction messages generalizing link with
  | nil => exact fun _ listed => by cases listed
  | cons message rest ih =>
    obtain ⟨first, later⟩ := List.forall_mem_cons.mp faithful
    obtain ⟨fresh, lines, unseen, told⟩ := stepNews link message
    obtain ⟨result, after, ran⟩ : ∃ result after, step link message = (result, after) := ⟨_, _, rfl⟩
    rw [ran] at told
    cases result with
    | error interrupt =>
      simp only [handled, ran, told]
      exact unseen.scalar
    | ok response =>
      simp only [handled, ran, told]
      refine List.forall_mem_append.mpr ⟨List.forall_mem_append.mpr ⟨unseen.scalar, ?_⟩, ih later after⟩
      intro answer listed
      rw [Option.mem_toList] at listed
      cases listed
      exact stepWrites (Json.exactScalar first) ran

theorem loopRead (room : Frame.Room) (link : Link) (input : List UInt8) :
    loop room link input = match react link (Frame.read room input).1 with
      | (some ending, link) => (ending, link)
      | (Option.none, link) => loop room link (Frame.read room input).2 := by
  cases input with
  | nil => simp [loop, Frame.read, Frame.headers, react]
  | cons b bytes =>
    refine (loop.eq_2 room link b bytes).trans ?_
    rcases react link (Frame.read room (b :: bytes)).1 with ⟨_ | ending, after⟩ <;> rfl

theorem respondScalar {response : Json} (scalar : response.isScalar = true) (link : Link) :
    respond link response = (Option.none, link.push response) := by
  rw [respondSends, if_pos scalar]

theorem loopWritten {message : Message} (faithful : Json.Exact (.object message)) {frame : List UInt8}
    (written : Frame.write (.object message) = .ok frame) (room : Frame.Room) (link : Link) (rest : List UInt8) :
    loop room link (frame ++ rest) = match step link message with
      | (.ok response, after) => loop room { after with sent := after.sent ++ response.toList } rest
      | (.error interrupt, after) => (Interrupt.ending interrupt, after) := by
  rw [loopRead, Frame.readWritten faithful written, react]
  obtain ⟨result, after, ran⟩ : ∃ result after, step link message = (result, after) := ⟨_, _, rfl⟩
  rw [ran]
  rcases result with interrupt | _ | response
  · rfl
  · simp
  · simp only [respondScalar (stepWrites (Json.exactScalar faithful) ran)]
    rfl

/- The loop runs in step with the messages handled one by one; only what was sent and logged differs. -/
theorem loopHandled {messages : List Message} {bytes : List UInt8} (streams : Frame.Streams messages bytes)
    (faithful : ∀ message ∈ messages, Json.Exact (.object message)) (room : Frame.Room)
    (link : Link) (sent : List Json) (log : List Text) :
    ∃ lines, loop room (veiled sent log link) bytes =
      ((handled link messages).ending,
        veiled (sent ++ (handled link messages).said) lines (handled link messages).last) := by
  induction streams generalizing link sent log with
  | none =>
    refine ⟨log, ?_⟩
    simp [loop, handled, Handling.ending]
  | @next message rest frame tail written _ ih =>
    obtain ⟨first, later⟩ := List.forall_mem_cons.mp faithful
    obtain ⟨fresh, lines, unseen, told⟩ := stepNews link message
    have stepped : step (veiled sent log link) message =
        ((step link message).1, veiled (sent ++ fresh) (log ++ lines) (step link message).2) := unseen.ran sent log
    rw [loopWritten first written, stepped]
    obtain ⟨result, after, ran⟩ : ∃ result after, step link message = (result, after) := ⟨_, _, rfl⟩
    rw [ran] at told ⊢
    cases result with
    | error interrupt =>
      refine ⟨log ++ lines, ?_⟩
      simp only [handled, ran, told]
      rfl
    | ok response =>
      obtain ⟨last, followed⟩ := ih later after (sent ++ fresh ++ response.toList) (log ++ lines)
      refine ⟨last, ?_⟩
      simp only [handled, ran, told]
      rw [← List.append_assoc, ← List.append_assoc]
      exact followed

theorem handledAhead {link : Link} {done : List Message} (runs : (handled link done).stopped = Option.none)
    (rest : List Message) :
    (handled link (done ++ rest)).stopped = (handled (handled link done).last rest).stopped := by
  induction done generalizing link with
  | nil => rfl
  | cons message others ih =>
    rw [List.cons_append]
    obtain ⟨result, after, ran⟩ : ∃ result after, step link message = (result, after) := ⟨_, _, rfl⟩
    cases result with
    | error interrupt =>
      simp only [handled, ran] at runs
      cases runs
    | ok response =>
      simp only [handled, ran] at runs ⊢
      exact ih runs

def SameFlag (before after : Link) : Prop := after.host.shutdownRequested = before.host.shutdownRequested

theorem flagOrder : LanguageService.Act.Order SameFlag where
  refl _ := rfl
  trans first second := second.trans first

theorem flagRules : Rules (LanguageService.Act.Within SameFlag) :=
  withinRules flagOrder fun leaves link => (leaves link.host).2.2.2

theorem flagKept {message : Message} (other : ¬ Requests message "shutdown") (link : Link) :
    SameFlag link (step link message).2 := by
  refine Host.handleWithin (h := host) flagOrder flagRules.hostNote (fun _ _ => rfl)
    (fun _ _ error => flagRules.registeredHolds error) ?_ ?_ link
  · intro name run named asked found
    refine flagRules.requestHolds found (fun _ _ _ => rfl) (fun last => ?_) _
    subst last
    exact absurd ⟨named, asked⟩ other
  · intro name run named silent found
    refine flagRules.notificationHolds (fun edits link => edits.flag link.host) ?_ ?_
      (fun _ _ => flagOrder.throw _) found _
    · intro message link
      rw [SameFlag, Act.sendHost]
    · intro link
      rw [runRegister]
      rfl

theorem flagSet {message : Message} (requested : Requests message "shutdown") (link : Link) :
    (step link message).2.host.shutdownRequested = true := by
  have found : request? "shutdown" = some shutDown := rfl
  rw [stepExec, Host.handleRequested requested.1 requested.2 found]
  rfl

theorem stepFlag (link : Link) (message : Message) :
    (step link message).2.host.shutdownRequested = true ↔
      link.host.shutdownRequested = true ∨ Requests message "shutdown" := by
  by_cases requested : Requests message "shutdown"
  · simp [flagSet requested, requested]
  · rw [flagKept requested link]
    simp [requested]

def AskedToStop (link : Link) (done : List Message) : Prop :=
  link.host.shutdownRequested = true ∨ ∃ message ∈ done, Requests message "shutdown"

theorem handledFlag {link : Link} {done : List Message} (runs : (handled link done).stopped = Option.none) :
    (handled link done).last.host.shutdownRequested = true ↔ AskedToStop link done := by
  induction done generalizing link with
  | nil => simp [handled, AskedToStop]
  | cons message rest ih =>
    have flag := stepFlag link message
    obtain ⟨result, after, ran⟩ : ∃ result after, step link message = (result, after) := ⟨_, _, rfl⟩
    rw [ran] at flag
    cases result with
    | error interrupt =>
      simp only [handled, ran] at runs
      cases runs
    | ok response =>
      simp only [handled, ran] at runs ⊢
      rw [ih runs, AskedToStop, AskedToStop, flag, List.exists_mem_cons_iff, or_assoc]

theorem handledExit {link : Link} {done rest : List Message} {message : Message}
    (runs : (handled link done).stopped = Option.none) (leaves : Notifies message "exit") :
    (handled link (done ++ message :: rest)).stopped =
      some (.exit (.int (if (handled link done).last.host.shutdownRequested then 0 else 1))) := by
  rw [handledAhead runs]
  have ended := exitStep leaves (handled link done).last
  obtain ⟨result, after, ran⟩ : ∃ result after, step (handled link done).last message = (result, after) :=
    ⟨_, _, rfl⟩
  rw [ran] at ended
  simp only at ended
  subst ended
  simp only [handled, ran]

/- Where the messages of a run start: behind the line that it notes first. While no file takes the log
it makes no difference whether that line is there. -/
def Begins (link start : Link) : Prop :=
  start = record "Asteroid Language Server starting" link ∨ link.host.sink.file? = Option.none ∧ start = link

theorem beginsVeiled {link start : Link} (begins : Begins link start) :
    ∃ log, record "Asteroid Language Server starting" link = veiled link.sent log start ∧
      start.host.shutdownRequested = link.host.shutdownRequested := by
  rcases begins with rfl | ⟨unfiled, rfl⟩
  · exact ⟨_, rfl, rfl⟩
  · refine ⟨start.host.log ++ [.plain "Asteroid Language Server starting"], ?_, rfl⟩
    rw [record, note, unfiled]
    rfl

/- A run that agrees with messages handled one by one. What is said in it has bytes, and the files that it opened
are closed, each of them once. -/
structure Served (link : Link) (talk : Handling) (ran : Ending × Link) : Prop where
  ending : ran.1 = talk.ending
  sent : ran.2.sent = link.sent ++ talk.said
  framed : ∀ message ∈ talk.said, ∃ frame, Frame.write message = .ok frame
  state : ran.2 = { talk.last with
    sent := ran.2.sent
    host := { talk.last.host with log := ran.2.host.log, disk := ran.2.host.disk, sink := ran.2.host.sink } }
  shut : ran.2.host.sink.path? = Option.none
  closed : link.host.sink.path? = Option.none →
    ∃ deeds, ran.2.host.disk.deeds = link.host.disk.deeds ++ deeds ∧
      (Disk.opens deeds).Nodup ∧ Disk.opens deeds = Disk.closes deeds

theorem closeShuts (s : Session) : s.closeSink.sink.path? = Option.none := by
  unfold closeSink
  cases sink : s.sink with
  | none => simp [sink, Sink.path?]
  | given file => simp [sink, Sink.path?]
  | opened path file => rfl

theorem failureHost (ending : Ending) (link : Link) :
    recordFailure ending link = { link with
      host := { link.host with
        log := (recordFailure ending link).host.log
        disk := (recordFailure ending link).host.disk } } := by
  rcases failureTold ending link with same | ⟨line, same⟩
  · rw [same]
  · obtain ⟨disk, log, told⟩ := toldHost line link
    rw [same, told]

theorem servedStream {messages : List Message} {bytes : List UInt8} (streams : Frame.Streams messages bytes)
    (faithful : ∀ message ∈ messages, Json.Exact (.object message)) (room : Frame.Room) {link start : Link}
    (begins : Begins link start) :
    Served link (handled start messages) (serve room link bytes) := by
  obtain ⟨log, first, _⟩ := beginsVeiled begins
  obtain ⟨lines, ran⟩ := loopHandled streams faithful room start link.sent log
  have closes (unopened : link.host.sink.path? = Option.none) := serveCloses room unopened bytes
  have ended : serve room link bytes = ((handled start messages).ending,
      close (record "Server stopped" (recordFailure (handled start messages).ending
        (veiled (link.sent ++ (handled start messages).said) lines (handled start messages).last)))) := by
    rw [serve, first, ran]
  rw [ended] at closes ⊢
  have failed := failureHost (handled start messages).ending
    (veiled (link.sent ++ (handled start messages).said) lines (handled start messages).last)
  refine ⟨rfl, ?_, fun said listed => ?_, ?_, closeShuts _, closes⟩
  · rw [failed]
    rfl
  · exact ⟨_, Frame.writeParts (handledScalar faithful start said listed)⟩
  · rw [close, closeEq, failed]
    rfl

theorem streamRefines {messages : List Message}
    (faithful : ∀ message ∈ messages, Json.Exact (.object message)) {link start : Link}
    (begins : Begins link start) (room : Frame.Room) :
    ∃ bytes, Frame.Streams messages bytes ∧
    Served link (handled start messages) (serve room link bytes) ∧
    ∀ done message rest, messages = done ++ message :: rest →
      (handled start done).stopped = Option.none → Notifies message "exit" →
      (AskedToStop link done → (serve room link bytes).1 = .exit (.int 0)) ∧
      (¬ AskedToStop link done → (serve room link bytes).1 = .exit (.int 1)) := by
  obtain ⟨bytes, streams⟩ := Frame.streamsExact faithful
  have served := servedStream streams faithful room begins
  refine ⟨bytes, streams, served, ?_⟩
  rintro done message rest rfl runs leaves
  obtain ⟨_, _, flag⟩ := beginsVeiled begins
  have asked := handledFlag runs
  rw [AskedToStop, flag] at asked
  rw [served.ending, Handling.ending, handledExit runs leaves]
  refine ⟨fun yes => ?_, fun no => ?_⟩
  · rw [asked.mpr yes]
    rfl
  · rw [Bool.eq_false_iff.mpr (mt asked.mp no)]
    rfl

/- A session that is shut down and left, and a document that comes too late. -/
def shutdownMessage : Message := [("id", .int 1), ("method", .text "shutdown")]

def exitMessage : Message := [("method", .text "exit")]

def farewell : List Message := [shutdownMessage] ++ exitMessage :: [openingMessage "file:///a.ast" "let x = 1."]

theorem farewellExact : ∀ message ∈ farewell, Json.Exact (.object message) := by
  have opening : Json.Exact (.object (openingMessage "file:///a.ast" "let x = 1.")) := by
    refine .object (by decide) (by decide) (List.forall_mem_cons.mpr ⟨.text _, List.forall_mem_singleton.mpr ?_⟩)
    refine .object (by decide) (by decide) (List.forall_mem_singleton.mpr (.object (by decide) (by decide) ?_))
    exact List.forall_mem_cons.mpr ⟨.text _, List.forall_mem_singleton.mpr (.text _)⟩
  refine List.forall_mem_cons.mpr ⟨.object (by decide) (by decide) ?_, List.forall_mem_cons.mpr
    ⟨.object (by decide) (by decide) (List.forall_mem_singleton.mpr (.text _)), List.forall_mem_singleton.mpr opening⟩⟩
  exact List.forall_mem_cons.mpr ⟨.int _, List.forall_mem_singleton.mpr (.text _)⟩

theorem farewellRefines :
    (∀ message ∈ farewell, Json.Exact (.object message)) ∧ Begins freshLink freshLink ∧
    ∃ bytes, Frame.Streams farewell bytes ∧ (serve ⟨0, 0⟩ freshLink bytes).1 = .exit (.int 0) ∧
      (serve ⟨0, 0⟩ freshLink bytes).2.sent = [Connection.result (.int 1) .null] ∧
      (serve ⟨0, 0⟩ freshLink bytes).2.host.buffers.isEmpty = true := by
  have begins : Begins freshLink freshLink := Or.inr ⟨rfl, rfl⟩
  obtain ⟨bytes, streams, served, exits⟩ := streamRefines farewellExact begins ⟨0, 0⟩
  have asked : AskedToStop freshLink [shutdownMessage] := Or.inr ⟨_, List.mem_singleton_self _, rfl, rfl⟩
  refine ⟨farewellExact, begins, bytes, streams, (exits _ _ _ rfl rfl ⟨rfl, rfl⟩).1 asked, served.sent, ?_⟩
  rw [served.state]
  rfl

end LanguageService.Session
