import LanguageService.Proofs.Session.Stopping
import LanguageService.Proofs.Wire.Bodies
import LanguageService.Proofs.Wire.Truncation

/-! Progress of the reading. A read leaves the bytes behind those that it took, and only at the end of the
stream may it take none. So a host that reads on, past messages and past what it refuses, cuts the stream
into the bytes of its reads: no byte is read twice, and at most one read more is made than there are bytes. -/
namespace LanguageService.Frame

theorem headersRest (announced : Option Int) (input : List UInt8) : (headers announced input).2 <:+ input := by
  have behind (b : UInt8) (bytes : List UInt8) : (cutLine (b :: bytes)).2 <:+ b :: bytes :=
    ⟨_, (cutLineLeads (List.cons_ne_nil b bytes)).1⟩
  fun_induction headers announced input with
  | case1 => exact List.suffix_rfl
  | case2 announced b bytes blank => exact behind b bytes
  | case3 announced b bytes n gives ih => exact ih.trans (behind b bytes)
  | case4 announced b bytes text invalid => exact behind b bytes
  | case5 announced b bytes other ih => exact ih.trans (behind b bytes)

theorem readRest (room : Room) (input : List UInt8) : (read room input).2 <:+ input := by
  have header := headersRest none input
  obtain ⟨found, left, announced⟩ : ∃ found left, headers none input = (found, left) := ⟨_, _, rfl⟩
  rw [announced] at header
  rw [read, announced]
  cases found with
  | closed => exact header
  | refused code message => exact header
  | length n =>
    simp only
    split
    · exact header
    · split
      · exact List.nil_suffix
      · split
        · exact List.nil_suffix
        · exact (List.drop_suffix _ left).trans header

theorem readTakes {room : Room} {input rest : List UInt8} {outcome : Outcome}
    (came : read room input = (outcome, rest)) :
    ∃ taken, taken ++ rest = input ∧ (outcome ≠ .closed → taken ≠ []) := by
  have behind := readRest room input
  rw [came] at behind
  obtain ⟨taken, cut⟩ := behind
  refine ⟨taken, cut, ?_⟩
  rintro going rfl
  rw [List.nil_append] at cut
  subst cut
  cases rest with
  | nil =>
    rw [readNothing] at came
    exact going (congrArg Prod.fst came).symm
  | cons b bytes =>
    have short := readLength room b bytes
    rw [came, List.length_cons] at short
    omega

end LanguageService.Frame

namespace LanguageService.Host
open Session (Ending Passed)
variable {κ σ : Type} {h : Host κ σ}

/- What a host does with what was read, and how the reading ends there if it does. -/
inductive Reacts (h : Host κ σ) (c : Connection κ σ) :
    Frame.Outcome → Option Ending → Connection κ σ → Prop where
  | closed : Reacts h c .closed (some .streamEnd) c
  | length (fault : Frame.LengthFault) : Reacts h c (.badLength fault) (some (.failure fault.message)) c
  | refused {code message host} (logged : h.log (.plain ("Protocol error: " ++ message)) c.host = .ok host) :
      Reacts h c (.refused code message) none
        (Connection.push { c with host } (Connection.error .null (.ofText code message)))
  | unlogged {code message fault} (fails : h.log (.plain ("Protocol error: " ++ message)) c.host = .error fault) :
      Reacts h c (.refused code message) (some (.failure fault.message)) c
  | answered {members response after} (handled : (h.handle members).exec c = (.ok (some response), after))
      (scalar : response.isScalar = true) : Reacts h c (.message members) none (after.push response)
  | unwritten {members response after} (handled : (h.handle members).exec c = (.ok (some response), after))
      (rough : response.isScalar = false) : Reacts h c (.message members)
        (some (.failure (Fault.unencodable (.ofPoints response.renderPoints)).message)) after
  | silent {members after} (handled : (h.handle members).exec c = (.ok none, after)) :
      Reacts h c (.message members) none after
  | interrupted {members interrupt after} (handled : (h.handle members).exec c = (.error interrupt, after)) :
      Reacts h c (.message members) (some (Session.Interrupt.ending interrupt)) after

theorem reactsExists (h : Host κ σ) (c : Connection κ σ) (outcome : Frame.Outcome) :
    ∃ ending after, Reacts h c outcome ending after := by
  cases outcome with
  | closed => exact ⟨_, _, .closed⟩
  | badLength fault => exact ⟨_, _, .length fault⟩
  | refused code message =>
    cases logged : h.log (.plain ("Protocol error: " ++ message)) c.host with
    | ok host => exact ⟨_, _, .refused logged⟩
    | error fault => exact ⟨_, _, .unlogged logged⟩
  | message members =>
    obtain ⟨result, after, handled⟩ : ∃ result after, (h.handle members).exec c = (result, after) := ⟨_, _, rfl⟩
    rcases result with interrupt | _ | response
    · exact ⟨_, _, .interrupted handled⟩
    · exact ⟨_, _, .silent handled⟩
    · cases scalar : response.isScalar with
      | true => exact ⟨_, _, .answered handled scalar⟩
      | false => exact ⟨_, _, .unwritten handled scalar⟩

theorem reactsPasses {room : Frame.Room} {c after : Connection κ σ} {taken rest : List UInt8}
    {outcome : Frame.Outcome} (came : Frame.read room (taken ++ rest) = (outcome, rest))
    (reacts : Reacts h c outcome none after) : Passed outcome ∧ taken ≠ [] := by
  obtain ⟨front, cut, filled⟩ := Frame.readTakes came
  obtain rfl := List.append_cancel_right cut
  cases reacts with
  | refused logged => exact ⟨.refused (Frame.readReported came) _, filled Frame.Outcome.noConfusion⟩
  | answered handled scalar => exact ⟨.message _, filled Frame.Outcome.noConfusion⟩
  | silent handled => exact ⟨.message _, filled Frame.Outcome.noConfusion⟩

/- Whatever a message does, what was sent before it stays sent. -/
def Retains (h : Host κ σ) : Prop := ∀ message, Act.Within (fun c d => c.sent <+: d.sent) (h.handle message)

/- The log takes every line that has bytes. -/
def LogsPlain (h : Host κ σ) : Prop := ∀ (line : String) (s : σ), ∃ t, h.log (.plain line) s = .ok t

def answers : Frame.Outcome → List Json
  | .refused code message => [Connection.error .null (.ofText code message)]
  | _ => []

theorem reactsAnswers (retains : Retains h) {c after : Connection κ σ} {outcome : Frame.Outcome}
    {ending : Option Ending} (reacts : Reacts h c outcome ending after) :
    ∃ said, after.sent = c.sent ++ said ∧ (ending = none → (answers outcome).Sublist said) := by
  have kept {members result next} (handled : (h.handle members).exec c = (result, next)) :
      ∃ said, c.sent ++ said = next.sent := by
    have before := retains members c
    rw [handled] at before
    exact before
  cases reacts with
  | closed => exact ⟨[], by simp, fun _ => List.nil_sublist _⟩
  | length fault => exact ⟨[], by simp, fun _ => List.nil_sublist _⟩
  | unlogged fails => exact ⟨[], by simp, fun going => by cases going⟩
  | @refused code message host logged =>
    exact ⟨[Connection.error .null (.ofText code message)], rfl, fun _ => List.Sublist.refl _⟩
  | @answered members response next handled scalar =>
    obtain ⟨said, same⟩ := kept handled
    refine ⟨said ++ [response], ?_, fun _ => List.nil_sublist _⟩
    rw [← List.append_assoc, same]
    rfl
  | unwritten handled rough =>
    obtain ⟨said, same⟩ := kept handled
    exact ⟨said, same.symm, fun _ => List.nil_sublist _⟩
  | silent handled =>
    obtain ⟨said, same⟩ := kept handled
    exact ⟨said, same.symm, fun _ => List.nil_sublist _⟩
  | interrupted handled =>
    obtain ⟨said, same⟩ := kept handled
    exact ⟨said, same.symm, fun _ => List.nil_sublist _⟩

/- One read: the bytes that it takes, and what it comes to. -/
structure Turn where
  taken : List UInt8
  outcome : Frame.Outcome

/- A run over a stream: the reads that it goes on past, the read at which it stops, and the bytes, the ending
and the connection that it leaves. -/
structure Run (κ σ : Type) where
  past : List Turn
  final : Turn
  left : List UInt8
  ending : Ending
  last : Connection κ σ

def Run.turns (run : Run κ σ) : List Turn := run.past ++ [run.final]

/- Reading on and on until what follows a read ends it. A reading that never ended would have no run. -/
inductive Runs (room : Frame.Room) (h : Host κ σ) : Connection κ σ → List UInt8 → Run κ σ → Prop where
  | ends {c taken outcome rest ending last} (came : Frame.read room (taken ++ rest) = (outcome, rest))
      (reacts : Reacts h c outcome (some ending) last) :
      Runs room h c (taken ++ rest) ⟨[], ⟨taken, outcome⟩, rest, ending, last⟩
  | next {c taken outcome rest after run} (came : Frame.read room (taken ++ rest) = (outcome, rest))
      (reacts : Reacts h c outcome none after) (later : Runs room h after rest run) :
      Runs room h c (taken ++ rest) { run with past := ⟨taken, outcome⟩ :: run.past }

theorem runExists (room : Frame.Room) (h : Host κ σ) (c : Connection κ σ) (input : List UInt8) :
    ∃ run, Runs room h c input run := by
  generalize size : input.length = n
  induction n using Nat.strongRecOn generalizing c input with
  | _ n ih =>
    obtain ⟨outcome, rest, came⟩ : ∃ outcome rest, Frame.read room input = (outcome, rest) := ⟨_, _, rfl⟩
    obtain ⟨taken, rfl, _⟩ := Frame.readTakes came
    obtain ⟨ending, after, reacts⟩ := reactsExists h c outcome
    cases ending with
    | some ending => exact ⟨_, .ends came reacts⟩
    | none =>
      -- what is left is shorter, whatever the read was about
      have filled := List.length_pos_of_ne_nil (reactsPasses came reacts).2
      rw [List.length_append] at size
      obtain ⟨run, later⟩ := ih rest.length (by omega) after rest rfl
      exact ⟨_, .next came reacts later⟩

section Runs
variable {room : Frame.Room} {c : Connection κ σ} {input : List UInt8} {run : Run κ σ}
  (runs : Runs room h c input run)
include runs

theorem runsCut : (run.turns.map Turn.taken).flatten ++ run.left = input := by
  induction runs with
  | ends came reacts => simp [Run.turns]
  | next came reacts later ih =>
    simp only [Run.turns, List.cons_append, List.map_cons, List.flatten_cons, List.append_assoc] at ih ⊢
    rw [ih]

theorem runsOnward : ∀ turn ∈ run.past, Passed turn.outcome ∧ turn.taken ≠ [] := by
  induction runs with
  | ends came reacts => exact List.forall_mem_nil _
  | next came reacts later ih => exact List.forall_mem_cons.mpr ⟨reactsPasses came reacts, ih⟩

theorem runsFew : run.turns.length ≤ input.length + 1 := by
  induction runs with
  | ends came reacts => exact Nat.le_add_left 1 _
  | next came reacts later ih =>
    have filled := List.length_pos_of_ne_nil (reactsPasses came reacts).2
    simp only [Run.turns, List.cons_append, List.length_cons, List.length_append] at ih ⊢
    omega

theorem runsFinal (logs : LogsPlain h) (code : Int) (message : String) :
    run.final.outcome ≠ .refused code message := by
  induction runs with
  | @ends c taken outcome rest ending last came reacts =>
    cases reacts with
    | unlogged fails =>
      obtain ⟨host, logged⟩ := logs _ c.host
      cases fails.symm.trans logged
    | _ => exact Frame.Outcome.noConfusion
  | next came reacts later ih => exact ih

theorem runsAnswers (retains : Retains h) :
    ∃ said, run.last.sent = c.sent ++ said ∧ (run.past.flatMap (answers ·.outcome)).Sublist said := by
  induction runs with
  | ends came reacts =>
    obtain ⟨said, sent, _⟩ := reactsAnswers retains reacts
    exact ⟨said, sent, List.nil_sublist _⟩
  | next came reacts later ih =>
    obtain ⟨first, sent, answered⟩ := reactsAnswers retains reacts
    obtain ⟨others, ended, told⟩ := ih
    refine ⟨first ++ others, ?_, ?_⟩
    · rw [ended, sent, List.append_assoc]
    · rw [List.flatMap_cons]
      exact (answered rfl).append told

end Runs

/- A run that gets ahead: its reads are pieces of the stream in a row, with a byte at least in each but the
last, and what was refused on the way was answered and read past. -/
structure Advances (h : Host κ σ) (c : Connection κ σ) (input : List UInt8) (run : Run κ σ) : Prop where
  cut : (run.turns.map Turn.taken).flatten ++ run.left = input
  onward : ∀ turn ∈ run.past, Passed turn.outcome ∧ turn.taken ≠ []
  few : run.turns.length ≤ input.length + 1
  skipped : LogsPlain h → ∀ code message, run.final.outcome ≠ .refused code message
  answered : Retains h →
    ∃ said, run.last.sent = c.sent ++ said ∧ (run.past.flatMap (answers ·.outcome)).Sublist said

theorem runsAdvance {room : Frame.Room} {c : Connection κ σ} {input : List UInt8} {run : Run κ σ}
    (runs : Runs room h c input run) :
    Advances h c input run where
  cut := runsCut runs
  onward := runsOnward runs
  few := runsFew runs
  skipped := runsFinal runs
  answered := runsAnswers runs

end LanguageService.Host

namespace LanguageService.Session
open Host (Reacts Runs Retains LogsPlain)
open Text.Utf8 (encodeChars)

theorem reactsReact {link after : Link} {outcome : Frame.Outcome} {ending : Option Ending}
    (reacts : Reacts host link outcome ending after) : react link outcome = (ending, after) := by
  cases reacts with
  | closed => rfl
  | length fault => rfl
  | refused logged =>
    cases logged
    rw [react, respondScalar (errorScalar rfl _ rfl)]
    rfl
  | unlogged fails => cases fails
  | answered handled scalar => simp only [react, stepExec, handled, respondScalar scalar]
  | unwritten handled rough =>
    simp only [react, stepExec, handled, respondSends, rough, Bool.false_eq_true, if_false]
  | silent handled => simp only [react, stepExec, handled]
  | interrupted handled => simp only [react, stepExec, handled]

theorem loopRuns {room : Frame.Room} {link : Link} {input : List UInt8} {run : Host.Run Callback Session}
    (runs : Runs room host link input run) : loop room link input = (run.ending, run.last) := by
  induction runs with
  | ends came reacts => rw [loopRead, came, reactsReact reacts]
  | next came reacts later ih =>
    rw [loopRead, came, reactsReact reacts]
    exact ih

theorem hostRetains : Retains host := by
  intro message link
  obtain ⟨result, after, news, lines, unseen⟩ := stepBlind message link
  have own : (host.handle message).exec link = (result, veiled (link.sent ++ news) (link.host.log ++ lines) after) :=
    unseen.ran link.sent link.host.log
  rw [own]
  exact List.prefix_append link.sent news

theorem hostLogs : LogsPlain host := fun line s => ⟨s.note line, rfl⟩

theorem readingAdvances (room : Frame.Room) (input : List UInt8) :
    (∀ outcome rest, Frame.read room input = (outcome, rest) →
      ∃ taken, taken ++ rest = input ∧ (outcome ≠ .closed → taken ≠ [])) ∧
    (∀ {κ σ : Type} (h : Host κ σ) (c : Connection κ σ),
      (∃ run, Runs room h c input run) ∧ ∀ run, Runs room h c input run → Host.Advances h c input run) ∧
    Retains host ∧ LogsPlain host ∧
    ∀ link run, Runs room host link input run → loop room link input = (run.ending, run.last) :=
  ⟨fun _ _ => Frame.readTakes, fun h c => ⟨Host.runExists room h c input, fun _ => Host.runsAdvance⟩,
    hostRetains, hostLogs, fun _ _ => loopRuns⟩

/- A length that is no number, the blank line behind it, and a header for all that follows, which is no object. -/
def wrongRow : List UInt8 := encodeChars "Content-Length: x\n".toList

def listFrame : List UInt8 := encodeChars "Content-Length: -1\n".toList ++ ([13, 10] ++ [91, 93])

def brokenStream : List UInt8 := wrongRow ++ ([10] ++ (listFrame ++ []))

def brokenAnswers : List Json :=
  [.ofText Refusal.parseError "Invalid Content-Length: Content-Length: x",
    .ofText Refusal.parseError "Missing Content-Length header",
    .ofText Refusal.invalidRequest "Message must be a JSON object"].map (Connection.error .null)

theorem wrongRead (room : Frame.Room) (rest : List UInt8) : Frame.read room (wrongRow ++ rest) =
    (.refused Refusal.parseError "Invalid Content-Length: Content-Length: x", rest) := by
  have leads : Frame.Leads wrongRow rest := .inl ⟨encodeChars "Content-Length: x".toList, by decide, by decide⟩
  have said : Frame.line wrongRow = .invalidLength "Content-Length: x".toList := by decide
  rw [Frame.read, Frame.headersLeads leads, said]
  rfl

theorem blankRead (room : Frame.Room) (rest : List UInt8) : Frame.read room ([10] ++ rest) =
    (.refused Refusal.parseError "Missing Content-Length header", rest) := by
  have leads : Frame.Leads [10] rest := .inl ⟨[], rfl, by decide⟩
  have said : Frame.line [10] = .blank := by decide
  rw [Frame.read, Frame.headersLeads leads, said]
  rfl

theorem listRead (room : Frame.Room) : Frame.read room (listFrame ++ []) =
    (.refused Refusal.invalidRequest "Message must be a JSON object", []) := by
  have title : Frame.Leads (encodeChars "Content-Length: -1\n".toList) ([13, 10] ++ [91, 93]) :=
    .inl ⟨encodeChars "Content-Length: -1".toList, by decide, by decide⟩
  have ended : Frame.Leads [13, 10] [91, 93] := .inl ⟨[13], by decide, by decide⟩
  have block : Frame.Block none listFrame (-1) [91, 93] :=
    .length title (Frame.lineGives.mp (by decide)) (.ended ended (by decide))
  have told : Frame.body [91, 93] = .refused Refusal.invalidRequest "Message must be a JSON object" :=
    Frame.tellsBody (.other (show encodeChars ['[', ']'] = [91, 93] by decide)
      (show Json.parseChars ['[', ']'] = .ok (.list []) from rfl) fun _ => Json.noConfusion)
  rw [List.append_nil, Frame.read, Frame.blockHeaders block, ← told]
  rfl

theorem brokenRuns (room : Frame.Room) : ∃ run, Runs room host freshLink brokenStream run ∧ run.past.length = 3 ∧
    run.past.flatMap (Host.answers ·.outcome) = brokenAnswers := by
  have nothing : Frame.read room ([] ++ []) = (.closed, []) := Frame.readNothing room
  refine ⟨_, .next (wrongRead room _) (.refused rfl) (.next (blankRead room _) (.refused rfl)
    (.next (listRead room) (.refused rfl) (.ends nothing .closed))), ?_, ?_⟩
  · rfl
  · rfl

theorem brokenAdvances :
    (∃ taken, taken ++ ([10] ++ (listFrame ++ [])) = brokenStream ∧ taken ≠ []) ∧
    ∃ run, Runs ⟨0, 0⟩ host freshLink brokenStream run ∧ run.turns.length = 4 ∧
      (run.turns.map Host.Turn.taken).flatten ++ run.left = brokenStream ∧
      brokenAnswers.Sublist (loop ⟨0, 0⟩ freshLink brokenStream).2.sent := by
  obtain ⟨run, runs, count, refused⟩ := brokenRuns ⟨0, 0⟩
  obtain ⟨reads, hosts, retains, _, looped⟩ := readingAdvances ⟨0, 0⟩ brokenStream
  obtain ⟨taken, cut, filled⟩ := reads _ _ (wrongRead _ _)
  have advances := (hosts host freshLink).2 run runs
  obtain ⟨said, sent, told⟩ := advances.answered retains
  refine ⟨⟨taken, cut, filled Frame.Outcome.noConfusion⟩, run, runs, ?_, advances.cut, ?_⟩
  · rw [Host.Run.turns, List.length_append, count]
    rfl
  · rw [looped freshLink run runs, sent, ← refused]
    exact told

end LanguageService.Session
