import LanguageService.Proofs.Session.Running
import LanguageService.Proofs.Wire.Lengths

/-! What a stream can do to the session that reads it. The reading goes on past every message and every
refusal, and it stops at the end of the stream, at a message that ends the session or whose response cannot be
written, or at a frame whose length no read can take. -/
namespace LanguageService.Session

/- What reading goes on past. -/
inductive Passed : Frame.Outcome → Prop where
  | message (members : Message) : Passed (.message members)
  | refused {code} (reported : Frame.Reported code) (message : String) : Passed (.refused code message)

/- A session behind what was read. -/
def behind (link : Link) (past : List Frame.Outcome) : Link :=
  past.foldl (fun link outcome => (react link outcome).2) link

/- Why the reading of a stream stops: what was read before the last read, and what that read came to. -/
inductive Halts (room : Frame.Room) (link : Link) (input : List UInt8) : Ending → Prop where
  | closed {n past left rest} (before : Frame.reads room n input = (past, left))
      (passed : ∀ outcome ∈ past, Passed outcome) (last : Frame.read room left = (.closed, rest)) :
      Halts room link input .streamEnd
  | message {n past left message rest interrupt} (before : Frame.reads room n input = (past, left))
      (passed : ∀ outcome ∈ past, Passed outcome) (last : Frame.read room left = (.message message, rest))
      (stopped : (step (behind link past) message).1 = .error interrupt) :
      Halts room link input (Interrupt.ending interrupt)
  | unwritten {n past left message rest response} (before : Frame.reads room n input = (past, left))
      (passed : ∀ outcome ∈ past, Passed outcome) (last : Frame.read room left = (.message message, rest))
      (answered : (step (behind link past) message).1 = .ok (some response)) (rough : response.isScalar = false) :
      Halts room link input (.failure (Fault.unencodable (.ofPoints response.renderPoints)).message)
  | length {n past left rest fault} (before : Frame.reads room n input = (past, left))
      (passed : ∀ outcome ∈ past, Passed outcome) (last : Frame.read room left = (.badLength fault, rest)) :
      Halts room link input (.failure fault.message)

theorem haltsBehind {room : Frame.Room} {link : Link} {input rest : List UInt8} {outcome : Frame.Outcome}
    {ending : Ending} (first : Frame.read room input = (outcome, rest)) (passes : Passed outcome)
    (halts : Halts room (react link outcome).2 rest ending) : Halts room link input ending := by
  have ahead {n past left} (before : Frame.reads room n rest = (past, left)) :
      Frame.reads room (n + 1) input = (outcome :: past, left) := by
    simp only [Frame.reads, first, before]
  cases halts with
  | closed before passed last => exact .closed (ahead before) (List.forall_mem_cons.mpr ⟨passes, passed⟩) last
  | message before passed last stopped =>
    exact .message (ahead before) (List.forall_mem_cons.mpr ⟨passes, passed⟩) last stopped
  | unwritten before passed last answered rough =>
    exact .unwritten (ahead before) (List.forall_mem_cons.mpr ⟨passes, passed⟩) last answered rough
  | length before passed last => exact .length (ahead before) (List.forall_mem_cons.mpr ⟨passes, passed⟩) last

theorem closedFirst {room : Frame.Room} {link : Link} {input rest : List UInt8}
    (first : Frame.read room input = (.closed, rest)) : Halts room link input .streamEnd := .closed (n := 0) rfl (by simp) first

theorem reactHalts {room : Frame.Room} {link after : Link} {input rest : List UInt8} {outcome : Frame.Outcome}
    {ending : Ending} (first : Frame.read room input = (outcome, rest)) (reacted : react link outcome = (some ending, after)) :
    Halts room link input ending := by
  cases outcome with
  | closed =>
    cases reacted
    exact closedFirst first
  | badLength fault =>
    cases reacted
    exact .length (n := 0) rfl (by simp) first
  | refused code message =>
    rw [react, respondScalar (errorScalar rfl code rfl)] at reacted
    cases reacted
  | message members =>
    obtain ⟨result, next, ran⟩ : ∃ result next, step link members = (result, next) := ⟨_, _, rfl⟩
    simp only [react, ran] at reacted
    rcases result with interrupt | _ | response
    · cases reacted
      exact .message (n := 0) rfl (by simp) first (congrArg Prod.fst ran)
    · cases reacted
    · cases scalar : response.isScalar with
      | true =>
        simp only [respondScalar scalar] at reacted
        cases reacted
      | false =>
        simp only [respondSends, scalar, Bool.false_eq_true, if_false] at reacted
        cases reacted
        exact .unwritten (n := 0) rfl (by simp) first (congrArg Prod.fst ran) scalar

theorem reactPasses {room : Frame.Room} {link after : Link} {input rest : List UInt8} {outcome : Frame.Outcome}
    (first : Frame.read room input = (outcome, rest)) (reacted : react link outcome = (none, after)) :
    Passed outcome := by
  cases outcome with
  | closed => cases reacted
  | badLength fault => cases reacted
  | refused code message => exact .refused (Frame.readReported first) message
  | message members => exact .message members

theorem loopHalts (room : Frame.Room) (link : Link) (input : List UInt8) :
    Halts room link input (loop room link input).1 := by
  -- a read takes a byte at least, so the rest is a shorter stream
  generalize size : input.length = n
  induction n using Nat.strongRecOn generalizing link input with
  | _ n ih =>
    cases input with
    | nil =>
      have ended : Frame.read room [] = (.closed, []) := by simp [Frame.read, Frame.headers]
      rw [loopRead, ended]
      exact closedFirst ended
    | cons b bytes =>
      obtain ⟨outcome, rest, first⟩ : ∃ outcome rest, Frame.read room (b :: bytes) = (outcome, rest) := ⟨_, _, rfl⟩
      have taken := Frame.readLength room b bytes
      rw [loopRead, first]
      rw [first] at taken
      obtain ⟨ended, after, reacted⟩ : ∃ ended after, react link outcome = (ended, after) := ⟨_, _, rfl⟩
      rw [reacted]
      cases ended with
      | some ending => exact reactHalts first reacted
      | none =>
        refine haltsBehind first (reactPasses first reacted) ?_
        rw [reacted]
        refine ih rest.length ?_ after rest rfl
        rw [← size, List.length_cons]
        exact Nat.lt_succ_of_le taken

theorem streamStops (room : Frame.Room) (input : List UInt8) :
    (∀ fault rest, Frame.read room input = (.badLength fault, rest) ↔
      ∃ n, Frame.Block none input n rest ∧ Frame.Unreadable room rest.length n fault) ∧
    (∀ code message rest, Frame.read room input = (.refused code message, rest) → Frame.Reported code) ∧
    ∀ link, Halts room (record "Asteroid Language Server starting" link) input (serve room link input).1 :=
  ⟨fun _ _ => Frame.readFails, fun _ _ _ => Frame.readReported, fun link => loopHalts room (record _ link) input⟩

/- A length below minus one, before a message that is never reached, and room for more than there is. -/
def lateFrame : List UInt8 := Frame.stream [.object shutdownMessage]

def negativeFrame : List UInt8 :=
  Text.Utf8.encodeChars "Content-Length: -5\r\n".toList ++ (Text.Utf8.encodeChars "\r\n".toList ++ lateFrame)

def ampleRoom : Frame.Room := ⟨Frame.wordBound, Frame.wordBound⟩

theorem negativeRead (room : Frame.Room) : Frame.read room negativeFrame = (.badLength .negative, lateFrame) := by
  have title : Frame.Leads (Text.Utf8.encodeChars "Content-Length: -5\r\n".toList)
      (Text.Utf8.encodeChars "\r\n".toList ++ lateFrame) :=
    .inl ⟨(Text.Utf8.encodeChars "Content-Length: -5\r".toList), by decide, by decide⟩
  have blank : Frame.Leads (Text.Utf8.encodeChars "\r\n".toList) lateFrame := .inl ⟨[13], by decide, by decide⟩
  have gives : Frame.Gives (-5) (Text.Utf8.decodeAscii (Text.Utf8.encodeChars "Content-Length: -5\r\n".toList)) :=
    Frame.lineGives.mp (by decide)
  exact Frame.readFails.mpr ⟨-5, .length title gives (.ended blank (by decide)), .negative (by decide) (by decide)⟩

theorem negativeLengthStops :
    (Frame.read ampleRoom negativeFrame).1 = .badLength .negative ∧
    (serve ampleRoom freshLink negativeFrame).1 = .failure "read length must be non-negative or -1" ∧
    (serve ampleRoom freshLink negativeFrame).2.sent = [] := by
  have stops (link : Link) : loop ampleRoom link negativeFrame =
      (.failure "read length must be non-negative or -1", link) := by
    rw [loopRead, negativeRead]
    rfl
  refine ⟨by rw [negativeRead], ?_, ?_⟩
  · rw [serve, stops]
  · rw [serve, stops]
    rfl

end LanguageService.Session
