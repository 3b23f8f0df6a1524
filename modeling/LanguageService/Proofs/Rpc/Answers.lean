import LanguageService.Proofs.Rpc.Act
import LanguageService.Proofs.Table

/-! Own requests and the answers to them, in any order. Ids count up from one, and an answer runs the
callback of the one request that waits for its id, which is done with before the callback runs: whatever
the callback does, fails or asks for, no answer finds that request again. -/
namespace LanguageService.Host
variable {κ σ : Type}

/- What happens on a connection, as far as own requests go. -/
inductive Event (κ : Type) where
  | request (id : Nat) (callback : Option κ)
  | answer (key : Key)

def Event.id? : Event κ → Option Nat
  | .request id _ => some id
  | .answer _ => none

def requestIds (events : List (Event κ)) : List Nat := events.filterMap Event.id?

theorem requestIdsRequest (events : List (Event κ)) (id : Nat) (callback : Option κ) :
    requestIds (events ++ [.request id callback]) = requestIds events ++ [id] := List.filterMap_append

theorem requestIdsAnswer (events : List (Event κ)) (key : Key) :
    requestIds (events ++ [.answer key]) = requestIds events := by
  simp [requestIds, Event.id?]

/- A request with a callback that no answer has come for since. -/
def Awaits (events : List (Event κ)) (key : Key) (callback : κ) : Prop :=
  ∃ earlier later, ∃ id : Nat, events = earlier ++ .request id (some callback) :: later ∧ key = .int id ∧
    .answer key ∉ later

theorem awaitsSnoc {events : List (Event κ)} {event : Event κ} {key : Key} {callback : κ} :
    Awaits (events ++ [event]) key callback ↔
      (Awaits events key callback ∧ event ≠ .answer key) ∨
        ∃ id : Nat, event = .request id (some callback) ∧ key = .int id := by
  constructor
  · rintro ⟨earlier, later, id, same, own, silent⟩
    rcases List.eq_nil_or_concat later with rfl | ⟨later, last, rfl⟩
    · exact .inr ⟨id, (List.append_inj' same rfl).2 |> List.singleton_inj.mp, own⟩
    · rw [List.concat_eq_append, ← List.cons_append, ← List.append_assoc] at same
      obtain ⟨rfl, ends⟩ := List.append_inj' same rfl
      obtain rfl := List.singleton_inj.mp ends
      simp only [List.concat_eq_append, List.mem_append, List.mem_singleton, not_or] at silent
      exact .inl ⟨⟨earlier, later, id, rfl, own, silent.1⟩, Ne.symm silent.2⟩
  · rintro (⟨⟨earlier, later, id, rfl, own, silent⟩, other⟩ | ⟨id, rfl, own⟩)
    · exact ⟨earlier, later ++ [event], id, by simp, own, by simp [silent, Ne.symm other]⟩
    · exact ⟨events, [], id, rfl, own, by simp⟩

/- An action that leaves ids and awaited answers alone, apart from the requests that it sends. -/
inductive Performs : Connection κ σ → List (Event κ) → Connection κ σ → Prop where
  | done {c} : Performs c [] c
  | quiet {c d events last} (ids : d.nextId = c.nextId) (pending : d.pending = c.pending)
      (rest : Performs d events last) : Performs c events last
  | request {c events last} (callback : Option κ) (rest : Performs (c.reserve callback) events last) :
      Performs c (.request c.nextId callback :: events) last

theorem sendQuiet (message : Json) (c : Connection κ σ) :
    ((Act.send message).exec c).2.nextId = c.nextId ∧ ((Act.send message).exec c).2.pending = c.pending := by
  rw [Act.runSend]
  split <;> exact ⟨rfl, rfl⟩

/- The id is given away and the answer awaited also when the request turns out to have no bytes. -/
theorem callPerforms (method : Json) (params : Option Json) (callback : Option κ) (c : Connection κ σ) :
    Performs c [.request c.nextId callback] ((Act.call method params callback).exec c).2 := by
  have quiet := sendQuiet (Connection.request c.nextId method params) (c.reserve callback)
  rw [Act.runCall]
  exact .request callback (.quiet quiet.1 quiet.2 .done)

structure Replies (message : List (Text × Json)) (key : Key) : Prop where
  nameless : message.lookup (.plain "method") = none
  told : ((message.lookup (.plain "result")).isSome || (message.lookup (.plain "error")).isSome) = true
  id : ((message.lookup (.plain "id")).getD .null).key? = some key

/- The result and the error that a callback gets. -/
def told (message : List (Text × Json)) : Json × Json :=
  match message.lookup (.plain "error") with
  | some error => (.null, error)
  | none => ((message.lookup (.plain "result")).getD .null, .null)

def settled (c : Connection κ σ) (key : Key) : Connection κ σ := { c with pending := c.pending.erase key }

/- A connection and what has happened on it: requests were sent, answers came, and their callbacks ran. -/
inductive Exchange (h : Host κ σ) : Connection κ σ → List (Event κ) → Prop where
  | start (host : σ) : Exchange h { host } []
  | act {c events more d} (exchange : Exchange h c events) (did : Performs c more d) :
      Exchange h d (events ++ more)
  | reply {c events message key more} (exchange : Exchange h c events) (replies : Replies message key)
      (did : Performs (settled c key) more ((h.handle message).exec c).2) :
      Exchange h ((h.handle message).exec c).2 (events ++ .answer key :: more)

def called (h : Host κ σ) (c : Connection κ σ) (key : Key) (callback : κ) (message : List (Text × Json)) :
    Except Interrupt (Option Json) × Connection κ σ :=
  let ran := (h.answered callback (told message).1 (told message).2).exec (settled c key)
  (ran.1.map fun _ => none, ran.2)

theorem settleReplied (h : Host κ σ) {message : List (Text × Json)} {key : Key} (replies : Replies message key)
    (c : Connection κ σ) :
    (h.settle message).exec c = match c.pending.get? key with
      | none => (.ok (), c)
      | some callback => (h.answered callback (told message).1 (told message).2).exec (settled c key) := by
  simp only [settle, Act.runBind, Act.runGet]
  cases empty : c.pending.isEmpty with
  | true =>
    rw [Table.getEmpty empty]
    rfl
  | false =>
    simp only [Bool.false_eq_true, if_false, Act.runBind, Json.key, replies.id, Act.runLiftOk]
    cases c.pending.get? key with
    | none => rfl
    | some callback =>
      simp only [Act.runBind, Act.runSet, told, settled]
      cases message.lookup (.plain "error") <;> rfl

theorem handleReplied (h : Host κ σ) {message : List (Text × Json)} {key : Key} (replies : Replies message key)
    (c : Connection κ σ) :
    (h.handle message).exec c = match c.pending.get? key with
      | none => (.ok none, c)
      | some callback => h.called c key callback message := by
  simp only [handle, replies.nameless, replies.told, if_true, Act.runBind, settleReplied h replies]
  cases c.pending.get? key with
  | none => rfl
  | some callback =>
    obtain ⟨result, after, ran⟩ : ∃ result after, (h.answered callback (told message).1 (told message).2).exec
      (settled c key) = (result, after) := ⟨_, _, rfl⟩
    simp only [called, ran]
    cases result <;> rfl

structure Kept (c : Connection κ σ) (events : List (Event κ)) : Prop where
  ids : requestIds events = List.range' 1 (requestIds events).length
  next : c.nextId = (requestIds events).length + 1
  distinct : c.pending.keys.Nodup
  pending : ∀ key callback, c.pending.get? key = some callback ↔ Awaits events key callback

theorem Kept.fresh {c : Connection κ σ} {events : List (Event κ)} (kept : Kept c events) (callback : κ) :
    ¬ Awaits events (.int c.nextId) callback := by
  rintro ⟨earlier, later, id, same, own, _⟩
  have listed : id ∈ requestIds events := by
    refine List.mem_filterMap.mpr ?_
    exact ⟨.request id (some callback), by simp [same], rfl⟩
  rw [kept.ids, List.mem_range'_1] at listed
  have number := kept.next
  have next : (c.nextId : Int) = id := Key.int.inj own
  omega

theorem keptReserve {c : Connection κ σ} {events : List (Event κ)} (kept : Kept c events) (callback : Option κ) :
    Kept (c.reserve callback) (events ++ [.request c.nextId callback]) := by
  refine ⟨?_, ?_, ?_, ?_⟩
  · rw [requestIdsRequest, List.length_append, List.length_singleton, List.range'_1_concat, ← kept.ids, kept.next,
      Nat.add_comm 1]
  · rw [requestIdsRequest, List.length_append, List.length_singleton, ← kept.next]
    rfl
  · cases callback with
    | none => exact kept.distinct
    | some asked => exact Table.nodupInsert kept.distinct _ _
  · intro key asked
    have before := kept.pending key asked
    cases callback with
    | none =>
      show c.pending.get? key = some asked ↔ _
      rw [awaitsSnoc]
      simpa using before
    | some given =>
      have fresh := kept.fresh asked
      show (c.pending.insert (.int c.nextId) given).get? key = some asked ↔ _
      rw [Table.getInsert, awaitsSnoc]
      by_cases own : key = .int c.nextId
      · subst own
        simp [fresh]
      · simpa [own] using before

theorem keptPerforms {c d : Connection κ σ} {more : List (Event κ)} (did : Performs c more d)
    {events : List (Event κ)} (kept : Kept c events) : Kept d (events ++ more) := by
  induction did generalizing events with
  | done => simpa using kept
  | @quiet c d _ _ ids pending rest ih =>
    refine ih ⟨kept.ids, ids.trans kept.next, ?_, ?_⟩
    · rw [pending]
      exact kept.distinct
    · rw [pending]
      exact kept.pending
  | request callback rest ih =>
    have later := ih (keptReserve kept callback)
    rwa [List.append_assoc] at later

theorem keptSettled {c : Connection κ σ} {events : List (Event κ)} (kept : Kept c events) (key : Key) :
    Kept (settled c key) (events ++ [.answer key]) := by
  refine ⟨?_, ?_, Table.nodupErase kept.distinct key, ?_⟩
  · rw [requestIdsAnswer]
    exact kept.ids
  · rw [requestIdsAnswer]
    exact kept.next
  · intro other callback
    have before := kept.pending other callback
    rw [settled, Table.getErase, awaitsSnoc]
    by_cases own : other = key
    · simp [own]
    · simp [own, Ne.symm own, before]

theorem exchangeKept {h : Host κ σ} {c : Connection κ σ} {events : List (Event κ)}
    (exchange : Exchange h c events) : Kept c events := by
  induction exchange with
  | start host =>
    refine ⟨rfl, rfl, List.nodup_nil, fun key callback => ?_⟩
    simp [Awaits, Table.getEmpty (t := ∅) rfl]
  | act _ did ih => exact keptPerforms did ih
  | reply _ replies did ih =>
    have later := keptPerforms did (keptSettled ih _)
    rwa [List.append_assoc] at later

/- Callbacks may do as they like with the host, send requests and messages, and fail. -/
def Orderly (h : Host κ σ) : Prop :=
  ∀ callback result error c, ∃ more, Performs c more ((h.answered callback result error).exec c).2

theorem replyPerforms {h : Host κ σ} (orderly : Orderly h) {message : List (Text × Json)} {key : Key}
    (replies : Replies message key) (c : Connection κ σ) :
    ∃ more, Performs (settled c key) more ((h.handle message).exec c).2 := by
  rw [handleReplied h replies]
  cases awaited : c.pending.get? key with
  | none =>
    rw [settled, Table.eraseAbsent awaited]
    exact ⟨[], .done⟩
  | some callback => exact orderly callback _ _ (settled c key)

theorem answersOnce {h : Host κ σ} (orderly : Orderly h) {c : Connection κ σ} {events : List (Event κ)}
    (exchange : Exchange h c events) :
    requestIds events = List.range' 1 (requestIds events).length ∧
    (∀ method params callback,
      let id := (requestIds events).length + 1
      let request := Connection.request id method params
      Exchange h ((Act.call method params callback).exec c).2 (events ++ [.request id callback]) ∧
      (Act.call method params callback).exec c =
        if request.isScalar then (.ok (), (c.reserve callback).push request)
        else (.error (.fault (.unencodable (.ofPoints request.renderPoints))), c.reserve callback)) ∧
    (c.pending.keys.Nodup ∧
      ∀ key callback, c.pending.get? key = some callback ↔ Awaits events key callback) ∧
    ∀ message key, Replies message key →
      (∃ more, Exchange h ((h.handle message).exec c).2 (events ++ .answer key :: more)) ∧
      (∀ callback, Awaits events key callback →
        (h.handle message).exec c = h.called c key callback message) ∧
      ((∀ callback, ¬ Awaits events key callback) → (h.handle message).exec c = (.ok none, c)) := by
  have kept := exchangeKept exchange
  refine ⟨kept.ids, ?_, ⟨kept.distinct, kept.pending⟩, ?_⟩
  · intro method params callback
    rw [← kept.next]
    exact ⟨.act exchange (callPerforms method params callback c), Act.runSend _ _⟩
  · intro message key replies
    obtain ⟨more, did⟩ := replyPerforms orderly replies c
    refine ⟨⟨more, .reply exchange replies did⟩, ?_, ?_⟩
    · intro callback awaits
      rw [handleReplied h replies, (kept.pending key callback).mpr awaits]
    · intro idle
      have absent : c.pending.get? key = none :=
        Option.eq_none_iff_forall_ne_some.mpr fun callback found => idle callback ((kept.pending key callback).mp found)
      rw [handleReplied h replies, absent]

/- A host that keeps what its callbacks got. A callback asks once more, and then fails. -/
def insistent : Host Nat (List (Nat × Json × Json)) where
  request? _ := none
  notification? _ := none
  answered callback result error := do
    modify fun c => { c with host := c.host ++ [(callback, result, error)] }
    Act.call (.text "again") none (some (callback + 1))
    throw (.failure "no")
  log _ s := .ok s

theorem insistentPerforms (callback : Nat) (result error : Json) (c : Connection Nat (List (Nat × Json × Json))) :
    Performs c [.request c.nextId (some (callback + 1))] ((insistent.answered callback result error).exec c).2 := by
  have asks := callPerforms (.text "again") none (some (callback + 1))
    { c with host := c.host ++ [(callback, result, error)] }
  refine .quiet (d := { c with host := c.host ++ [(callback, result, error)] }) rfl rfl ?_
  simp only [insistent, Act.runBind, Act.runModify]
  split <;> simp_all [Act.runThrow]

theorem insistentOrderly : Orderly insistent :=
  fun callback result error c => ⟨_, insistentPerforms callback result error c⟩

def askedTwice : Connection Nat (List (Nat × Json × Json)) :=
  ((do Act.call (.text "first") none (some 7); Act.call (.text "second") none none : Act _ _ Unit).exec
    { host := [] }).2

theorem askedExchange : Exchange insistent askedTwice [.request 1 (some 7), .request 2 none] :=
  .act (.act (.start []) (callPerforms (.text "first") none (some 7) _)) (callPerforms (.text "second") none none _)

/- The first answer has both an error and a result, and the second one comes again for the same request;
their ids are equal to one without being written so. -/
def firstAnswer : List (Text × Json) := [("id", .bool true), ("result", .int 5), ("error", .text "e")]

def secondAnswer : List (Text × Json) := [("id", .real (.finite false 4503599627370496 (-52))), ("result", .int 6)]

theorem firstCalledOnce :
    Orderly insistent ∧ Exchange insistent askedTwice [.request 1 (some 7), .request 2 none] ∧
    (insistent.handle firstAnswer).exec askedTwice = insistent.called askedTwice (.int 1) 7 firstAnswer ∧
    ((insistent.handle firstAnswer).exec askedTwice).2.host = [(7, .null, .text "e")] ∧
    (insistent.handle secondAnswer).exec ((insistent.handle firstAnswer).exec askedTwice).2 =
      (.ok none, ((insistent.handle firstAnswer).exec askedTwice).2) := by
  have first : Replies firstAnswer (.int 1) := ⟨rfl, rfl, rfl⟩
  have second : Replies secondAnswer (.int 1) := ⟨rfl, rfl, rfl⟩
  have calls := ((answersOnce insistentOrderly askedExchange).2.2.2 firstAnswer _ first).2.1 7
    ⟨[], [.request 2 none], 1, rfl, rfl, by simp⟩
  have did : Performs (settled askedTwice (.int 1)) [.request 3 (some 8)]
      ((insistent.handle firstAnswer).exec askedTwice).2 := by
    rw [calls]
    exact insistentPerforms 7 _ _ (settled askedTwice (.int 1))
  have later := Exchange.reply askedExchange first did
  refine ⟨insistentOrderly, askedExchange, calls, ?_, ?_⟩
  · rw [calls]
    rfl
  · refine ((answersOnce insistentOrderly later).2.2.2 secondAnswer _ second).2.2 ?_
    intro callback awaits
    rw [show [Event.request 1 (some 7), .request 2 none] ++ [.answer (.int 1), .request 3 (some 8)] =
      ([Event.request 1 (some 7), .request 2 none] ++ [.answer (.int 1)]) ++ [.request 3 (some 8)] from rfl,
      awaitsSnoc, awaitsSnoc] at awaits
    simp at awaits

end LanguageService.Host
