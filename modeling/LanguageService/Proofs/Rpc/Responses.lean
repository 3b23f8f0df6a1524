import LanguageService.Proofs.Rpc.Act

/-! Responses. Whatever handlers a host has and however they end, a request is answered once, under its
own id and with a result or an error, and a notification is not answered: the only thing that leaves it
is an exit. -/
namespace LanguageService.Host
variable {κ σ : Type}

/- What counts as no parameters at all. -/
inductive Void : Json → Prop where
  | null : Void .null
  | no : Void (.bool false)
  | zero : Void (.int 0)
  | real {x : Double} (zero : x.isZero = true) : Void (.real x)
  | text : Void (.text "")
  | list : Void (.list [])
  | object : Void (.object [])

theorem voidIff {v : Json} : Void v ↔ v.isTruthy = false := by
  constructor
  · intro void
    cases void with
    | real zero => simp [Json.isTruthy, zero]
    | _ => rfl
  · intro nothing
    cases v with
    | null => exact .null
    | bool b =>
      cases b with
      | false => exact .no
      | true => cases nothing
    | int n =>
      obtain rfl : n = 0 := by simpa [Json.isTruthy] using nothing
      exact .zero
    | real x => exact .real (by simpa [Json.isTruthy] using nothing)
    | text s =>
      obtain rfl : s = "" := by simpa [Json.isTruthy] using nothing
      exact .text
    | list items =>
      obtain rfl : items = [] := by simpa [Json.isTruthy] using nothing
      exact .list
    | object members =>
      obtain rfl : members = [] := by simpa [Json.isTruthy] using nothing
      exact .object

/- The parameters that reach a handler. -/
inductive Passes (message : List (Text × Json)) : Json → Prop where
  | absent (missing : message.lookup (.plain "params") = none) : Passes message (.object [])
  | void {v} (given : message.lookup (.plain "params") = some v) (void : Void v) : Passes message (.object [])
  | given {v} (given : message.lookup (.plain "params") = some v) (filled : ¬ Void v) : Passes message v

theorem passesParameters {message : List (Text × Json)} {params : Json} (passes : Passes message params) :
    parameters message = params := by
  unfold parameters
  cases passes with
  | absent missing => rw [missing]
  | void given void => simp only [given, voidIff.mp void, Bool.false_eq_true, if_false]
  | given given filled =>
    rw [voidIff, Bool.not_eq_false] at filled
    simp only [given, filled, if_true]

def response (id : Json) (member : Text × Json) : Json :=
  .object [("jsonrpc", .text "2.0"), ("id", id), member]

def inWords (code : Int) (message : Text) : Json :=
  .object [("code", .int code), ("message", .text message)]

/- How a request ends, as the one member of its response that tells it and the lines that it leaves in
the log. The handler returned, refused with an integer for a code, or failed. -/
inductive Tells (name : Text) : Except Interrupt Json → Text × Json → List Text → Prop where
  | value (v : Json) : Tells name (.ok v) ("result", v) []
  | bare {code n} (number : code.toInteger = .ok n) (text : Json) :
      Tells name (.error (.refusal code text .null)) ("error", .object [("code", .int n), ("message", text)]) []
  | detailed {code n data} (number : code.toInteger = .ok n) (text : Json) (some : data ≠ .null) :
      Tells name (.error (.refusal code text data))
        ("error", .object [("code", .int n), ("message", text), ("data", data)]) []
  | faulted (fault : Fault) :
      Tells name (.error (.fault fault)) ("error", inWords (-32603) fault.message)
        ["Error handling " ++ name ++ ": " ++ fault.message]
  | failed (text : Text) :
      Tells name (.error (.failure text)) ("error", inWords (-32603) text) ["Error handling " ++ name ++ ": " ++ text]

def Ordinary (name : Text) (ended : Except Interrupt Json) : Prop :=
  ∃ member lines, Tells name ended member lines

/- A log that takes every line. -/
def Takes (h : Host κ σ) (log : Text → σ → σ) : Prop := ∀ line s, h.log line s = .ok (log line s)

def noted (log : Text → σ → σ) (c : Connection κ σ) (lines : List Text) : Connection κ σ :=
  { c with host := lines.foldl (fun s line => log line s) c.host }

theorem loggedTaken {h : Host κ σ} {log : Text → σ → σ} (takes : Takes h log) {α : Type} (line : Text) (answer : α)
    (c : Connection κ σ) : h.logged line answer c = (.ok answer, noted log c [line]) := by
  rw [logged, takes]
  rfl

theorem refusalBare (n : Int) (text : Json) :
    Refusal.toJson ⟨n, text, .null⟩ = .object [("code", .int n), ("message", text)] := rfl

theorem refusalDetailed (n : Int) (text : Json) {data : Json} (some : data ≠ .null) :
    Refusal.toJson ⟨n, text, data⟩ = .object [("code", .int n), ("message", text), ("data", data)] := by
  cases data with
  | null => exact absurd rfl some
  | _ => rfl

theorem isNullFalse {id : Json} (asked : id ≠ .null) : id.isNull = false := by
  cases id with
  | null => exact absurd rfl asked
  | _ => rfl

theorem isNullTrue {id : Json} : id.isNull = true ↔ id = .null := by
  cases id <;> simp [Json.isNull]

section Request
variable {h : Host κ σ} {log : Text → σ → σ} {message : List (Text × Json)} {name : Text} {id : Json}
  (named : message.lookup (.plain "method") = some (.text name)) (identified : message.lookup (.plain "id") = some id)
  (asked : id ≠ .null) (c : Connection κ σ)
include named identified asked

theorem handleTold (takes : Takes h log) {run : Json → Act κ σ Json} {params : Json} (passes : Passes message params)
    (found : h.request? name = some run) {member : Text × Json} {lines : List Text}
    (tells : Tells name ((run params).exec c).1 member lines) :
    (h.handle message).exec c =
      (.ok (some (response id member)), noted log ((run params).exec c).2 lines) := by
  have sought : ((message.lookup (.plain "id")).getD .null).isNull = false := by
    rw [identified]
    exact isNullFalse asked
  have requested := handleRequested named sought found c
  rw [passesParameters passes, identified] at requested
  obtain ⟨result, after, ran⟩ : ∃ result after, (run params).exec c = (result, after) := ⟨_, _, rfl⟩
  rw [ran] at requested tells ⊢
  rw [requested]
  cases tells with
  | value v => rfl
  | bare number text =>
    simp only [number, Connection.error, refusalBare]
    rfl
  | detailed number text some =>
    simp only [number, Connection.error, refusalDetailed _ _ some]
    rfl
  | faulted fault => exact loggedTaken takes _ _ _
  | failed text => exact loggedTaken takes _ _ _

theorem handleUnregistered (unknown : h.request? name = none) :
    (h.handle message).exec c =
      (.ok (some (response id ("error", inWords (-32601) ("Method not found: " ++ name)))), c) := by
  have looked : handler? h.request? (.text name) = .ok none := congrArg Except.ok unknown
  simp only [handle, named, identified, Option.getD_some, isNullFalse asked, Bool.false_eq_true, if_false, respond,
    looked, Act.runBind, Act.runLiftOk, Act.runPure]
  rfl

end Request

section Notification
variable {h : Host κ σ} {log : Text → σ → σ} (takes : Takes h log) {message : List (Text × Json)} {name : Text}
  (named : message.lookup (.plain "method") = some (.text name))
  (silent : (message.lookup (.plain "id")).getD .null = .null) (c : Connection κ σ)
include takes named silent

theorem handleUnnoticed (unknown : h.notification? name = none) :
    ((h.handle message).exec c).1 = .ok none := by
  have looked : handler? h.notification? (.text name) = .ok none := congrArg Except.ok unknown
  simp only [handle, named, isNullTrue.mpr silent, if_true, notify, looked, Act.runBind, Act.runLiftOk]
  cases isOptional name with
  | true => rfl
  | false => simp only [Bool.false_eq_true, if_false, runNote, loggedTaken takes, Act.runPure]

theorem handleNoticed {run : Json → Act κ σ Unit} {params : Json} (passes : Passes message params)
    (found : h.notification? name = some run) :
    ((h.handle message).exec c).1 = match ((run params).exec c).1 with
      | .error (.exit code) => .error (.exit code)
      | _ => .ok none := by
  rw [handleNotified named (isNullTrue.mpr silent) found c, passesParameters passes]
  obtain ⟨result, after, ran⟩ : ∃ result after, (run params).exec c = (result, after) := ⟨_, _, rfl⟩
  rw [ran]
  match result with
  | .ok () => rfl
  | .error (.exit code) => rfl
  | .error (.fault fault) => exact congrArg Prod.fst (loggedTaken takes _ _ _)
  | .error (.failure text) => exact congrArg Prod.fst (loggedTaken takes _ _ _)
  | .error (.refusal code text data) => exact congrArg Prod.fst (loggedTaken takes _ _ _)

theorem noticeEscapes {params : Json} (passes : Passes message params) (interrupt : Interrupt) :
    ((h.handle message).exec c).1 = .error interrupt ↔
      ∃ run code, h.notification? name = some run ∧ ((run params).exec c).1 = .error (.exit code) ∧
        interrupt = .exit code := by
  cases found : h.notification? name with
  | none => simp [handleUnnoticed takes named silent c found]
  | some run =>
    rw [handleNoticed takes named silent c passes found]
    split
    · rename_i code left
      simp [left, eq_comm]
    · rename_i stays
      simpa using fun code left => absurd left (stays code)

theorem noticeUnanswered {params : Json} (passes : Passes message params) {answer : Option Json}
    (answered : ((h.handle message).exec c).1 = .ok answer) : answer = none := by
  cases found : h.notification? name with
  | none =>
    rw [handleUnnoticed takes named silent c found] at answered
    exact (Except.ok.inj answered).symm
  | some run =>
    rw [handleNoticed takes named silent c passes found] at answered
    split at answered
    · cases answered
    · exact (Except.ok.inj answered).symm

end Notification

theorem answersRequestsOnly {h : Host κ σ} {log : Text → σ → σ} (takes : Takes h log)
    {message : List (Text × Json)} {name : Text} {params : Json}
    (named : message.lookup (.plain "method") = some (.text name)) (passes : Passes message params)
    (c : Connection κ σ) :
    (∀ id, message.lookup (.plain "id") = some id → id ≠ .null →
      (h.request? name = none →
        (h.handle message).exec c =
          (.ok (some (response id ("error", inWords (-32601) ("Method not found: " ++ name)))), c)) ∧
      ∀ run, h.request? name = some run → Ordinary name ((run params).exec c).1 →
        ∃ member lines, Tells name ((run params).exec c).1 member lines ∧
          (h.handle message).exec c =
            (.ok (some (response id member)), noted log ((run params).exec c).2 lines)) ∧
    ((message.lookup (.plain "id")).getD .null = .null →
      (∀ answer, ((h.handle message).exec c).1 = .ok answer → answer = none) ∧
      ∀ interrupt, ((h.handle message).exec c).1 = .error interrupt ↔
        ∃ run code, h.notification? name = some run ∧ ((run params).exec c).1 = .error (.exit code) ∧
          interrupt = .exit code) := by
  refine ⟨fun id identified asked => ⟨?_, ?_⟩, fun silent => ⟨?_, ?_⟩⟩
  · exact handleUnregistered named identified asked c
  · rintro run found ⟨member, lines, tells⟩
    exact ⟨member, lines, tells, handleTold named identified asked c takes passes found tells⟩
  · exact fun answer answered => noticeUnanswered takes named silent c passes answered
  · exact noticeEscapes takes named silent c passes

/- A host whose one request handler refuses everything and hands its parameters back, and whose one
notification handler exits. -/
def sullen : Host Unit (List Text) where
  request? name := if name = "fail" then some fun params => throw (.refusal (.int 7) (.text "no") params) else none
  notification? name := if name = "quit" then some fun _ => throw (.exit (.int 3)) else none
  answered _ _ _ := pure ()
  log line lines := .ok (lines ++ [line])

def idle : Connection Unit (List Text) := { host := [] }

def failing : List (Text × Json) := [("id", .text "a"), ("method", .text "fail"), ("params", .list [])]

def quitting (id : Json) : List (Text × Json) := [("id", id), ("method", .text "quit")]

/- An empty list for parameters is handed back as an empty object; a method that is only one of
notifications is not found for a request, and as a notification it exits. -/
theorem sullenAnswers :
    Takes sullen (fun line lines => lines ++ [line]) ∧
    Passes failing (.object []) ∧ Passes (quitting .null) (.object []) ∧
    (sullen.handle failing).exec idle = (.ok (some (response (.text "a") ("error", .object [("code", .int 7),
      ("message", .text "no"), ("data", .object [])]))), idle) ∧
    (sullen.handle (quitting (.int 0))).exec idle =
      (.ok (some (response (.int 0) ("error", inWords (-32601) "Method not found: quit"))), idle) ∧
    ((sullen.handle (quitting .null)).exec idle).1 = .error (.exit (.int 3)) := by
  have takes : Takes sullen (fun line lines => lines ++ [line]) := fun _ _ => rfl
  have listed : Passes failing (.object []) := .void rfl .list
  have missing (id : Json) : Passes (quitting id) (.object []) := .absent rfl
  have refused : Tells "fail" (.error (.refusal (.int 7) (.text "no") (.object [])))
      ("error", .object [("code", .int 7), ("message", .text "no"), ("data", .object [])]) [] :=
    .detailed rfl _ (by simp)
  refine ⟨takes, listed, missing _, ?_, ?_, ?_⟩
  · have answered := ((answersRequestsOnly takes rfl listed idle).1 _ rfl (by simp)).2 _ rfl ⟨_, _, refused⟩
    obtain ⟨member, lines, tells, ran⟩ := answered
    cases tells with
    | detailed number =>
      cases number
      exact ran
  · exact ((answersRequestsOnly takes rfl (missing _) idle).1 (.int 0) rfl (by simp)).1 rfl
  · exact (((answersRequestsOnly takes rfl (missing _) idle).2 rfl).2 _).mpr ⟨_, _, rfl, rfl, rfl⟩

end LanguageService.Host
