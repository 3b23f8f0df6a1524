import LanguageService.Proofs.Disk.Handles
import LanguageService.Proofs.Session.Endings

/-! What a session answers with. The answer to a message that can be written can be written too, whatever the
session holds: the names of documents in it come from the message, and all other texts in it are plain. -/
namespace LanguageService.Session

/- A property of what an action gives, if it gives anything. -/
def Gives {α : Type} (P : α → Prop) (x : Act α) : Prop := ∀ link a after, x.exec link = (.ok a, after) → P a

namespace Gives
variable {α β : Type} {P : α → Prop} {Q : β → Prop}

theorem pure {a : α} (holds : P a) : Gives P (Pure.pure a : Act α) := by
  intro link other after ran
  cases ran
  exact holds

theorem bind {x : Act α} {f : α → Act β} (first : Gives P x) (rest : ∀ a, P a → Gives Q (f a)) :
    Gives Q (x >>= f) := by
  intro link b after ran
  rw [Act.runBind] at ran
  obtain ⟨result, middle, head⟩ : ∃ result middle, x.exec link = (result, middle) := ⟨_, _, rfl⟩
  rw [head] at ran
  cases result with
  | error e => cases ran
  | ok a => exact rest a (first link a middle head) middle b after ran

theorem behind {x : Act α} {f : α → Act β} (rest : ∀ a, Gives Q (f a)) : Gives Q (x >>= f) :=
  bind (P := fun _ => True) (fun _ _ _ _ => trivial) fun a _ => rest a

theorem lift {value : Except Fault α} (holds : ∀ a, value = .ok a → P a) : Gives P (liftM value : Act α) := by
  cases value with
  | error fault => intro _ _ _ ran; cases ran
  | ok a => exact pure (holds a rfl)

theorem tryCatch {x : Act α} {f : Interrupt → Act α} (first : Gives P x) (faults : Faults x)
    (rest : ∀ fault, Gives P (f (.fault fault))) : Gives P (MonadExcept.tryCatch x f) := by
  intro link a after ran
  rw [Act.runTryCatch] at ran
  obtain ⟨result, middle, head⟩ : ∃ result middle, x.exec link = (result, middle) := ⟨_, _, rfl⟩
  have stopped := faults link
  rw [head] at ran stopped
  cases result with
  | ok b =>
    cases ran
    exact first link a after head
  | error e =>
    obtain ⟨fault, rfl⟩ := stopped e rfl
    exact rest fault middle a after ran

theorem guarded (what : String) {fallback : α} {query : Except Fault α} (empty : P fallback)
    (holds : ∀ a, query = .ok a → P a) : Gives P (guarded what fallback query) := by
  cases query with
  | ok answer => exact pure (holds answer rfl)
  | error fault => exact behind fun _ => pure empty

end Gives

abbrev Writes : Act Json → Prop := Gives fun v => v.isScalar = true

theorem lookupScalar {members : List (Text × Json)} {name : Text} (scalar : Json.membersScalar members = true)
    {absent : Json} (plain : absent.isScalar = true) : ((members.lookup name).getD absent).isScalar = true := by
  cases found : members.lookup name with
  | none => exact plain
  | some v =>
    obtain ⟨above, below, rfl, _⟩ := List.lookup_eq_some_iff.mp found
    exact (Json.membersScalarIff.mp scalar (name, v) (by simp)).2

theorem memberScalar {v w absent : Json} {name : Text} (scalar : v.isScalar = true) (plain : absent.isScalar = true)
    (read : v.memberD name absent = .ok w) : w.isScalar = true := by
  cases v with
  | object members =>
    cases read
    exact lookupScalar scalar plain
  | _ => cases read

theorem documentUriScalar {params uri : Json} (scalar : params.isScalar = true) (read : documentUri params = .ok uri) :
    uri.isScalar = true := by
  obtain ⟨document, found, read⟩ := bindGives.mp read
  exact memberScalar (memberScalar scalar rfl found) rfl read

theorem cursorScalar {params : Json} {spot : Cursor} (scalar : params.isScalar = true)
    (read : cursor params = .ok spot) : spot.uri.isScalar = true := by
  obtain ⟨uri, named, read⟩ := bindGives.mp read
  obtain ⟨position, _, read⟩ := bindGives.mp read
  obtain ⟨line, _, read⟩ := bindGives.mp read
  obtain ⟨character, _, read⟩ := bindGives.mp read
  cases read
  exact documentUriScalar scalar named

theorem setUpWrites (params : Json) : Writes (setUp params) := by
  refine .behind fun _ => .behind fun _ => .behind fun _ => .behind fun _ => .behind fun _ => .behind fun _ =>
    .behind fun folders => .behind fun _ => .behind fun _ => .behind fun _ => .behind fun _ => .behind fun _ =>
    .behind fun _ => .pure ?_
  cases folders.isTruthy <;> decide

theorem completionWrites (params : Json) : Writes (completion params) := by
  refine .behind fun spot => .behind fun s =>
    .bind (P := fun items => Json.itemsScalar items = true) ?_ fun items all => ?_
  · refine Gives.guarded _ rfl fun items read => ?_
    obtain ⟨key, _, read⟩ := bindGives.mp read
    cases read
    refine Json.itemsScalarIff.mpr fun item listed => ?_
    simp only [Query.completion, Query.fixedItems, List.mem_append, List.mem_map] at listed
    rcases listed with ((⟨word, _, rfl⟩ | ⟨word, _, rfl⟩) | ⟨word, _, rfl⟩) | ⟨s, _, rfl⟩
    all_goals rfl
  · refine .pure ?_
    simp [Json.isScalar, Json.membersScalar, all, Text.isPlain]

theorem aboutWordWrites (what : String) {params : Json} (scalar : params.isScalar = true)
    {answer : Index → Key → Json → Word → Option Json}
    (written : ∀ index key uri word v, uri.isScalar = true → answer index key uri word = some v → v.isScalar = true) :
    Writes (aboutWord what params answer) := by
  refine .bind (.lift fun spot read => cursorScalar scalar read) fun spot own => .behind fun key => .behind fun s => ?_
  cases s.buffers.get? key with
  | none => exact .pure rfl
  | some b =>
    refine Gives.guarded _ rfl fun v read => ?_
    obtain ⟨found, _, read⟩ := bindGives.mp read
    cases found with
    | none =>
      cases read
      rfl
    | some word =>
      cases read
      cases answered : answer s.index key spot.uri word with
      | none => rfl
      | some v => exact written _ _ _ _ _ own answered

theorem hoverScalar {index : Index} {key : Key} {word : Word} {v : Json}
    (shown : Query.hover? index key word = some v) : v.isScalar = true := by
  obtain ⟨contents, _, rfl⟩ := Option.map_eq_some_iff.mp shown
  obtain ⟨text, line, start, stop⟩ := word
  cases line <;> cases start <;> cases stop <;> rfl

theorem definitionScalar {index : Index} {key : Key} {uri v : Json} {word : Word} (scalar : uri.isScalar = true)
    (found : Query.definition? index key uri word = some v) : v.isScalar = true := by
  obtain ⟨s, _, rfl⟩ := Option.map_eq_some_iff.mp found
  simp [Reply.location, Json.isScalar, Json.membersScalar, scalar, Text.isPlain, Reply.range, Reply.position]

theorem documentSymbolWrites (params : Json) : Writes (documentSymbol params) := by
  refine .behind fun uri => .behind fun s =>
    .bind (P := fun items => Json.itemsScalar items = true) ?_ fun items all => ?_
  · refine Gives.guarded _ rfl fun items read => ?_
    obtain ⟨key, _, read⟩ := bindGives.mp read
    cases read
    refine Json.itemsScalarIff.mpr fun item listed => ?_
    obtain ⟨s, _, rfl⟩ := List.mem_map.mp listed
    rfl
  · exact .pure all

theorem requestWrites {name : Text} {run : Json → Act Json} (found : request? name = some run) {params : Json}
    (scalar : params.isScalar = true) : Writes (run params) := by
  unfold request? at found
  split at found
  · cases found
    exact setUpWrites params
  · cases found
    exact .behind fun _ => .behind fun _ => .pure rfl
  · cases found
    exact completionWrites params
  · cases found
    exact .pure scalar
  · cases found
    exact aboutWordWrites _ scalar fun _ _ _ _ _ _ shown => hoverScalar shown
  · cases found
    exact aboutWordWrites _ scalar fun _ _ _ _ _ own defined => definitionScalar own defined
  · cases found
    exact documentSymbolWrites params
  · cases found

theorem plainScalar {v : Json} (scalar : v.isScalar = true) : v.plain.isPlain = true := by
  cases v with
  | text s => exact scalar
  | _ => rfl

theorem errorScalar {id : Json} (scalar : id.isScalar = true) (code : Int) {text : Text} (plain : text.isPlain = true) :
    (Connection.error id (.ofText code text)).isScalar = true := by
  obtain ⟨s, rfl⟩ := Text.plainText plain
  simp [Connection.error, Connection.version, Refusal.ofText, Refusal.toJson, Json.isNull, Json.isScalar,
    Json.membersScalar, scalar, Text.isPlain]

theorem respondWrites {id method params : Json} (own : id.isScalar = true) (named : method.isScalar = true)
    (scalar : params.isScalar = true) : Writes (host.respond id method params) := by
  refine .bind (P := fun handler => ∀ run, handler = some run → ∃ name, request? name = some run)
    (.lift fun handler read run known => ?_) fun handler known => ?_
  · subst known
    obtain ⟨name, _, found⟩ := Host.handlerFound read
    exact ⟨name, found⟩
  · cases handler with
    | none =>
      obtain ⟨s, plain⟩ := Text.plainText (plainScalar named)
      exact .pure (errorScalar own _ (by rw [plain]; rfl))
    | some run =>
      obtain ⟨name, found⟩ := known run rfl
      refine .tryCatch (.bind (requestWrites found scalar) fun value written => .pure ?_) ?_ fun fault =>
        .behind fun _ => .pure (errorScalar own _ rfl)
      · simp [Connection.result, Connection.version, Json.isScalar, Json.membersScalar, own, written, Text.isPlain]
      · exact faultsBind (requestFaults found params) fun _ => faultsAsking.pure _

theorem parametersScalar {message : Message} (scalar : Json.membersScalar message = true) :
    (Host.parameters message).isScalar = true := by
  have given : ((message.lookup (.plain "params")).getD .null).isScalar = true := lookupScalar scalar rfl
  unfold Host.parameters
  cases held : message.lookup (.plain "params") with
  | none => rfl
  | some v =>
    rw [held] at given
    simp only
    split
    · exact given
    · rfl

theorem stepWrites {message : Message} (scalar : Json.membersScalar message = true) {link after : Link}
    {response : Json} (stepped : step link message = (.ok (some response), after)) : response.isScalar = true := by
  have own : (idOf message).isScalar = true := lookupScalar scalar rfl
  have written : Gives (fun answer => ∀ response, answer = some response → response.isScalar = true)
      (host.handle message) := by
    unfold Host.handle
    cases named : message.lookup (.plain "method") with
    | none =>
      simp only
      split
      · exact .behind fun _ => .pure fun _ none => by cases none
      · refine .pure fun response same => ?_
        cases same
        exact errorScalar own _ rfl
    | some method =>
      simp only
      split
      · exact .behind fun _ => .pure fun _ none => by cases none
      · have plain : ((message.lookup (.plain "method")).getD .null).isScalar = true := lookupScalar scalar rfl
        rw [named] at plain
        refine .bind (respondWrites own plain (parametersScalar scalar)) fun answer holds => .pure fun _ same => ?_
        cases same
        exact holds
  exact written link _ after stepped response rfl

end LanguageService.Session
