import LanguageService.Proofs.Wire.Lengths

/-! A stream of written messages that is cut off somewhere. The frames before the cut are read, and the part of
a frame that is left gives no message: its header has no end, or it announces more bytes than there are. -/
namespace LanguageService.Frame
open Text.Utf8 (encodeChars decodeAscii)

/- Reading on and on, past refusals: the messages up to the end of the stream, or up to a length that no read
can take and that ends the reading. -/
def drain (room : Room) (input : List UInt8) : List (List (Text × Json)) × Option LengthFault :=
  match input with
  | [] => ([], none)
  | b :: bytes =>
    match (read room (b :: bytes)).1 with
    | .message members =>
      let (others, ending) := drain room (read room (b :: bytes)).2
      (members :: others, ending)
    | .refused _ _ => drain room (read room (b :: bytes)).2
    | .badLength fault => ([], some fault)
    | .closed => ([], none)
termination_by input.length
decreasing_by all_goals exact Nat.lt_succ_of_le (readLength room b bytes)

theorem readNothing (room : Room) : read room [] = (.closed, []) := by simp [read, headers]

theorem drainRead (room : Room) (input : List UInt8) :
    drain room input = match read room input with
      | (.message members, rest) => (members :: (drain room rest).1, (drain room rest).2)
      | (.refused _ _, rest) => drain room rest
      | (.badLength fault, _) => ([], some fault)
      | (.closed, _) => ([], none) := by
  cases input with
  | nil => rw [readNothing, drain]
  | cons b bytes =>
    rw [drain]
    rcases read room (b :: bytes) with ⟨_ | _ | _ | _, rest⟩ <;> rfl

theorem drainNothing (room : Room) : drain room [] = ([], none) := by rw [drain]

/- A single line is no block of headers. -/
theorem drainLine {row : List UInt8} (leads : Leads row []) (room : Room) : drain room row = ([], none) := by
  have ended (announced : Option Int) : headers announced [] = (.closed, []) := by rw [headers]
  have header := headersLeads leads none
  rw [List.append_nil] at header
  have ends : headers none row = (.closed, []) ∨
      ∃ code message, headers none row = (.refused code message, []) := by
    rw [header]
    cases line row with
    | blank => exact .inr ⟨_, _, rfl⟩
    | length n => exact .inl (ended _)
    | invalidLength text => exact .inr ⟨_, _, rfl⟩
    | other => exact .inl (ended _)
  rcases ends with closed | ⟨code, message, refused⟩
  · rw [drainRead, read, closed]
  · rw [drainRead, read, refused]
    exact drainNothing room

theorem drainShort {input left : List UInt8} {n : Nat} (header : headers none input = (.length n, left))
    (short : left.length < n) (room : Room) : drain room input = ([], lengthFault? room n left.length) := by
  have natural : ¬ (n : Int) = -1 := by omega
  rw [drainRead, read, header]
  cases fault : lengthFault? room n left.length with
  | some fault => simp only [fault]
  | none => simp only [fault, if_neg natural, Int.toNat_natCast, if_pos short]

/- Whether there is room for a body of so many bytes. -/
def Room.Holds (room : Room) (n : Nat) : Prop := n ≤ room.run ∧ n ≤ room.memory ∧ n < wordBound

theorem faultLarge {room : Room} {n available : Nat} {fault : LengthFault}
    (failed : lengthFault? room n available = some fault) : ¬ room.Holds n := by
  have word : 0 ≤ wordBound := by decide
  rintro ⟨run, memory, bound⟩
  cases lengthFaultIff.mp failed <;> omega

theorem rowTake {row : List UInt8} (whole : Row row) {k : Nat} (positive : 0 < k) : Leads (row.take k) [] := by
  rcases Nat.lt_or_ge k row.length with short | long
  · obtain ⟨front, rfl, fed⟩ := whole
    have inside : k ≤ front.length := by
      rw [List.length_append, List.length_singleton] at short
      omega
    rw [List.take_append_of_le_length inside]
    refine .inr ⟨?_, fun member => fed (List.mem_of_mem_take member), rfl⟩
    exact List.ne_nil_of_length_pos (by rw [List.length_take]; omega)
  · rw [List.take_of_length_le long]
    exact .inl whole

theorem headersTitled (n : Nat) {row left : List UInt8} (leads : Leads row left)
    (blank : Text.Blank (decodeAscii row)) : headers none (titleRow n ++ (row ++ left)) = (.length n, left) := by
  rw [headersLeads (.inl (titleRowWhole n)), lineAnnounces (titleRowAnnounces n)]
  simp only
  rw [headersLeads leads, lineBlank blank]
  rfl

/- A cut behind the title. A carriage return alone is a blank line too, and then nothing is left of the body. -/
theorem headersTorn {bytes : List UInt8} (filled : 0 < bytes.length) {k : Nat} (positive : 0 < k)
    (short : k < bytes.length + 2) :
    ∃ left, headers none (titleRow bytes.length ++ ([13, 10] ++ bytes).take k) = (.length bytes.length, left) ∧
      left.length < bytes.length := by
  have carriage : Leads [13] [] := .inr ⟨List.cons_ne_nil _ _, by decide, rfl⟩
  have ended (left : List UInt8) : Leads [13, 10] left := .inl ⟨[13], rfl, by decide⟩
  match k, positive, short with
  | 1, _, _ => exact ⟨[], headersTitled _ carriage (by decide), filled⟩
  | k + 2, _, short =>
    refine ⟨bytes.take k, headersTitled _ (ended _) (by decide), ?_⟩
    rw [List.length_take]
    omega

def bodyBytes (members : List (Text × Json)) : List UInt8 := encodeChars (Json.written (.object members))

theorem bodyFilled (members : List (Text × Json)) : 0 < (bodyBytes members).length := by
  rw [bodyBytes, Json.writtenObject, encodeChars, List.flatMap_cons, List.length_append]
  exact Nat.add_pos_left (by decide) _

theorem drainTorn {members : List (Text × Json)} {frame : List UInt8} (written : write (.object members) = .ok frame)
    (scalar : (Json.object members).isScalar = true) {k : Nat} (short : k < frame.length) (room : Room) :
    (drain room (frame.take k)).1 = [] ∧
      ∀ fault, (drain room (frame.take k)).2 = some fault → ¬ room.Holds (bodyBytes members).length := by
  obtain rfl : titleRow (bodyBytes members).length ++ ([13, 10] ++ bodyBytes members) = frame := by
    rw [writeParts scalar, titleRowEnded, List.append_assoc, Except.ok.injEq] at written
    exact written
  rcases Nat.lt_or_ge (titleRow (bodyBytes members).length).length k with behind | within
  · obtain ⟨j, rfl⟩ : ∃ j, k = (titleRow (bodyBytes members).length).length + j :=
      ⟨k - (titleRow (bodyBytes members).length).length, by omega⟩
    simp only [List.length_append, List.length_cons, List.length_nil] at short
    have positive : 0 < j := by omega
    obtain ⟨left, header, less⟩ := headersTorn (bodyFilled members) positive (by omega)
    rw [List.take_length_add_append, drainShort header less]
    exact ⟨rfl, fun fault failed => faultLarge failed⟩
  · -- the cut is in the title, or right behind it
    rw [List.take_append_of_le_length within]
    have nothing : drain room ((titleRow (bodyBytes members).length).take k) = ([], none) := by
      rcases Nat.eq_zero_or_pos k with rfl | positive
      · exact drainNothing room
      · exact drainLine (rowTake (titleRowWhole _) positive) room
    simp [nothing]

theorem drainWritten {members : List (Text × Json)} (faithful : Json.Exact (.object members)) {frame : List UInt8}
    (written : write (.object members) = .ok frame) (room : Room) (rest : List UInt8) :
    drain room (frame ++ rest) = (members :: (drain room rest).1, (drain room rest).2) := by
  rw [drainRead, readWritten faithful written]

theorem truncatedWhole {messages : List (List (Text × Json))}
    (faithful : ∀ members ∈ messages, Json.Exact (.object members)) {bytes : List UInt8}
    (streams : Streams messages bytes) (room : Room) (k : Nat) :
    ∃ n ≤ messages.length, (drain room (bytes.take k)).1 = messages.take n ∧
      (∀ i < messages.length, ∀ part, Streams (messages.take (i + 1)) part → (i < n ↔ part.length ≤ k)) ∧
      ∀ fault, (drain room (bytes.take k)).2 = some fault →
        ∃ members, messages[n]? = some members ∧ ¬ room.Holds (bodyBytes members).length := by
  induction streams generalizing k with
  | none => exact ⟨0, Nat.le_refl 0, by simp [drainNothing]⟩
  | @next members others frame rest written tail ih =>
    obtain ⟨first, later⟩ := List.forall_mem_cons.mp faithful
    have parts {part} {i : Nat} (streams : Streams ((members :: others).take (i + 1)) part) :
        ∃ more, Streams (others.take i) more ∧ part = frame ++ more := by
      rw [List.take_succ_cons] at streams
      cases streams with
      | next again more =>
        rw [written, Except.ok.injEq] at again
        exact ⟨_, more, by rw [again]⟩
    rcases Nat.lt_or_ge k frame.length with short | long
    · obtain ⟨nothing, failed⟩ := drainTorn written (Json.exactScalar first) short room
      rw [List.take_append_of_le_length (Nat.le_of_lt short)]
      refine ⟨0, Nat.zero_le _, nothing, fun i _ part streams => ?_,
        fun fault ended => ⟨members, rfl, failed fault ended⟩⟩
      obtain ⟨more, _, rfl⟩ := parts streams
      rw [List.length_append]
      omega
    · obtain ⟨j, rfl⟩ : ∃ j, k = frame.length + j := ⟨k - frame.length, by omega⟩
      obtain ⟨n, few, messages, within, failed⟩ := ih later j
      rw [List.take_length_add_append, drainWritten first written]
      refine ⟨n + 1, Nat.succ_le_succ few, ?_, fun i inside part whole => ?_, failed⟩
      · rw [messages, List.take_succ_cons]
      · obtain ⟨more, behind, rfl⟩ := parts whole
        rw [List.length_append]
        cases i with
        | zero =>
          cases behind
          simp
        | succ i =>
          have same := within i (Nat.lt_of_succ_lt_succ inside) more behind
          omega

def sampleFrame (members : List (Text × Json)) : List UInt8 := (write (.object members)).toOption.getD []

theorem sampleStreams : Streams sampleMessages (sampleMessages.flatMap sampleFrame) :=
  .next rfl (.next rfl .none)

/- The last byte is missing, the closing brace of the second message. -/
theorem sampleTruncated :
    (∀ members ∈ sampleMessages, Json.Exact (.object members)) ∧
    Streams sampleMessages (sampleMessages.flatMap sampleFrame) ∧
    drain ⟨1000, 1000⟩ ((sampleMessages.flatMap sampleFrame).take 145) = (sampleMessages.take 1, none) := by
  obtain ⟨n, _, messages, within, failed⟩ := truncatedWhole sampleExact sampleStreams ⟨1000, 1000⟩ 145
  have whole : ((sampleMessages.take 1).flatMap sampleFrame).length ≤ 145 := by decide +kernel
  have torn : ¬ ((sampleMessages.take 2).flatMap sampleFrame).length ≤ 145 := by decide +kernel
  have first := (within 0 (by decide) _ (.next rfl .none)).mpr whole
  have second := mt (within 1 (by decide) _ sampleStreams).mp torn
  obtain rfl : n = 1 := by omega
  have ended : (drain ⟨1000, 1000⟩ ((sampleMessages.flatMap sampleFrame).take 145)).2 = none := by
    rw [Option.eq_none_iff_forall_ne_some]
    intro fault stopped
    obtain ⟨members, here, large⟩ := failed fault stopped
    cases here
    exact large ⟨by decide +kernel, by decide +kernel, by decide +kernel⟩
  exact ⟨sampleExact, sampleStreams, Prod.ext messages ended⟩

end LanguageService.Frame
