import LanguageService.Proofs.Wire.Stream

/-! Lengths that no read can take. A block of headers announces the last length that its lines give, in
any spelling of an integer, and a read asks the stream for as many bytes. A length below minus one, or
one beyond all that the machine holds, is not refused like other malformed headers: the read fails. -/
namespace LanguageService.Frame
open Text (Blank)
open Text.Utf8 (decodeAscii)

def Gives (n : Int) (line : List Char) : Prop :=
  ∃ value, Titled line (':' :: value) ∧ Number.integer? (Text.trim value) = some n

theorem bareParts {text : List Char} (titled : Titled text []) : (headerParts (Text.trim text)).2 = [] := by
  obtain ⟨front, name, back, rfl, before, behind, lower⟩ := titled
  have chars : ∀ c ∈ name, (c != ':') = true := fun c member => ((nameChars lower).2 c member).2
  have none : (name ++ []).dropWhile (· != ':') = [] := Text.dropFront chars (by simp)
  rw [List.append_nil] at none
  rw [List.append_nil, trimName lower before behind, headerParts, none]
  rfl

theorem lineGives {bytes : List UInt8} {n : Int} : line bytes = .length n ↔ Gives n (decodeAscii bytes) := by
  constructor
  · intro gives
    simp only [line] at gives
    split at gives
    · cases gives
    split at gives
    · rename_i known
      split at gives
      · rename_i m spelled
        cases gives
        rcases knownTitled known with bare | ⟨value, named⟩
        · rw [bareParts bare] at spelled
          cases spelled
        · obtain ⟨label, kept, tail, parts, _, rfl, blank⟩ := titledParts named
          rw [parts] at spelled
          exact ⟨_, named, by rw [Text.trimTail kept blank]; exact spelled⟩
      · cases gives
    · cases gives
  · rintro ⟨value, named, spelled⟩
    obtain ⟨label, kept, tail, parts, known, rfl, blank⟩ := titledParts named
    rw [Text.trimTail kept blank] at spelled
    have written : (Text.trim (decodeAscii bytes)).isEmpty = false :=
      knownFilled (by rw [parts]; exact known)
    simp only [line, parts, written, known, spelled, Bool.false_eq_true, if_false, if_true]

theorem blankLine {bytes : List UInt8} : line bytes = .blank ↔ Blank (decodeAscii bytes) := by
  refine ⟨fun blank => ?_, lineBlank⟩
  simp only [line] at blank
  split at blank
  · rename_i none
    exact Text.trimNil.mp (List.isEmpty_iff.mp none)
  split at blank
  · split at blank <;> cases blank
  · cases blank

/- A block of headers at the head of a stream, with the length announced before it, the length that it
announces in the end, and what is left behind it. -/
inductive Block : Option Int → List UInt8 → Int → List UInt8 → Prop where
  | ended {n row rest} (leads : Leads row rest) (blank : Blank (decodeAscii row)) :
      Block (some n) (row ++ rest) n rest
  | length {announced m n row input rest} (leads : Leads row input) (gives : Gives m (decodeAscii row))
      (others : Block (some m) input n rest) : Block announced (row ++ input) n rest
  | other {announced n row input rest} (leads : Leads row input) (foreign : Foreign (decodeAscii row))
      (others : Block announced input n rest) : Block announced (row ++ input) n rest

theorem blockHeaders {announced : Option Int} {input : List UInt8} {n : Int} {rest : List UInt8}
    (block : Block announced input n rest) : headers announced input = (.length n, rest) := by
  induction block with
  | ended leads blank =>
    rw [headersLeads leads, blankLine.mpr blank]
    rfl
  | length leads gives others ih =>
    rw [headersLeads leads, lineGives.mpr gives]
    exact ih
  | other leads foreign others ih =>
    rw [headersLeads leads, lineOther.mpr foreign]
    exact ih

theorem headersAnnounce {announced : Option Int} {input : List UInt8} {n : Int} {rest : List UInt8}
    (read : headers announced input = (.length n, rest)) : Block announced input n rest := by
  -- the recursion of the reader: each line is taken off, and the rest is a block for what it announced
  fun_induction headers announced input with
  | case1 => cases read
  | case2 announced b bytes blank =>
    obtain ⟨same, leads⟩ := cutLineLeads (List.cons_ne_nil b bytes)
    cases announced with
    | none => cases read
    | some m =>
      have block : Block (some m) _ m _ := .ended leads (blankLine.mp blank)
      rw [same] at block
      cases read
      exact block
  | case3 announced b bytes m gives ih =>
    obtain ⟨same, leads⟩ := cutLineLeads (List.cons_ne_nil b bytes)
    rw [← same]
    exact .length leads (lineGives.mp gives) (ih read)
  | case4 => cases read
  | case5 announced b bytes other ih =>
    obtain ⟨same, leads⟩ := cutLineLeads (List.cons_ne_nil b bytes)
    rw [← same]
    exact .other leads (lineOther.mp other) (ih read)

/- Lengths that the stream cannot be asked for while so many bytes are there. -/
inductive Unreadable (room : Room) (available : Nat) (n : Int) : LengthFault → Prop where
  | negative (least : -wordBound ≤ n) (below : n < -1) : Unreadable room available n .negative
  | below (least : n < -wordBound) : Unreadable room available n .wordSize
  | memory (short : available < n) (many : room.memory < n) (run : n ≤ room.run) (most : n < wordBound) :
      Unreadable room available n .memory
  | bytes (short : available < n) (many : room.run < n) (most : n < wordBound) :
      Unreadable room available n .bytesSize
  | above (short : available < n) (many : wordBound ≤ n) : Unreadable room available n .wordSize

theorem lengthFaultIff {room : Room} {n : Int} {available : Nat} {fault : LengthFault} :
    lengthFault? room n available = some fault ↔ Unreadable room available n fault := by
  have word : 0 < wordBound := by decide
  unfold lengthFault?
  constructor
  · intro failed
    repeat' split at failed
    all_goals cases failed
    · exact .below (by omega)
    · exact .negative (by omega) (by omega)
    · exact .above (by omega) (by omega)
    · exact .bytes (by omega) (by omega) (by omega)
    · exact .memory (by omega) (by omega) (by omega) (by omega)
  · intro unreadable
    cases unreadable with
    | negative least below => rw [if_neg (by omega), if_pos (by omega)]
    | below least => rw [if_pos (by omega)]
    | memory short many run most =>
      rw [if_neg (by omega), if_neg (by omega), if_neg (by omega), if_neg (by omega), if_neg (by omega),
        if_pos (by omega)]
    | bytes short many most =>
      rw [if_neg (by omega), if_neg (by omega), if_neg (by omega), if_neg (by omega), if_pos (by omega)]
    | above short many => rw [if_neg (by omega), if_neg (by omega), if_neg (by omega), if_pos (by omega)]

theorem bodySound (bytes : List UInt8) (fault : LengthFault) : body bytes ≠ .badLength fault := by
  unfold body
  split
  · exact Outcome.noConfusion
  · split <;> exact Outcome.noConfusion

theorem readFails {room : Room} {input rest : List UInt8} {fault : LengthFault} :
    read room input = (.badLength fault, rest) ↔
      ∃ n, Block none input n rest ∧ Unreadable room rest.length n fault := by
  constructor
  · intro failed
    unfold read at failed
    split at failed
    · cases failed
    · cases failed
    · rename_i n left announced
      split at failed
      · rename_i cause found
        cases failed
        exact ⟨n, headersAnnounce announced, lengthFaultIff.mp found⟩
      · repeat' split at failed
        · exact absurd (congrArg Prod.fst failed) (bodySound _ _)
        · cases failed
        · exact absurd (congrArg Prod.fst failed) (bodySound _ _)
  · rintro ⟨n, block, unreadable⟩
    rw [read, blockHeaders block]
    simp only [lengthFaultIff.mpr unreadable]

/- The codes under which the reader refuses. -/
def Reported (code : Int) : Prop := code = Refusal.parseError ∨ code = Refusal.invalidRequest

theorem headersReported {announced : Option Int} {input rest : List UInt8} {code : Int} {message : String}
    (refused : headers announced input = (.refused code message, rest)) : Reported code := by
  fun_induction headers announced input with
  | case1 => cases refused
  | case2 announced b bytes blank =>
    cases announced with
    | none =>
      cases refused
      exact .inl rfl
    | some n => cases refused
  | case3 announced b bytes n gives ih => exact ih refused
  | case4 =>
    cases refused
    exact .inl rfl
  | case5 announced b bytes other ih => exact ih refused

theorem bodyReported {bytes : List UInt8} {code : Int} {message : String}
    (refused : body bytes = .refused code message) : Reported code := by
  unfold body at refused
  split at refused
  · cases refused
    exact .inl rfl
  split at refused <;> cases refused
  · exact .inl rfl
  · exact .inr rfl

theorem readReported {room : Room} {input rest : List UInt8} {code : Int} {message : String}
    (refused : read room input = (.refused code message, rest)) : Reported code := by
  unfold read at refused
  split at refused
  · cases refused
  · rename_i found
    cases refused
    exact headersReported found
  · repeat' split at refused
    · cases refused
    · exact bodyReported (congrArg Prod.fst refused)
    · cases refused
    · exact bodyReported (congrArg Prod.fst refused)

end LanguageService.Frame
