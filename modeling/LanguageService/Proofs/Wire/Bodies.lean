import LanguageService.Proofs.Wire.Stream

/-! Frames whose bodies hold any bytes. What a body comes to is told by its own bytes, and a read takes
one block of headers and the body behind it: the frames before a bad body and those after it are read as
if it were a good one. -/
namespace LanguageService.Frame
open Text.Utf8 (encodeChars decodeChars)

inductive Tells (bytes : List UInt8) : Outcome → Prop where
  | message {cs : List Char} {members : List (Text × Json)} : encodeChars cs = bytes →
    Json.parseChars cs = .ok (.object members) → Tells bytes (.message members)
  | other {cs : List Char} {value : Json} : encodeChars cs = bytes → Json.parseChars cs = .ok value →
    (∀ members, value ≠ .object members) →
    Tells bytes (.refused Refusal.invalidRequest "Message must be a JSON object")
  | malformed {cs : List Char} {fault : Json.ParseFault} : encodeChars cs = bytes →
    Json.parseChars cs = .error fault →
    Tells bytes (.refused Refusal.parseError ("Invalid JSON: " ++ fault.message))
  | binary {fault : Text.Utf8.Fault} : (∀ cs, encodeChars cs ≠ bytes) → decodeChars bytes = .error fault →
    Tells bytes (.refused Refusal.parseError ("Invalid JSON: " ++ fault.message))

theorem bodyTells (bytes : List UInt8) : Tells bytes (body bytes) := by
  unfold body
  cases decoded : decodeChars bytes with
  | error fault =>
    refine .binary (fun cs encoded => ?_) decoded
    rw [Text.Utf8.decodeIff.mpr encoded] at decoded
    cases decoded
  | ok cs =>
    have encoded := Text.Utf8.decodeIff.mp decoded
    simp only
    split
    · exact .malformed encoded (by assumption)
    · exact .message encoded (by assumption)
    · rename_i value plain parsed
      exact .other encoded parsed plain

theorem tellsBody {bytes : List UInt8} {outcome : Outcome} (tells : Tells bytes outcome) :
    body bytes = outcome := by
  unfold body
  cases tells with
  | message encoded parsed => simp only [Text.Utf8.decodeIff.mpr encoded, parsed]
  | malformed encoded parsed => simp only [Text.Utf8.decodeIff.mpr encoded, parsed, invalidJson]
  | binary _ decoded => simp only [decoded, invalidJson]
  | other encoded parsed plain => simp only [Text.Utf8.decodeIff.mpr encoded, parsed]

/- Frames one after another, each a block of headers and a body. -/
def frames (parts : List (List UInt8 × List UInt8)) : List UInt8 :=
  parts.flatMap fun part => part.1 ++ part.2

def outcomes (parts : List (List UInt8 × List UInt8)) : List Outcome :=
  parts.map fun part => body part.2

theorem readFrame {block bytes : List UInt8} (heads : Heads bytes.length block) (room : Room) (rest : List UInt8) :
    read room (block ++ bytes ++ rest) = (body bytes, rest) := by
  rw [List.append_assoc]
  exact readBody (headersBlock heads _) room

theorem readsFrames {parts : List (List UInt8 × List UInt8)}
    (heads : ∀ part ∈ parts, Heads part.2.length part.1) (room : Room) (rest : List UInt8) :
    reads room parts.length (frames parts ++ rest) = (outcomes parts, rest) := by
  induction parts with
  | nil => rfl
  | cons part parts ih =>
    obtain ⟨first, later⟩ := List.forall_mem_cons.mp heads
    have others := ih later
    rw [frames] at others
    simp only [List.length_cons, frames, List.flatMap_cons, reads, List.append_assoc (part.1 ++ part.2),
      readFrame first, others, outcomes, List.map_cons]

theorem readsEachFrame {parts : List (List UInt8 × List UInt8)}
    (heads : ∀ part ∈ parts, Heads part.2.length part.1) (room : Room) :
    (∀ part ∈ parts, ∀ outcome, Tells part.2 outcome ↔ outcome = body part.2) ∧
    (∀ earlier later rest, parts = earlier ++ later →
      reads room earlier.length (frames parts ++ rest) = (outcomes earlier, frames later ++ rest)) ∧
    reads room (parts.length + 1) (frames parts) = (outcomes parts ++ [.closed], []) := by
  refine ⟨fun part _ outcome => ?_, ?_, ?_⟩
  · constructor
    · intro tells
      exact (tellsBody tells).symm
    · rintro rfl
      exact bodyTells part.2
  · rintro earlier later rest rfl
    rw [frames, List.flatMap_append, List.append_assoc]
    exact readsFrames (fun part member => heads part (List.mem_append_left later member)) room _
  · have all := readsFrames heads room []
    rw [List.append_nil] at all
    have ended : reads room 1 [] = ([.closed], []) := by
      simp [reads, read, headers]
    rw [readsAppend, all, ended]

/- A length in odd letters and blanks among other lines, before bytes that are no text; then a body of
no bytes, and an object. -/
def oddRows : List (List UInt8) :=
  ["X-Trace: content-length: 9\r\n", " content-LENGTH :\t003 \r\n", "Type\n", "\r\n"].map fun text =>
    encodeChars text.toList

def oddParts : List (List UInt8 × List UInt8) :=
  [(oddRows.flatten, [0xFF, 10, 0x7B]), (encodeChars "Content-Length: 0\r\n\r\n".toList, []),
    (encodeChars "Content-Length: 2\r\n\r\n".toList, [0x7B, 0x7D])]

theorem oddHeads : ∀ part ∈ oddParts, Heads part.2.length part.1 := by
  have row (text : String) (fed : encodeChars text.toList = (encodeChars text.toList).dropLast ++ [10])
      (once : 10 ∉ (encodeChars text.toList).dropLast) : Row (encodeChars text.toList) := ⟨_, fed, once⟩
  have first : Heads 3 oddRows.flatten := by
    refine ⟨[encodeChars "X-Trace: content-length: 9\r\n".toList], encodeChars " content-LENGTH :\t003 \r\n".toList,
      [encodeChars "Type\n".toList], encodeChars "\r\n".toList, by decide, ?_, ⟨row _ (by decide) (by decide), ?_⟩, ?_,
      row _ (by decide) (by decide), by decide⟩
    · exact List.forall_mem_singleton.mpr ⟨row _ (by decide) (by decide), lineOther.mp (by decide)⟩
    · have digits : ∀ c ∈ "003".toList, c.isDigit = true :=
        List.all_eq_true.mp (by decide : "003".toList.all Char.isDigit = true)
      exact ⟨['\t'], "003".toList, [' ', '\r', '\n'], ⟨[' '], "content-LENGTH".toList, [' '], by decide, by decide,
        by decide, by decide⟩, by decide, by decide, by decide, digits, by decide⟩
    · exact List.forall_mem_singleton.mpr ⟨row _ (by decide) (by decide), lineOther.mp (by decide)⟩
  have second := headsWritten 0
  have third := headsWritten 2
  rw [show lengthLine 0 ++ ['\r', '\n', '\r', '\n'] = "Content-Length: 0\r\n\r\n".toList by decide] at second
  rw [show lengthLine 2 ++ ['\r', '\n', '\r', '\n'] = "Content-Length: 2\r\n\r\n".toList by decide] at third
  exact List.forall_mem_cons.mpr ⟨first, List.forall_mem_cons.mpr ⟨second, List.forall_mem_singleton.mpr third⟩⟩

theorem oddBodies : outcomes oddParts =
    [invalidJson "'utf-8' codec can't decode byte 0xff in position 0: invalid start byte",
      invalidJson "Expecting value: line 1 column 1 (char 0)", .message []] := by
  have binary : body [0xFF, 10, 0x7B] =
      invalidJson "'utf-8' codec can't decode byte 0xff in position 0: invalid start byte" := by
    simp only [body, decodeChars, Text.Utf8.pieces, Text.Utf8.piece, Text.Utf8.followers?]
    rfl
  have empty : body [] = invalidJson "Expecting value: line 1 column 1 (char 0)" := by
    simp only [body, decodeChars, Text.Utf8.pieces, Text.Utf8.strict]
    rfl
  have object : body [0x7B, 0x7D] = .message [] :=
    tellsBody (.message (show encodeChars ['{', '}'] = [0x7B, 0x7D] by decide) rfl)
  simp only [outcomes, oddParts, List.map_cons, List.map_nil, binary, empty, object]

theorem oddReads :
    (∀ part ∈ oddParts, Heads part.2.length part.1) ∧
    reads ⟨0, 0⟩ 4 (frames oddParts) =
      ([invalidJson "'utf-8' codec can't decode byte 0xff in position 0: invalid start byte",
        invalidJson "Expecting value: line 1 column 1 (char 0)", .message [], .closed], []) := by
  have read := (readsEachFrame oddHeads ⟨0, 0⟩).2.2
  rw [oddBodies] at read
  exact ⟨oddHeads, read⟩

end LanguageService.Frame
