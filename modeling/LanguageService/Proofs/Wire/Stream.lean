import LanguageService.Proofs.Json.RoundTrip
import LanguageService.Proofs.Text.Utf8
import LanguageService.Proofs.Wire.Headers

/-! A stream of written messages, read back. A written header announces the length of what is written
behind it, and a frame is that header and as many bytes as it announces, whatever follows. -/
namespace LanguageService.Frame
open Text.Utf8 (encodeChars Ascii)

theorem asciiWhole {cs : List Char} (ascii : Ascii cs) (row : '\n' ∉ cs) : 10 ∉ encodeChars cs := by
  rw [Text.Utf8.encodeAscii ascii, List.mem_map]
  rintro ⟨c, member, byte⟩
  have code : c.toNat = 10 := by
    have small := ascii c member
    rw [← Text.Utf8.byteValue (show c.toNat < 256 by omega), byte]
    rfl
  have feed : c = '\n' := Char.toNat_inj.mp code
  exact row (feed ▸ member)

def title : List Char := "Content-Length".toList

def lengthLine (n : Nat) : List Char := title ++ ':' :: ' ' :: Number.naturalText n

theorem lengthLineChars (n : Nat) :
    ∀ c ∈ lengthLine n, c ∈ title ∨ c ∈ [':', ' '] ∨ c.isDigit = true := by
  intro c member
  have digits := Number.naturalDigits n c
  simp only [lengthLine, List.mem_append, List.mem_cons, List.not_mem_nil, or_false] at member ⊢
  rcases member with named | rfl | rfl | digit
  · exact Or.inl named
  · simp
  · simp
  · exact Or.inr (Or.inr (digits digit))

theorem lengthLineAscii (n : Nat) : Ascii (lengthLine n) := by
  intro c member
  have named : ∀ c ∈ title, c.toNat < 0x80 := by
    simpa using (by decide : title.all (·.toNat < 0x80) = true)
  have marks : ∀ c ∈ [':', ' '], c.toNat < 0x80 := by simp
  rcases lengthLineChars n c member with name | mark | digit
  · exact named c name
  · exact marks c mark
  · have code := Number.digitCode digit
    omega

theorem lengthLineRow (n : Nat) : '\n' ∉ lengthLine n := by
  intro member
  have outside : ¬ ('\n' ∈ title ∨ '\n' ∈ [':', ' '] ∨ '\n'.isDigit = true) := by decide
  exact outside (lengthLineChars n _ member)

theorem lengthLineAnnounces (n : Nat) : Announces n (lengthLine n ++ ['\r', '\n']) := by
  have named : Titled (lengthLine n ++ ['\r', '\n']) (':' :: ([' '] ++ (Number.naturalText n ++ ['\r', '\n']))) :=
    ⟨[], title, [], by simp [lengthLine], by decide, by decide, by decide⟩
  exact ⟨_, _, _, named, by decide, by decide,
    Number.naturalFilled n, Number.naturalDigits n, Number.naturalValue n⟩

/- The line that announces a length, as it is written. -/
def titleRow (n : Nat) : List UInt8 := encodeChars (lengthLine n ++ ['\r', '\n'])

theorem titleRowWhole (n : Nat) : Row (titleRow n) := by
  have row : 10 ∉ encodeChars (lengthLine n ++ ['\r']) :=
    asciiWhole (List.forall_mem_append.mpr ⟨lengthLineAscii n, by simp⟩) (by simp [lengthLineRow n])
  have ended : encodeChars (lengthLine n ++ ['\r', '\n']) = encodeChars (lengthLine n ++ ['\r']) ++ [10] := by
    rw [Text.Utf8.encodeAppend, Text.Utf8.encodeAppend, List.append_assoc]
    rfl
  exact ⟨_, ended, row⟩

theorem titleRowAnnounces (n : Nat) : Announces n (Text.Utf8.decodeAscii (titleRow n)) := by
  rw [titleRow, Text.Utf8.decodeAsciiEncoded (List.forall_mem_append.mpr ⟨lengthLineAscii n, by simp⟩)]
  exact lengthLineAnnounces n

theorem titleRowEnded (n : Nat) :
    encodeChars (lengthLine n ++ ['\r', '\n', '\r', '\n']) = titleRow n ++ [13, 10] := by
  rw [titleRow, Text.Utf8.encodeAppend, Text.Utf8.encodeAppend, List.append_assoc]
  rfl

theorem headsWritten (n : Nat) : Heads n (encodeChars (lengthLine n ++ ['\r', '\n', '\r', '\n'])) := by
  refine ⟨[], titleRow n, [], [13, 10], ?_, by simp [Others], ⟨titleRowWhole n, titleRowAnnounces n⟩,
    by simp [Others], ⟨[13], rfl, by decide⟩, by decide⟩
  rw [titleRowEnded]
  rfl

theorem readBody {input bytes rest : List UInt8}
    (header : headers none input = (.length bytes.length, bytes ++ rest)) (room : Room) :
    read room input = (body bytes, rest) := by
  have word : -wordBound ≤ 0 := by decide
  have fits : lengthFault? room bytes.length (bytes ++ rest).length = none := by
    rw [lengthFault?, if_neg (by omega), if_neg (by omega), if_pos (by rw [List.length_append]; omega)]
  have natural : ¬ (bytes.length : Int) = -1 := by omega
  have whole : ¬ (bytes ++ rest).length < bytes.length := by simp
  simp only [read, header, fits, if_neg natural, Int.toNat_natCast, if_neg whole, List.take_left,
    List.drop_left]

theorem bodyWritten {members : List (Text × Json)} (faithful : Json.Exact (.object members)) :
    body (encodeChars (Json.written (.object members))) = .message members := by
  simp only [body, Text.Utf8.decodeEncoded, Json.parseWritten faithful]

theorem writeParts {message : Json} (scalar : message.isScalar = true) :
    write message = .ok (encodeChars
        (lengthLine (encodeChars message.written).length ++ ['\r', '\n', '\r', '\n']) ++
      encodeChars message.written) := by
  have named (n : Nat) : "Content-Length: ".toList ++ Number.naturalText n = lengthLine n := by
    rw [show "Content-Length: ".toList = title ++ [':', ' '] by decide]
    simp [lengthLine]
  have bytes : message.render.bytes = .ok (encodeChars message.written) := by
    rw [Json.renderWritten scalar, Text.bytes, Text.Utf8.encode, String.toList_ofList]
  rw [write, bytes, ← named]
  rfl

theorem readWritten {members : List (Text × Json)} (faithful : Json.Exact (.object members))
    {frame : List UInt8} (written : write (.object members) = .ok frame) (room : Room) (rest : List UInt8) :
    read room (frame ++ rest) = (.message members, rest) := by
  rw [writeParts (Json.exactScalar faithful), Except.ok.injEq] at written
  rw [← written, List.append_assoc, readBody (headersBlock (headsWritten _) _), bodyWritten faithful]

/- Some reads, one after another: what each of them comes to, and the bytes that are left. -/
def reads (room : Room) : Nat → List UInt8 → List Outcome × List UInt8
  | 0, input => ([], input)
  | n + 1, input =>
    let (first, rest) := read room input
    let (others, last) := reads room n rest
    (first :: others, last)

theorem readsAppend (room : Room) (n m : Nat) (input : List UInt8) :
    reads room (n + m) input =
      ((reads room n input).1 ++ (reads room m (reads room n input).2).1,
        (reads room m (reads room n input).2).2) := by
  induction n generalizing input with
  | zero => simp [reads]
  | succ n ih => simp [reads, Nat.succ_add, ih]

/- The bytes of messages that are written one after another. -/
inductive Streams : List (List (Text × Json)) → List UInt8 → Prop where
  | none : Streams [] []
  | next {members messages frame rest} (written : write (.object members) = .ok frame)
      (tail : Streams messages rest) : Streams (members :: messages) (frame ++ rest)

theorem streamsExact {messages : List (List (Text × Json))}
    (faithful : ∀ members ∈ messages, Json.Exact (.object members)) : ∃ bytes, Streams messages bytes := by
  induction messages with
  | nil => exact ⟨[], .none⟩
  | cons members others ih =>
    obtain ⟨first, later⟩ := List.forall_mem_cons.mp faithful
    obtain ⟨rest, tail⟩ := ih later
    exact ⟨_, .next (writeParts (Json.exactScalar first)) tail⟩

theorem readsStream {messages : List (List (Text × Json))} {bytes : List UInt8} (streams : Streams messages bytes)
    (faithful : ∀ members ∈ messages, Json.Exact (.object members)) (room : Room) :
    reads room messages.length bytes = (messages.map .message, []) := by
  induction streams with
  | none => rfl
  | next written tail ih =>
    obtain ⟨first, later⟩ := List.forall_mem_cons.mp faithful
    simp only [List.length_cons, reads, readWritten first written, ih later, List.map_cons]

theorem streamReadBack {messages : List (List (Text × Json))}
    (faithful : ∀ members ∈ messages, Json.Exact (.object members)) (room : Room) :
    ∃ bytes, Streams messages bytes ∧ reads room messages.length bytes = (messages.map .message, []) ∧
      reads room (messages.length + 1) bytes = (messages.map .message ++ [.closed], []) := by
  obtain ⟨bytes, streams⟩ := streamsExact faithful
  have all := readsStream streams faithful room
  have ended : reads room 1 [] = ([.closed], []) := by
    simp [reads, read, headers]
  exact ⟨bytes, streams, all, by rw [readsAppend, all, ended]⟩

/- Nested values, a long negative number, an astral character, a quote and control characters. -/
def sampleMessages : List (List (Text × Json)) :=
  [[("method", .text "\"\\\x01\n\x7f😀"), ("id", .int (-98765432109876543210)),
    ("params", .list [.object [("b", .null), ("a", .list [])], .bool true])], []]

theorem sampleExact : ∀ members ∈ sampleMessages, Json.Exact (.object members) := by
  have parts : Json.Exact (.list [.object [("b", .null), ("a", .list [])], .bool true]) := by
    refine .list (List.forall_mem_cons.mpr ⟨.object (by decide) (by decide) ?_,
      List.forall_mem_singleton.mpr (.bool true)⟩)
    exact List.forall_mem_cons.mpr ⟨.null, List.forall_mem_singleton.mpr (.list (by simp))⟩
  refine List.forall_mem_cons.mpr ⟨.object (by decide) (by decide) ?_,
    List.forall_mem_singleton.mpr (.object (by simp) (by simp) (by simp))⟩
  exact List.forall_mem_cons.mpr ⟨.text _, List.forall_mem_cons.mpr ⟨.int _, List.forall_mem_singleton.mpr parts⟩⟩

theorem sampleReadBack :
    (∀ members ∈ sampleMessages, Json.Exact (.object members)) ∧
    ∃ bytes, Streams sampleMessages bytes ∧ reads ⟨0, 0⟩ 2 bytes = (sampleMessages.map .message, []) ∧
      reads ⟨0, 0⟩ 3 bytes = (sampleMessages.map .message ++ [.closed], []) :=
  ⟨sampleExact, streamReadBack sampleExact ⟨0, 0⟩⟩

end LanguageService.Frame
