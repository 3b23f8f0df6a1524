import LanguageService.Json.Parser
import LanguageService.Json.Printer
import LanguageService.Number.Integer
import LanguageService.Rpc.Refusal
import LanguageService.Text.Character
import LanguageService.Text.Utf8
/-! Frames: a block of header lines that ends with a blank one, then as many bytes of JSON
as the `Content-Length` header announces. -/
namespace LanguageService.Frame

inductive LengthFault where
  | negative
  | wordSize
  | bytesSize
  | memory
  deriving DecidableEq, Repr

def LengthFault.message : LengthFault → String
  | .negative => "read length must be non-negative or -1"
  | .wordSize => "cannot fit 'int' into an index-sized integer"
  | .bytesSize => "byte string is too large"
  | .memory => ""

inductive Outcome where
  | message (members : List (Text × Json))
  | refused (code : Int) (message : String)
  | badLength (fault : LengthFault)
  | closed

inductive Header where
  | length (n : Int)
  | refused (code : Int) (message : String)
  | closed

def cutLine : List UInt8 → List UInt8 × List UInt8
  | [] => ([], [])
  | b :: rest =>
    if b = 10 then ([b], rest)
    else ((b :: (cutLine rest).1), (cutLine rest).2)

theorem cutLineLength (b : UInt8) (rest : List UInt8) :
    (cutLine (b :: rest)).2.length ≤ rest.length := by
  induction rest generalizing b with
  | nil => unfold cutLine; split <;> simp [cutLine]
  | cons c rest ih =>
    unfold cutLine
    split
    · simp
    · have := ih c
      simp only [List.length_cons]
      omega

def lengthName : List Char := "content-length".toList

def headerParts (header : List Char) : List Char × List Char :=
  (header.takeWhile (· != ':'), (header.dropWhile (· != ':')).drop 1)

def isLengthName (name : List Char) : Bool :=
  (Text.trim name).map Char.toLower == lengthName

inductive Line where
  | blank
  | length (n : Int)
  | invalidLength (header : List Char)
  | other
  deriving DecidableEq, Repr

def line (bytes : List UInt8) : Line :=
  let header := Text.trim (Text.Utf8.decodeAscii bytes)
  let (name, value) := headerParts header
  if header.isEmpty then .blank
  else if isLengthName name then
    match Number.integer? (Text.trim value) with
    | some n => .length n
    | none => .invalidLength header
  else .other

def missingLength : Header :=
  .refused Refusal.parseError "Missing Content-Length header"

def invalidLength (header : List Char) : Header :=
  .refused Refusal.parseError ("Invalid Content-Length: " ++ String.ofList header)

def headers (announced : Option Int) (input : List UInt8) : Header × List UInt8 :=
  match input with
  | [] => (.closed, [])
  | b :: bytes =>
    match line (cutLine (b :: bytes)).1 with
    | .blank => ((announced.map Header.length).getD missingLength, (cutLine (b :: bytes)).2)
    | .length n => headers (some n) (cutLine (b :: bytes)).2
    | .invalidLength header => (invalidLength header, (cutLine (b :: bytes)).2)
    | .other => headers announced (cutLine (b :: bytes)).2
termination_by input.length
decreasing_by
  all_goals
    have := cutLineLength b bytes
    simp only [List.length_cons]
    omega

def invalidJson (reason : String) : Outcome :=
  .refused Refusal.parseError ("Invalid JSON: " ++ reason)

def body (bytes : List UInt8) : Outcome :=
  match Text.Utf8.decodeChars bytes with
  | .error fault => invalidJson fault.message
  | .ok cs =>
    match Json.parseChars cs with
    | .error fault => invalidJson fault.message
    | .ok (.object members) => .message members
    | .ok _ => .refused Refusal.invalidRequest "Message must be a JSON object"

def wordBound : Int := Int.pow 2 63

/-- How many bytes fit into one run, and for how many of them there is memory. -/
structure Room where
  run : Int
  memory : Int
  deriving DecidableEq, Repr

/-- Why no read can take a length. One that is met by the bytes that are there is fine. -/
def lengthFault? (room : Room) (n : Int) (available : Nat) : Option LengthFault :=
  if n < -wordBound then some .wordSize
  else if n < -1 then some .negative
  else if n ≤ available then none
  else if wordBound ≤ n then some .wordSize
  else if room.run < n then some .bytesSize
  else if room.memory < n then some .memory
  else none

/-- Reads one message, and answers the bytes after it. Minus one announces all bytes that
are left; a body that is cut short is the end of the stream. -/
def read (room : Room) (input : List UInt8) : Outcome × List UInt8 :=
  match headers none input with
  | (.closed, rest) => (.closed, rest)
  | (.refused code message, rest) => (.refused code message, rest)
  | (.length n, rest) =>
    match lengthFault? room n rest.length with
    | some fault => (.badLength fault, rest)
    | none =>
      if n = -1 then (body rest, [])
      else if rest.length < n.toNat then (.closed, [])
      else (body (rest.take n.toNat), rest.drop n.toNat)

/-- The header is written only once the body has bytes. -/
def write (message : Json) : Except Text.Unencodable (List UInt8) := do
  let bytes ← message.render.bytes
  pure (Text.Utf8.encodeChars
      ("Content-Length: ".toList ++ Number.naturalText bytes.length ++ ['\r', '\n', '\r', '\n']) ++
    bytes)

def stream (messages : List Json) : List UInt8 :=
  messages.flatMap fun message => (write message).toOption.getD []

theorem headersLength (announced : Option Int) (b : UInt8) (bytes : List UInt8) :
    (headers announced (b :: bytes)).2.length ≤ bytes.length := by
  generalize h : bytes.length = n
  induction n using Nat.strongRecOn generalizing announced b bytes with
  | _ n ih =>
    have cut := cutLineLength b bytes
    have next : ∀ announced, (headers announced (cutLine (b :: bytes)).2).2.length ≤ n := by
      intro announced
      match tail : (cutLine (b :: bytes)).2 with
      | [] => unfold headers; simp
      | c :: rest =>
        have size : rest.length + 1 ≤ n := by
          rw [tail, List.length_cons] at cut
          omega
        have := ih rest.length (by omega) announced c rest rfl
        omega
    unfold headers
    split
    · simp only; omega
    · exact next _
    · simp only; omega
    · exact next _

theorem readLength (room : Room) (b : UInt8) (bytes : List UInt8) :
    (read room (b :: bytes)).2.length ≤ bytes.length := by
  have := headersLength none b bytes
  unfold read
  split <;> simp_all only
  split
  · exact this
  · split
    · simp
    · split
      · simp
      · simp only [List.length_drop]; omega

end LanguageService.Frame
