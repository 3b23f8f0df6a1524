import LanguageService.Text.Basic
/-! UTF-8 between bytes and characters. Decoding cuts the bytes into pieces: characters,
and the shortest runs of bytes that cannot begin a character. A strict reader stops at
the first such run, a lenient one puts the replacement character in its place. -/
namespace LanguageService.Text.Utf8

inductive Reason where
  | startByte
  | continuationByte
  | endOfData
  deriving DecidableEq, Repr

def Reason.message : Reason → String
  | .startByte => "invalid start byte"
  | .continuationByte => "invalid continuation byte"
  | .endOfData => "unexpected end of data"

inductive Piece where
  | scalar (c : Char)
  | broken (reason : Reason) (bytes : List UInt8)
  deriving DecidableEq, Repr

def followers? (lead : Nat) : Option Nat :=
  if lead < 0x80 then some 0
  else if lead < 0xC2 then none
  else if lead < 0xE0 then some 1
  else if lead < 0xF0 then some 2
  else if lead < 0xF5 then some 3
  else none

def leadBits (followers lead : Nat) : Nat :=
  if followers = 0 then lead else lead % Nat.pow 2 (6 - followers)

def isContinuation (b : Nat) : Bool := 0x80 ≤ b && b < 0xC0

/-- The second byte also keeps out overlong forms, surrogates and values past the last
code point. -/
def isSecond (lead b : Nat) : Bool :=
  isContinuation b &&
  (lead != 0xE0 || 0xA0 ≤ b) && (lead != 0xED || b < 0xA0) &&
  (lead != 0xF0 || 0x90 ≤ b) && (lead != 0xF4 || b < 0x90)

/-- Reads the bytes after a lead; `taken` holds the lead and those read so far. Answers
the piece and how many bytes after the lead belong to it. -/
def follow (lead : UInt8) : (needed value : Nat) → (taken : List UInt8) → List UInt8 → Piece × Nat
  | 0, value, taken, _ => (.scalar (Char.ofNat value), taken.length - 1)
  | _ + 1, _, taken, [] => (.broken .endOfData taken, taken.length - 1)
  | needed + 1, value, taken, b :: rest =>
    let fits := if taken.length = 1 then isSecond lead.toNat b.toNat else isContinuation b.toNat
    if fits then follow lead needed (value * 64 + b.toNat % 64) (taken ++ [b]) rest
    else (.broken .continuationByte taken, taken.length - 1)

def piece (lead : UInt8) (rest : List UInt8) : Piece × Nat :=
  match followers? lead.toNat with
  | none => (.broken .startByte [lead], 0)
  | some n => follow lead n (leadBits n lead.toNat) [lead] rest

def pieces : List UInt8 → List Piece
  | [] => []
  | lead :: rest =>
    let (first, more) := piece lead rest
    first :: pieces (rest.drop more)
termination_by bytes => bytes.length
decreasing_by simp only [List.length_cons, List.length_drop]; omega

def encodeChars (cs : List Char) : List UInt8 :=
  cs.flatMap String.utf8EncodeChar

def encode (s : String) : List UInt8 :=
  encodeChars s.toList

def Piece.size : Piece → Nat
  | .scalar c => (String.utf8EncodeChar c).length
  | .broken _ bytes => bytes.length

structure Fault where
  position : Nat
  bytes : List UInt8
  reason : Reason
  deriving DecidableEq, Repr

def Fault.message (f : Fault) : String :=
  let last := f.position + f.bytes.length - 1
  let what := match f.bytes with
    | [b] => s!"byte 0x{String.ofList (hex 2 b.toNat)} in position {f.position}"
    | _ => s!"bytes in position {f.position}-{last}"
  "'utf-8' codec can't decode " ++ what ++ ": " ++ f.reason.message

def strict (position : Nat) : List Piece → Except Fault (List Char)
  | [] => .ok []
  | .scalar c :: rest => do
    let cs ← strict (position + (Piece.scalar c).size) rest
    pure (c :: cs)
  | .broken reason bytes :: _ => .error ⟨position, bytes, reason⟩

def decodeChars (bytes : List UInt8) : Except Fault (List Char) :=
  strict 0 (pieces bytes)

def replacement : Char := Char.ofNat 0xFFFD

def decodeLenient (bytes : List UInt8) : List Char :=
  (pieces bytes).map fun
    | .scalar c => c
    | .broken _ _ => replacement

def decodeAscii (bytes : List UInt8) : List Char :=
  bytes.map fun b => if b < 0x80 then Char.ofNat b.toNat else replacement

end LanguageService.Text.Utf8

namespace LanguageService.Text

def bytes : Text → Except Unencodable (List UInt8)
  | plain s => .ok (Utf8.encode s)
  | rough points _ => .error (.ofPoints points)

end LanguageService.Text
