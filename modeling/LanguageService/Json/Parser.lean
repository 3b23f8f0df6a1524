import LanguageService.Json.Value
import LanguageService.Number.Integer
/-! Reading JSON text. Each reader takes the characters that are left and answers a value
with the characters after it, or a complaint with the number of characters that were left
at the place it is about. -/
namespace LanguageService.Json
open Text (Point)

inductive Complaint where
  | value
  | extraData
  | propertyName
  | colon
  | comma
  | unterminatedString
  | controlCharacter
  | escape
  | unicodeEscape
  | byteOrderMark
  deriving DecidableEq, Repr

def Complaint.message : Complaint → String
  | .value => "Expecting value"
  | .extraData => "Extra data"
  | .propertyName => "Expecting property name enclosed in double quotes"
  | .colon => "Expecting ':' delimiter"
  | .comma => "Expecting ',' delimiter"
  | .unterminatedString => "Unterminated string starting at"
  | .controlCharacter => "Invalid control character at"
  | .escape => "Invalid \\escape"
  | .unicodeEscape => "Invalid \\uXXXX escape"
  | .byteOrderMark => "Unexpected UTF-8 BOM (decode using utf-8-sig)"

/-- A complaint about the place with `left` characters from it to the end of the text. -/
structure Stop where
  complaint : Complaint
  left : Nat
  deriving DecidableEq, Repr

abbrev Reader (α : Type) := List Char → Except Stop (α × List Char)

def isSpace (c : Char) : Bool := c == ' ' || c == '\t' || c == '\n' || c == '\r'

def skipSpace (cs : List Char) : List Char := cs.dropWhile isSpace

def stop {α : Type} (complaint : Complaint) (cs : List Char) : Except Stop α :=
  .error ⟨complaint, cs.length⟩

def fourHex? : List Char → Option Nat
  | a :: b :: c :: d :: _ => do
    let a ← Text.hexValue? a
    let b ← Text.hexValue? b
    let c ← Text.hexValue? c
    let d ← Text.hexValue? d
    pure (((a * 16 + b) * 16 + c) * 16 + d)
  | _ => none

def isHighSurrogate (n : Nat) : Bool := 0xD800 ≤ n && n < 0xDC00

def isLowSurrogate (n : Nat) : Bool := 0xDC00 ≤ n && n < 0xE000

/-- The second half of a pair of escapes, given what follows the first one; the pair counts
only if a character follows it. -/
def lowHalf (rest : List Char) : Except Stop (Option Nat) :=
  match rest with
  | '\\' :: 'u' :: more =>
    if (more.drop 4).isEmpty then .ok none
    else match fourHex? more with
      | none => .error ⟨.unicodeEscape, more.length + 1⟩
      | some n => .ok (if isLowSurrogate n then some n else none)
  | _ => .ok none

/-- A numbered escape, given what follows its `u`. Answers what it stands for and how many
characters after the `u` it takes. -/
def unicodeEscape (more : List Char) : Except Stop (Point × Nat) :=
  if (more.drop 4).isEmpty then .error ⟨.unicodeEscape, more.length + 1⟩
  else match fourHex? more with
    | none => .error ⟨.unicodeEscape, more.length + 1⟩
    | some high =>
      if isHighSurrogate high then do
        match ← lowHalf (more.drop 4) with
        | some low =>
          pure (.char (Char.ofNat (0x10000 + (high - 0xD800) * 0x400 + (low - 0xDC00))), 10)
        | none => pure (Point.ofUnit high, 4)
      else .ok (Point.ofUnit high, 4)

def shortEscape? : Char → Option Char
  | '"' => some '"'
  | '\\' => some '\\'
  | '/' => some '/'
  | 'b' => some '\x08'
  | 'f' => some '\x0c'
  | 'n' => some '\n'
  | 'r' => some '\r'
  | 't' => some '\t'
  | _ => none

/-- An escape, given what follows its backslash and the number of characters left at the
opening quote. Answers what it stands for and how many characters after the backslash it
takes. -/
def escape (opening : Nat) : List Char → Except Stop (Point × Nat)
  | [] => .error ⟨.unterminatedString, opening⟩
  | 'u' :: more => do
    let (point, taken) ← unicodeEscape more
    pure (point, taken + 1)
  | c :: more =>
    match shortEscape? c with
    | some e => .ok (.char e, 1)
    | none => .error ⟨.escape, more.length + 2⟩

def stringBody (opening : Nat) (cs : List Char) : Except Stop (List Point × List Char) :=
  match cs with
  | [] => .error ⟨.unterminatedString, opening⟩
  | c :: rest =>
    if c = '"' then .ok ([], rest)
    else if c = '\\' then do
      let (e, taken) ← escape opening rest
      let (body, after) ← stringBody opening (rest.drop taken)
      pure (e :: body, after)
    else if c.toNat < 0x20 then .error ⟨.controlCharacter, rest.length + 1⟩
    else do
      let (body, after) ← stringBody opening rest
      pure (.char c :: body, after)
termination_by cs.length
decreasing_by all_goals simp only [List.length_cons, List.length_drop]; omega

def string (cs : List Char) : Except Stop (Text × List Char) := do
  let (body, rest) ← stringBody (cs.length + 1) cs
  pure (.ofPoints body, rest)

def wholeDigits? : List Char → Option (List Char × List Char)
  | [] => none
  | c :: rest =>
    if c = '0' then some ([c], rest)
    else if c.isDigit then some (c :: rest.takeWhile Char.isDigit, rest.dropWhile Char.isDigit)
    else none

def fractionDigits : List Char → List Char × List Char
  | '.' :: c :: rest =>
    if c.isDigit then (c :: rest.takeWhile Char.isDigit, rest.dropWhile Char.isDigit)
    else ([], '.' :: c :: rest)
  | cs => ([], cs)

def exponent? (cs : List Char) : Option (Int × List Char) :=
  match cs with
  | [] => none
  | c :: rest =>
    if c = 'e' ∨ c = 'E' then
      let (negative, digits) := Number.sign rest
      match digits.takeWhile Char.isDigit with
      | [] => none
      | run => some (Double.signed negative (Number.ofDigits run), digits.dropWhile Char.isDigit)
    else none

def number? (cs : List Char) : Option (Json × List Char) := do
  let (negative, body) := match cs with
    | '-' :: rest => (true, rest)
    | _ => (false, cs)
  let (whole, rest) ← wholeDigits? body
  let (fraction, rest) := fractionDigits rest
  let real (power : Int) : Json :=
    .real (Double.ofDecimal negative (Number.ofDigits (whole ++ fraction))
      (power - fraction.length))
  match exponent? rest with
  | some (power, rest) => pure (real power, rest)
  | none =>
    if fraction.isEmpty then pure (.int (Double.signed negative (Number.ofDigits whole)), rest)
    else pure (real 0, rest)

def atom : Reader Json
  | 'n' :: 'u' :: 'l' :: 'l' :: rest => .ok (.null, rest)
  | 't' :: 'r' :: 'u' :: 'e' :: rest => .ok (.bool true, rest)
  | 'f' :: 'a' :: 'l' :: 's' :: 'e' :: rest => .ok (.bool false, rest)
  | 'N' :: 'a' :: 'N' :: rest => .ok (.real .notANumber, rest)
  | 'I' :: 'n' :: 'f' :: 'i' :: 'n' :: 'i' :: 't' :: 'y' :: rest =>
    .ok (.real (.infinite false), rest)
  | '-' :: 'I' :: 'n' :: 'f' :: 'i' :: 'n' :: 'i' :: 't' :: 'y' :: rest =>
    .ok (.real (.infinite true), rest)
  | cs =>
    match number? cs with
    | some found => .ok found
    | none => stop .value cs

def memberName : Reader Text
  | '"' :: rest => do
    let (name, rest) ← string rest
    match skipSpace rest with
    | ':' :: rest => pure (name, skipSpace rest)
    | rest => stop .colon rest
  | cs => stop .propertyName cs

mutual
/-- A value. Each step into a part costs one unit of fuel, and a part takes at least one
character every two steps. -/
def value : Nat → Reader Json
  | 0, cs => stop .value cs
  | fuel + 1, cs =>
    match cs with
    | '"' :: rest => do
      let (s, rest) ← string rest
      pure (.text s, rest)
    | '[' :: rest =>
      match skipSpace rest with
      | ']' :: rest => .ok (.list [], rest)
      | rest => do
        let (found, rest) ← items fuel rest
        pure (.list found, rest)
    | '{' :: rest =>
      match skipSpace rest with
      | '}' :: rest => .ok (.object [], rest)
      | rest => members fuel [] rest
    | cs => atom cs

def items : Nat → Reader (List Json)
  | 0, cs => stop .value cs
  | fuel + 1, cs => do
    let (v, rest) ← value fuel cs
    match skipSpace rest with
    | ']' :: rest => pure ([v], rest)
    | ',' :: rest => do
      let (others, rest) ← items fuel (skipSpace rest)
      pure (v :: others, rest)
    | rest => stop .comma rest

def members : Nat → List (Text × Json) → Reader Json
  | 0, _, cs => stop .value cs
  | fuel + 1, sofar, cs => do
    let (name, rest) ← memberName cs
    let (v, rest) ← value fuel rest
    let sofar := assign sofar name v
    match skipSpace rest with
    | '}' :: rest => pure (.object sofar, rest)
    | ',' :: rest => members fuel sofar (skipSpace rest)
    | rest => stop .comma rest
end

structure ParseFault where
  complaint : Complaint
  position : Nat
  line : Nat
  column : Nat
  deriving DecidableEq, Repr

def ParseFault.at (cs : List Char) (s : Stop) : ParseFault :=
  let position := cs.length - s.left
  let before := cs.take position
  { complaint := s.complaint
    position
    line := before.count '\n' + 1
    column := (before.reverse.takeWhile (· != '\n')).length + 1 }

def ParseFault.message (f : ParseFault) : String :=
  s!"{f.complaint.message}: line {f.line} column {f.column} (char {f.position})"

def document (cs : List Char) : Except Stop Json := do
  if cs.head? = some (Char.ofNat 0xFEFF) then stop .byteOrderMark cs
  else
    let (v, rest) ← value (2 * cs.length + 2) (skipSpace cs)
    match skipSpace rest with
    | [] => pure v
    | rest => stop .extraData rest

def parseChars (cs : List Char) : Except ParseFault Json :=
  (document cs).mapError (ParseFault.at cs)

def parse (s : String) : Except ParseFault Json := parseChars s.toList

end LanguageService.Json
