import LanguageService.Text.Utf8

/-! Decoding undoes encoding, and decodes nothing else. The bytes of a character are cut off as one
piece, whatever follows them, and a piece that is a character has the bytes of that character. -/
namespace LanguageService.Text.Utf8

theorem byteValue {n : Nat} (small : n < 256) : (UInt8.ofNat n).toNat = n := by
  rw [UInt8.toNat_ofNat', Nat.mod_eq_of_lt small]

/- The lead bytes of two, three and four bytes, by the bits that they hold. -/
theorem leadTwo : ∀ n < 32, 2 ≤ n → followers? (n + 192) = some 1 ∧ leadBits 1 (n + 192) = n := by
  decide

theorem leadThree : ∀ n < 16, followers? (n + 224) = some 2 ∧ leadBits 2 (n + 224) = n := by
  decide

theorem leadFour : ∀ n < 5, followers? (n + 240) = some 3 ∧ leadBits 3 (n + 240) = n := by
  decide

theorem pieceLead {n followers bits : Nat} (small : n < 256)
    (leads : followers? n = some followers ∧ leadBits followers n = bits) (rest : List UInt8) :
    piece (UInt8.ofNat n) rest = follow (UInt8.ofNat n) followers bits [UInt8.ofNat n] rest := by
  simp only [piece, byteValue small, leads]

theorem followSecond {lead n : Nat} (byte : lead < 256) (small : n < 64)
    (allowed : isSecond lead (n + 128) = true) (needed value : Nat) (rest : List UInt8) :
    follow (UInt8.ofNat lead) (needed + 1) value [UInt8.ofNat lead] (UInt8.ofNat (n + 128) :: rest) =
      follow (UInt8.ofNat lead) needed (value * 64 + n) [UInt8.ofNat lead, UInt8.ofNat (n + 128)] rest := by
  have bits : (n + 128) % 64 = n := by omega
  simp only [follow, List.length_singleton, if_true, byteValue byte,
    byteValue (show n + 128 < 256 by omega), allowed, bits, List.singleton_append]

theorem followNext {lead : UInt8} {n : Nat} (small : n < 64) {taken : List UInt8}
    (later : taken.length ≠ 1) (needed value : Nat) (rest : List UInt8) :
    follow lead (needed + 1) value taken (UInt8.ofNat (n + 128) :: rest) =
      follow lead needed (value * 64 + n) (taken ++ [UInt8.ofNat (n + 128)]) rest := by
  have bits : (n + 128) % 64 = n := by omega
  have continues : isContinuation (n + 128) = true := by
    simp only [isContinuation, Bool.and_eq_true, decide_eq_true_eq]
    omega
  simp only [follow, if_neg later, byteValue (show n + 128 < 256 by omega), continues, if_true, bits]

theorem secondIff (lead b : Nat) : isSecond lead b = true ↔
    (0x80 ≤ b ∧ b < 0xC0) ∧ (lead = 0xE0 → 0xA0 ≤ b) ∧ (lead = 0xED → b < 0xA0) ∧
      (lead = 0xF0 → 0x90 ≤ b) ∧ (lead = 0xF4 → b < 0x90) := by
  simp only [isSecond, isContinuation, Bool.and_eq_true, Bool.or_eq_true, bne_iff_ne,
    decide_eq_true_eq, and_assoc, ne_eq, ← Decidable.imp_iff_not_or]

theorem pieceOne {n : Nat} (high : n < 0x80) (rest : List UInt8) :
    piece (UInt8.ofNat n) rest = (.scalar (Char.ofNat n), 0) := by
  rw [pieceLead (by omega) ⟨if_pos high, rfl⟩]
  rfl

theorem pieceTwo {n : Nat} (low : 0x80 ≤ n) (high : n < 0x800) (rest : List UInt8) :
    piece (UInt8.ofNat (n / 64 % 32 + 192)) (UInt8.ofNat (n % 64 + 128) :: rest) =
      (.scalar (Char.ofNat n), 1) := by
  have allowed : isSecond (n / 64 % 32 + 192) (n % 64 + 128) = true := by
    rw [secondIff]
    omega
  have value : n / 64 % 32 * 64 + n % 64 = n := by omega
  rw [pieceLead (by omega) (leadTwo _ (by omega) (by omega)),
    followSecond (by omega) (by omega) allowed, value]
  rfl

theorem pieceThree {n : Nat} (low : 0x800 ≤ n) (high : n < 0x10000)
    (scalar : n < 0xD800 ∨ 0xDFFF < n) (rest : List UInt8) :
    piece (UInt8.ofNat (n / 4096 % 16 + 224))
        (UInt8.ofNat (n / 64 % 64 + 128) :: UInt8.ofNat (n % 64 + 128) :: rest) =
      (.scalar (Char.ofNat n), 2) := by
  have allowed : isSecond (n / 4096 % 16 + 224) (n / 64 % 64 + 128) = true := by
    rw [secondIff]
    omega
  have value : (n / 4096 % 16 * 64 + n / 64 % 64) * 64 + n % 64 = n := by omega
  rw [pieceLead (by omega) (leadThree _ (by omega)), followSecond (by omega) (by omega) allowed,
    followNext (by omega) (by simp), value]
  rfl

theorem pieceFour {n : Nat} (low : 0x10000 ≤ n) (high : n < 0x110000) (rest : List UInt8) :
    piece (UInt8.ofNat (n / 262144 % 8 + 240))
        (UInt8.ofNat (n / 4096 % 64 + 128) :: UInt8.ofNat (n / 64 % 64 + 128) ::
          UInt8.ofNat (n % 64 + 128) :: rest) =
      (.scalar (Char.ofNat n), 3) := by
  have allowed : isSecond (n / 262144 % 8 + 240) (n / 4096 % 64 + 128) = true := by
    rw [secondIff]
    omega
  have value : ((n / 262144 % 8 * 64 + n / 4096 % 64) * 64 + n / 64 % 64) * 64 + n % 64 = n := by omega
  rw [pieceLead (by omega) (leadFour _ (by omega)), followSecond (by omega) (by omega) allowed,
    followNext (by omega) (by simp), followNext (by omega) (by simp), value]
  rfl

theorem pieceEncoded (c : Char) (rest : List UInt8) :
    ∃ lead more, String.utf8EncodeChar c = lead :: more ∧
      piece lead (more ++ rest) = (.scalar c, more.length) := by
  have bounds : c.toNat < 0xD800 ∨ 0xDFFF < c.toNat ∧ c.toNat < 0x110000 := c.valid
  have scalar (size : Nat) : (Piece.scalar (Char.ofNat c.toNat), size) = (.scalar c, size) := by
    rw [Char.ofNat_toNat]
  have code : c.val.toNat = c.toNat := rfl
  fun_cases String.utf8EncodeChar c with
  | case1 v one => exact ⟨_, [], rfl, (pieceOne (by omega) rest).trans (scalar 0)⟩
  | case2 v one two => exact ⟨_, [_], rfl, (pieceTwo (by omega) (by omega) rest).trans (scalar 1)⟩
  | case3 v one two three =>
    exact ⟨_, [_, _], rfl, (pieceThree (by omega) (by omega) (by omega) rest).trans (scalar 2)⟩
  | case4 v one two three =>
    exact ⟨_, [_, _, _], rfl, (pieceFour (by omega) (by omega) rest).trans (scalar 3)⟩

theorem piecesEncoded (cs : List Char) : pieces (encodeChars cs) = cs.map .scalar := by
  induction cs with
  | nil => rw [encodeChars, List.flatMap_nil, pieces, List.map_nil]
  | cons c cs ih =>
    obtain ⟨lead, more, bytes, cut⟩ := pieceEncoded c (encodeChars cs)
    have whole : encodeChars (c :: cs) = lead :: (more ++ encodeChars cs) := by
      rw [encodeChars, List.flatMap_cons, bytes, List.cons_append, encodeChars]
    rw [whole, pieces, cut, List.map_cons]
    simp only [List.drop_left, ih]

theorem strictScalars (position : Nat) (cs : List Char) :
    strict position (cs.map .scalar) = .ok cs := by
  induction cs generalizing position with
  | nil => rfl
  | cons c cs ih => rw [List.map_cons, strict, ih]; rfl

theorem decodeEncoded (cs : List Char) : decodeChars (encodeChars cs) = .ok cs := by
  rw [decodeChars, piecesEncoded, strictScalars]

theorem charValue {n : Nat} (scalar : n < 0xD800 ∨ 0xDFFF < n ∧ n < 0x110000) : (Char.ofNat n).val.toNat = n := by
  rw [Char.ofNat, dif_pos scalar]
  rfl

theorem encodedOne {a : UInt8} (high : a.toNat < 0x80) : String.utf8EncodeChar (Char.ofNat a.toNat) = [a] := by
  have value := charValue (n := a.toNat) (by omega)
  rw [String.utf8EncodeChar, value]
  simp only [if_pos (show a.toNat ≤ 127 by omega), UInt8.ofNat_toNat]

theorem encodedTwo {a b : UInt8} (lead : 0xC2 ≤ a.toNat ∧ a.toNat < 0xE0)
    (second : isSecond a.toNat b.toNat = true) :
    String.utf8EncodeChar (Char.ofNat (a.toNat % 32 * 64 + b.toNat % 64)) = [a, b] := by
  rw [secondIff] at second
  generalize code : a.toNat % 32 * 64 + b.toNat % 64 = n
  have value := charValue (n := n) (by omega)
  have first : n / 64 % 32 + 192 = a.toNat := by omega
  have last : n % 64 + 128 = b.toNat := by omega
  rw [String.utf8EncodeChar, value]
  simp only [if_neg (show ¬ n ≤ 127 by omega), if_pos (show n ≤ 2047 by omega), first, last, UInt8.ofNat_toNat]

theorem encodedThree {a b c : UInt8} (lead : 0xE0 ≤ a.toNat ∧ a.toNat < 0xF0)
    (second : isSecond a.toNat b.toNat = true) (third : isContinuation c.toNat = true) :
    String.utf8EncodeChar (Char.ofNat ((a.toNat % 16 * 64 + b.toNat % 64) * 64 + c.toNat % 64)) = [a, b, c] := by
  rw [secondIff] at second
  simp only [isContinuation, Bool.and_eq_true, decide_eq_true_eq] at third
  generalize code : (a.toNat % 16 * 64 + b.toNat % 64) * 64 + c.toNat % 64 = n
  have value := charValue (n := n) (by omega)
  have first : n / 4096 % 16 + 224 = a.toNat := by omega
  have middle : n / 64 % 64 + 128 = b.toNat := by omega
  have last : n % 64 + 128 = c.toNat := by omega
  rw [String.utf8EncodeChar, value]
  simp only [if_neg (show ¬ n ≤ 127 by omega), if_neg (show ¬ n ≤ 2047 by omega),
    if_pos (show n ≤ 65535 by omega), first, middle, last, UInt8.ofNat_toNat]

theorem encodedFour {a b c d : UInt8} (lead : 0xF0 ≤ a.toNat ∧ a.toNat < 0xF5)
    (second : isSecond a.toNat b.toNat = true) (third : isContinuation c.toNat = true)
    (fourth : isContinuation d.toNat = true) :
    String.utf8EncodeChar
        (Char.ofNat (((a.toNat % 8 * 64 + b.toNat % 64) * 64 + c.toNat % 64) * 64 + d.toNat % 64)) =
      [a, b, c, d] := by
  rw [secondIff] at second
  simp only [isContinuation, Bool.and_eq_true, decide_eq_true_eq] at third fourth
  generalize code : ((a.toNat % 8 * 64 + b.toNat % 64) * 64 + c.toNat % 64) * 64 + d.toNat % 64 = n
  have value := charValue (n := n) (by omega)
  have first : n / 262144 % 8 + 240 = a.toNat := by omega
  have middle : n / 4096 % 64 + 128 = b.toNat := by omega
  have later : n / 64 % 64 + 128 = c.toNat := by omega
  have last : n % 64 + 128 = d.toNat := by omega
  rw [String.utf8EncodeChar, value]
  simp only [if_neg (show ¬ n ≤ 127 by omega), if_neg (show ¬ n ≤ 2047 by omega),
    if_neg (show ¬ n ≤ 65535 by omega), first, middle, later, last, UInt8.ofNat_toNat]

theorem followScalar {lead : UInt8} {needed value : Nat} {taken bytes : List UInt8} {c : Char} {more : Nat}
    (cut : follow lead (needed + 1) value taken bytes = (.scalar c, more)) :
    ∃ b rest, bytes = b :: rest ∧
      (if taken.length = 1 then isSecond lead.toNat b.toNat else isContinuation b.toNat) = true ∧
      follow lead needed (value * 64 + b.toNat % 64) (taken ++ [b]) rest = (.scalar c, more) := by
  cases bytes with
  | nil => cases cut
  | cons b rest =>
    simp only [follow] at cut
    cases fits : (if taken.length = 1 then isSecond lead.toNat b.toNat else isContinuation b.toNat) with
    | true =>
      rw [fits, if_pos rfl] at cut
      exact ⟨b, rest, rfl, fits, cut⟩
    | false =>
      rw [fits, if_neg Bool.false_ne_true] at cut
      cases cut

theorem followersCases {lead n : Nat} (leads : followers? lead = some n) :
    n = 0 ∧ lead < 0x80 ∨ n = 1 ∧ 0xC2 ≤ lead ∧ lead < 0xE0 ∨ n = 2 ∧ 0xE0 ≤ lead ∧ lead < 0xF0 ∨
      n = 3 ∧ 0xF0 ≤ lead ∧ lead < 0xF5 := by
  unfold followers? at leads
  grind

theorem pieceScalar {lead : UInt8} {rest : List UInt8} {c : Char} {more : Nat}
    (cut : piece lead rest = (.scalar c, more)) : String.utf8EncodeChar c = lead :: rest.take more := by
  unfold piece at cut
  cases leads : followers? lead.toNat with
  | none =>
    rw [leads] at cut
    cases cut
  | some n =>
    rw [leads] at cut
    rcases followersCases leads with ⟨rfl, one⟩ | ⟨rfl, two⟩ | ⟨rfl, three⟩ | ⟨rfl, four⟩
    · cases cut
      exact encodedOne one
    · obtain ⟨b, rest, rfl, second, cut⟩ := followScalar cut
      cases cut
      exact encodedTwo two second
    · obtain ⟨b, rest, rfl, second, cut⟩ := followScalar cut
      obtain ⟨d, rest, rfl, third, cut⟩ := followScalar cut
      cases cut
      exact encodedThree three second third
    · obtain ⟨b, rest, rfl, second, cut⟩ := followScalar cut
      obtain ⟨d, rest, rfl, third, cut⟩ := followScalar cut
      obtain ⟨e, rest, rfl, fourth, cut⟩ := followScalar cut
      cases cut
      exact encodedFour four second third fourth

theorem piecesScalars {bytes : List UInt8} {cs : List Char} (cut : pieces bytes = cs.map .scalar) :
    encodeChars cs = bytes := by
  fun_induction pieces bytes generalizing cs with
  | case1 =>
    rw [List.map_eq_nil_iff.mp cut.symm]
    rfl
  | case2 lead rest first more found ih =>
    cases cs with
    | nil => cases cut
    | cons c cs =>
      obtain ⟨rfl, later⟩ := List.cons.inj cut
      have bytes := pieceScalar found
      rw [encodeChars, List.flatMap_cons, bytes, ← encodeChars, ih later, List.cons_append,
        List.take_append_drop]

theorem strictOk {position : Nat} {all : List Piece} {cs : List Char} (read : strict position all = .ok cs) :
    all = cs.map .scalar := by
  induction all generalizing position cs with
  | nil =>
    cases read
    rfl
  | cons piece rest ih =>
    cases piece with
    | broken reason bytes => cases read
    | scalar c =>
      rw [strict] at read
      cases tail : strict (position + (Piece.scalar c).size) rest with
      | error fault =>
        rw [tail] at read
        cases read
      | ok ds =>
        rw [tail] at read
        cases read
        rw [ih tail, List.map_cons]

theorem decodeIff {bytes : List UInt8} {cs : List Char} :
    decodeChars bytes = .ok cs ↔ encodeChars cs = bytes := by
  constructor
  · intro read
    exact piecesScalars (strictOk read)
  · rintro rfl
    exact decodeEncoded cs

theorem encodeAppend (cs ds : List Char) :
    encodeChars (cs ++ ds) = encodeChars cs ++ encodeChars ds := List.flatMap_append

def Ascii (cs : List Char) : Prop := ∀ c ∈ cs, c.toNat < 0x80

theorem encodeAscii {cs : List Char} (ascii : Ascii cs) :
    encodeChars cs = cs.map fun c => UInt8.ofNat c.toNat := by
  induction cs with
  | nil => rfl
  | cons c cs ih =>
    obtain ⟨first, others⟩ := List.forall_mem_cons.mp ascii
    have code : c.val.toNat ≤ 127 := Nat.le_of_lt_succ first
    have byte : String.utf8EncodeChar c = [UInt8.ofNat c.toNat] := by
      unfold String.utf8EncodeChar
      exact if_pos code
    have rest := ih others
    rw [encodeChars] at rest ⊢
    rw [List.flatMap_cons, byte, rest, List.map_cons, List.singleton_append]

theorem decodeAsciiEncoded {cs : List Char} (ascii : Ascii cs) : decodeAscii (encodeChars cs) = cs := by
  rw [encodeAscii ascii, decodeAscii, List.map_map]
  have same (c : Char) (member : c ∈ cs) :
      ((fun b : UInt8 => if b < 0x80 then Char.ofNat b.toNat else replacement) ∘
        fun c => UInt8.ofNat c.toNat) c = c := by
    have code := ascii c member
    have byte := byteValue (show c.toNat < 256 by omega)
    have small : UInt8.ofNat c.toNat < 0x80 := by
      rw [UInt8.lt_iff_toNat_lt, byte]
      exact code
    simp only [Function.comp_apply, if_pos small, byte, Char.ofNat_toNat]
  rw [List.map_congr_left same, List.map_id']

end LanguageService.Text.Utf8
