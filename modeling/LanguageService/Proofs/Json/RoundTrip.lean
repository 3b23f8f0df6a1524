import LanguageService.Json.Parser
import LanguageService.Proofs.Json.Writable
import LanguageService.Proofs.Number.Decimal

/-! Reading undoes printing, for values without floating-point numbers in which all texts are plain and no
object has a name twice. Each reader is given the text of what it reads with anything behind it that cannot go on
with it. -/
namespace LanguageService.Json
open Text (Point)

theorem hexValueDigit : ∀ n < 16, Text.hexValue? (Text.hexDigit n) = some n := by decide

theorem fourHexWritten {n : Nat} (small : n < 0x10000) (rest : List Char) :
    fourHex? (Text.hex 4 n ++ rest) = some n := by
  have digit (m : Nat) : Text.hexValue? (Text.hexDigit (m % 16)) = some (m % 16) :=
    hexValueDigit _ (Nat.mod_lt _ (by decide))
  have value : ((n / 16 / 16 / 16 % 16 * 16 + n / 16 / 16 % 16) * 16 + n / 16 % 16) * 16 + n % 16 = n := by
    omega
  simp only [Text.hex, List.nil_append, List.cons_append, fourHex?, digit, bind, Option.bind, pure, value]

theorem unicodeEscapeWritten {c : Char} (control : c.toNat < 0x20) {rest : List Char} (more : rest ≠ []) :
    unicodeEscape (Text.hex 4 c.toNat ++ rest) = .ok (.char c, 4) := by
  have behind : (Text.hex 4 c.toNat ++ rest).drop 4 = rest := rfl
  have filled : rest.isEmpty = false := by simpa using more
  have high : isHighSurrogate c.toNat = false := by simp [isHighSurrogate]; omega
  have whole : Point.ofUnit c.toNat = .char c := by
    rw [Point.ofUnit, dif_neg (by simp only [Point.firstHalf]; omega), Char.ofNat_toNat]
  simp only [unicodeEscape, behind, filled, fourHexWritten (show c.toNat < 0x10000 by omega), high, whole,
    Bool.false_eq_true, if_false]

theorem stringBodyEscape {opening taken : Nat} {e : Point} {rest : List Char}
    (read : escape opening rest = .ok (e, taken)) :
    stringBody opening ('\\' :: rest) = (do
      let (body, after) ← stringBody opening (rest.drop taken)
      pure (e :: body, after)) := by
  rw [stringBody, if_neg (by decide), if_pos rfl, read]
  rfl

theorem stringBodyShort {opening : Nat} {mark c : Char} (short : shortEscape? mark = some c)
    (other : mark ≠ 'u') (rest : List Char) :
    stringBody opening ('\\' :: mark :: rest) = (do
      let (body, after) ← stringBody opening rest
      pure (.char c :: body, after)) := by
  have read : escape opening (mark :: rest) = .ok (.char c, 1) := by
    rw [escape, short]
    exact other
  exact stringBodyEscape read

theorem stringBodyPlain {opening : Nat} {c : Char} (quote : c ≠ '"') (backslash : c ≠ '\\')
    (visible : ¬ c.toNat < 0x20) (rest : List Char) :
    stringBody opening (c :: rest) = (do
      let (body, after) ← stringBody opening rest
      pure (.char c :: body, after)) := by
  rw [stringBody, if_neg quote, if_neg backslash, if_neg visible]

theorem escapedCharRead (opening : Nat) (c : Char) {rest : List Char} (more : rest ≠ []) :
    stringBody opening (escapedChar c ++ rest) = (do
      let (body, after) ← stringBody opening rest
      pure (.char c :: body, after)) := by
  unfold escapedChar
  split
  · subst c; exact stringBodyShort rfl (by decide) rest
  split
  · subst c; exact stringBodyShort rfl (by decide) rest
  split
  · subst c; exact stringBodyShort rfl (by decide) rest
  split
  · subst c; exact stringBodyShort rfl (by decide) rest
  split
  · subst c; exact stringBodyShort rfl (by decide) rest
  split
  · subst c; exact stringBodyShort rfl (by decide) rest
  split
  · subst c; exact stringBodyShort rfl (by decide) rest
  split
  · rename_i control
    have read : escape opening ('u' :: (Text.hex 4 c.toNat ++ rest)) = .ok (.char c, 5) := by
      simp only [escape, unicodeEscapeWritten control more]
      rfl
    exact stringBodyEscape read
  · rename_i quote backslash _ _ _ _ _ visible
    exact stringBodyPlain quote backslash visible rest

theorem stringBodyWritten (opening : Nat) (cs rest : List Char) :
    stringBody opening (cs.flatMap escapedChar ++ '"' :: rest) = .ok (cs.map .char, rest) := by
  induction cs with
  | nil => rw [List.flatMap_nil, List.nil_append, stringBody, if_pos rfl, List.map_nil]
  | cons c cs ih =>
    rw [List.flatMap_cons, List.append_assoc, escapedCharRead opening c (by simp), ih]
    rfl

theorem stringWritten (s : String) (rest : List Char) :
    string (s.toList.flatMap escapedChar ++ '"' :: rest) = .ok (s, rest) := by
  simp only [string, stringBodyWritten, bind, Except.bind, pure, Except.pure, Text.ofCharsPlain, String.ofList_toList]

/-- What may stand behind a value: the end, or what parts or closes lists and objects. -/
def Ends (rest : List Char) : Prop := ∀ c, rest.head? = some c → c ∈ [',', ']', '}']

theorem Ends.differs {rest : List Char} (ends : Ends rest) {p : Char → Bool}
    (outside : p ',' = false ∧ p ']' = false ∧ p '}' = false) :
    ∀ c, rest.head? = some c → p c = false := by
  intro c head
  have listed := ends c head
  simp only [List.mem_cons, List.not_mem_nil, or_false] at listed
  rcases listed with rfl | rfl | rfl
  · exact outside.1
  · exact outside.2.1
  · exact outside.2.2

theorem wholeDigitsWritten (n : Nat) {rest : List Char} (ends : Ends rest) :
    wholeDigits? (Number.naturalText n ++ rest) = some (Number.naturalText n, rest) := by
  by_cases zero : n = 0
  · rw [zero, Number.naturalZero]
    rfl
  have leads := Number.naturalLeads n (Nat.pos_of_ne_zero zero)
  have digits := Number.naturalDigits n
  have stops := ends.differs (p := Char.isDigit) (by decide)
  obtain ⟨c, run, same⟩ := List.exists_cons_of_ne_nil (Number.naturalFilled n)
  rw [same] at digits leads
  obtain ⟨first, others⟩ := List.forall_mem_cons.mp digits
  have other : c ≠ '0' := fun equal => leads (congrArg some equal)
  rw [same, List.cons_append, wholeDigits?, if_neg other, if_pos first, Text.dropFront others stops,
    Text.takeFront others stops]

theorem fractionDigitsNone {rest : List Char} (ends : Ends rest) : fractionDigits rest = ([], rest) := by
  have point := ends.differs (p := (· == '.')) (by decide)
  unfold fractionDigits
  split
  · exact absurd (point '.' rfl) (by decide)
  · rfl

theorem exponentNone {rest : List Char} (ends : Ends rest) : exponent? rest = none := by
  have mark := ends.differs (p := fun c => decide (c = 'e' ∨ c = 'E')) (by decide)
  unfold exponent?
  split
  · rfl
  · rename_i c rest
    rw [if_neg (by simpa using mark c rfl)]

theorem naturalStarts (n : Nat) :
    ∃ c run, Number.naturalText n = c :: run ∧ c.isDigit = true := by
  obtain ⟨c, run, same⟩ := List.exists_cons_of_ne_nil (Number.naturalFilled n)
  exact ⟨c, run, same, Number.naturalDigits n c (by simp [same])⟩

theorem numberNatural (n : Nat) {rest : List Char} (ends : Ends rest) :
    number? (Number.naturalText n ++ rest) = some (.int n, rest) := by
  obtain ⟨c, run, same, digit⟩ := naturalStarts n
  unfold number?
  split
  rename_i negative body sign
  split at sign
  · rename_i minus
    rw [same] at minus
    rw [(List.cons.inj minus).1] at digit
    exact absurd digit (by decide)
  · cases sign
    simp only [wholeDigitsWritten n ends, fractionDigitsNone ends, exponentNone ends,
      Number.naturalValue n, Option.bind_eq_bind, Option.bind_some, List.isEmpty_nil, if_true,
      Option.pure_def, Double.signed, Bool.false_eq_true, if_false]

theorem numberNegative (n : Nat) {rest : List Char} (ends : Ends rest) :
    number? ('-' :: (Number.naturalText n ++ rest)) = some (.int (-n), rest) := by
  unfold number?
  simp only [wholeDigitsWritten n ends, fractionDigitsNone ends, exponentNone ends,
    Number.naturalValue n, Option.bind_eq_bind, Option.bind_some, List.isEmpty_nil, if_true,
    Option.pure_def, Double.signed]

/- None of the named values starts with a digit, and only one with a minus sign, which a letter
follows. -/
theorem atomNumber {cs : List Char} {found : Json × List Char} (read : number? cs = some found)
    (numeral : ∃ c more, c.isDigit = true ∧ (cs = c :: more ∨ cs = '-' :: c :: more)) :
    atom cs = .ok found := by
  obtain ⟨c, more, digit, shape⟩ := numeral
  have letter {d : Char} {rest : List Char} (other : d.isDigit = false) (unsigned : '-' ≠ d) :
      cs ≠ d :: rest := by
    rintro rfl
    rcases shape with same | same
    · rw [← (List.cons.inj same).1, other] at digit
      cases digit
    · exact unsigned (List.cons.inj same).1.symm
  rw [atom, read]
  all_goals intro rest same
  case x_6 =>
    rw [same] at shape
    rcases shape with signed | signed
    · rw [← (List.cons.inj signed).1] at digit
      exact absurd digit (by decide)
    · rw [← (List.cons.inj (List.cons.inj signed).2).1] at digit
      exact absurd digit (by decide)
  all_goals exact letter (by decide) (by decide) same

theorem atomInteger (n : Int) {rest : List Char} (ends : Ends rest) :
    atom (Number.integerText n ++ rest) = .ok (.int n, rest) := by
  obtain ⟨c, run, same, digit⟩ := naturalStarts n.natAbs
  unfold Number.integerText
  split
  · have read := numberNegative n.natAbs ends
    rw [show -(n.natAbs : Int) = n by omega] at read
    exact atomNumber read ⟨c, run ++ rest, digit, Or.inr (by simp [same])⟩
  · have read := numberNatural n.natAbs ends
    rw [show (n.natAbs : Int) = n by omega] at read
    exact atomNumber read ⟨c, run ++ rest, digit, Or.inl (by simp [same])⟩

/- No floating-point number and no half of a pair at any depth, and in every object each name once. -/
inductive Exact : Json → Prop where
  | null : Exact .null
  | bool (b : Bool) : Exact (.bool b)
  | int (n : Int) : Exact (.int n)
  | text (s : String) : Exact (.text s)
  | list {items : List Json} (parts : ∀ v ∈ items, Exact v) : Exact (.list items)
  | object {members : List (Text × Json)} (distinct : (members.map Prod.fst).Nodup)
      (names : ∀ m ∈ members, m.1.isPlain = true) (parts : ∀ m ∈ members, Exact m.2) : Exact (.object members)

theorem exactScalar {v : Json} (faithful : Exact v) : v.isScalar = true := by
  induction faithful with
  | list parts ih => exact itemsScalarIff.mpr ih
  | object distinct names parts ih => exact membersScalarIff.mpr fun m member => ⟨names m member, ih m member⟩
  | _ => rfl

/- The characters of what is printed. -/
def writtenChars (points : List Point) : List Char := points.map Point.shown

def written (v : Json) : List Char := writtenChars (renderPoints v)

def writtenItems (items : List Json) : List Char := writtenChars (renderItems items)

def writtenMembers (members : List (Text × Json)) : List Char := writtenChars (renderMembers members)

theorem writtenPlain (cs : List Char) : writtenChars (chars cs) = cs := by
  simp [writtenChars, chars, Function.comp_def]

theorem writtenString (s : String) :
    writtenChars (stringPoints s) = '"' :: (s.toList.flatMap escapedChar ++ ['"']) := by
  have escaped (cs : List Char) :
      ((cs.map Point.char).flatMap escapedPoint).map Point.shown = cs.flatMap escapedChar := by
    induction cs with
    | nil => rfl
    | cons c cs ih => simpa [escapedPoint, Function.comp_def] using ih
  simp [writtenChars, stringPoints, Text.points, escaped]

theorem writtenList (items : List Json) : written (.list items) = '[' :: (writtenItems items ++ [']']) := by
  simp [written, writtenItems, writtenChars, renderPoints]

theorem writtenItemsCons (v w : Json) (rest : List Json) :
    writtenItems (v :: w :: rest) = written v ++ ',' :: ' ' :: writtenItems (w :: rest) := by
  simp [written, writtenItems, writtenChars, renderItems, chars]

theorem writtenObject (members : List (Text × Json)) :
    written (.object members) = '{' :: (writtenMembers members ++ ['}']) := by
  simp [written, writtenMembers, writtenChars, renderPoints]

theorem writtenMember (name : Text) (v : Json) :
    writtenMembers [(name, v)] = writtenChars (stringPoints name) ++ ':' :: ' ' :: written v := by
  simp [written, writtenMembers, writtenChars, renderMembers, chars]

theorem writtenMembersCons (name : Text) (v : Json) (m : Text × Json) (rest : List (Text × Json)) :
    writtenMembers ((name, v) :: m :: rest) =
      writtenChars (stringPoints name) ++ ':' :: ' ' :: (written v ++ ',' :: ' ' :: writtenMembers (m :: rest)) := by
  simp [written, writtenMembers, writtenChars, renderMembers, chars]

theorem renderWritten {v : Json} (scalar : v.isScalar = true) : v.render = .plain (String.ofList (written v)) := by
  have whole : (renderPoints v).any Point.isHalf = false := by rw [halvesRendered, scalar, Bool.not_true]
  exact Text.ofPointsPlain whole

def Starts (cs : List Char) : Prop :=
  ∃ c more, cs = c :: more ∧ isSpace c = false ∧ c ∉ [']', '}'] ∧ c.toNat < 0x80

theorem integerHead (n : Int) :
    ∃ c more, Number.integerText n = c :: more ∧ (c = '-' ∨ c.isDigit = true) := by
  unfold Number.integerText
  split
  · exact ⟨'-', _, rfl, Or.inl rfl⟩
  · obtain ⟨c, run, same, digit⟩ := naturalStarts n.natAbs
    exact ⟨c, run, same, Or.inr digit⟩

theorem numeralClass {c : Char} (numeral : c = '-' ∨ c.isDigit = true) :
    isSpace c = false ∧ c ∉ [']', '}'] ∧ c ∉ ['"', '[', '{'] ∧ c.toNat < 0x80 := by
  rcases numeral with rfl | digit
  · decide
  have outside {marks : List Char} (none : ∀ d ∈ marks, d.isDigit = false) : c ∉ marks :=
    fun listed => absurd digit (by simp [none c listed])
  have code := Number.digitCode digit
  refine ⟨?_, outside (by simp), outside (by simp), by omega⟩
  cases space : isSpace c with
  | false => rfl
  | true =>
    have listed : c ∈ [' ', '\t', '\n', '\r'] := by simpa [isSpace, or_assoc] using space
    exact absurd listed (outside (by simp))

theorem integerStarts (n : Int) : Starts (Number.integerText n) := by
  obtain ⟨c, more, same, numeral⟩ := integerHead n
  obtain ⟨visible, closes, _, code⟩ := numeralClass numeral
  exact ⟨c, more, same, visible, closes, code⟩

theorem exactStarts {v : Json} (faithful : Exact v) : Starts (written v) := by
  cases faithful with
  | null => exact ⟨'n', _, rfl, by decide⟩
  | bool b =>
    cases b with
    | false => exact ⟨'f', _, rfl, by decide⟩
    | true => exact ⟨'t', _, rfl, by decide⟩
  | int n =>
    rw [written, renderPoints, writtenPlain]
    exact integerStarts n
  | text s => exact ⟨'"', _, writtenString s, by decide⟩
  | list parts => exact ⟨'[', _, writtenList _, by decide⟩
  | object distinct names parts => exact ⟨'{', _, writtenObject _, by decide⟩

theorem skipStarts {cs : List Char} (starts : Starts cs) (rest : List Char) :
    skipSpace (cs ++ rest) = cs ++ rest := by
  obtain ⟨c, more, rfl, visible, _⟩ := starts
  exact List.dropWhile_cons_of_neg (by simp [visible])

theorem skipBlank {cs : List Char} (starts : Starts cs) (rest : List Char) :
    skipSpace (' ' :: (cs ++ rest)) = cs ++ rest := by
  rw [skipSpace, List.dropWhile_cons_of_pos (by decide)]
  exact skipStarts starts rest

def Reads (v : Json) : Prop :=
  Starts (written v) ∧ ∀ fuel rest, (written v).length ≤ fuel → Ends rest →
    value fuel (written v ++ rest) = .ok (v, rest)

theorem endsCons {c : Char} (closes : c ∈ [',', ']', '}']) (rest : List Char) : Ends (c :: rest) := by
  intro d head
  cases head
  exact closes

theorem itemsStarts {v : Json} (reads : Reads v) (others : List Json) :
    Starts (writtenItems (v :: others)) := by
  obtain ⟨c, more, same, class_⟩ := reads.1
  cases others with
  | nil => exact ⟨c, more, same, class_⟩
  | cons w others => exact ⟨c, _, by rw [writtenItemsCons, same, List.cons_append], class_⟩

theorem itemsWritten {found : List Json} (filled : found ≠ []) (parts : ∀ v ∈ found, Reads v)
    {fuel : Nat} (enough : (writtenItems found).length < fuel) (rest : List Char) :
    items fuel (writtenItems found ++ ']' :: rest) = .ok (found, rest) := by
  induction found generalizing fuel with
  | nil => exact absurd rfl filled
  | cons v others ih =>
    obtain ⟨first, later⟩ := List.forall_mem_cons.mp parts
    cases fuel with
    | zero => exact absurd enough (Nat.not_lt_zero _)
    | succ fuel =>
      cases others with
      | nil =>
        have read := first.2 fuel (']' :: rest) (Nat.le_of_lt_succ enough) (endsCons (by decide) rest)
        have text : writtenItems [v] ++ ']' :: rest = written v ++ ']' :: rest := rfl
        rw [items, text, read]
        rfl
      | cons w others =>
        rw [writtenItemsCons, List.length_append, List.length_cons, List.length_cons] at enough
        have read := first.2 fuel (',' :: ' ' :: (writtenItems (w :: others) ++ ']' :: rest)) (by omega)
          (endsCons (by decide) _)
        have room : (writtenItems (w :: others)).length < fuel := by omega
        have behind := ih (by simp) later room
        have next := skipBlank (itemsStarts (later w List.mem_cons_self) others) (']' :: rest)
        have comma (cs : List Char) : skipSpace (',' :: cs) = ',' :: cs := rfl
        rw [items, writtenItemsCons, List.append_assoc, List.cons_append, List.cons_append, read]
        simp only [bind, Except.bind, comma, next, behind]
        rfl

theorem memberNameWritten (name : String) {cs : List Char} (starts : Starts cs) (rest : List Char) :
    memberName (writtenChars (stringPoints name) ++ ':' :: ' ' :: (cs ++ rest)) = .ok (.plain name, cs ++ rest) := by
  have colon (cs : List Char) : skipSpace (':' :: cs) = ':' :: cs := rfl
  have text : writtenChars (stringPoints name) ++ ':' :: ' ' :: (cs ++ rest) =
      '"' :: (name.toList.flatMap escapedChar ++ '"' :: ':' :: ' ' :: (cs ++ rest)) := by
    simp [writtenString]
  rw [text, memberName, stringWritten]
  simp only [bind, Except.bind, colon, skipBlank starts]
  rfl

theorem assignFresh {sofar : List (Text × Json)} {name : Text} (fresh : name ∉ sofar.map Prod.fst)
    (v : Json) : assign sofar name v = sofar ++ [(name, v)] := by
  induction sofar with
  | nil => rfl
  | cons entry sofar ih =>
    rw [List.map_cons, List.mem_cons, not_or] at fresh
    rw [assign, if_neg (Ne.symm fresh.1), ih fresh.2, List.cons_append]

theorem memberStarts (name : Text) (v : Json) (others : List (Text × Json)) :
    Starts (writtenMembers ((name, v) :: others)) := by
  cases others with
  | nil => exact ⟨'"', _, writtenMember name v, by decide⟩
  | cons m others => exact ⟨'"', _, writtenMembersCons name v m others, by decide⟩

theorem membersWritten {found : List (Text × Json)} (filled : found ≠ [])
    (names : ∀ m ∈ found, m.1.isPlain = true) (parts : ∀ m ∈ found, Reads m.2) {sofar : List (Text × Json)}
    (distinct : ((sofar ++ found).map Prod.fst).Nodup) {fuel : Nat}
    (enough : (writtenMembers found).length < fuel) (rest : List Char) :
    members fuel sofar (writtenMembers found ++ '}' :: rest) = .ok (.object (sofar ++ found), rest) := by
  induction found generalizing fuel sofar with
  | nil => exact absurd rfl filled
  | cons entry others ih =>
    obtain ⟨name, v⟩ := entry
    obtain ⟨named, whole⟩ : name.isPlain = true ∧ ∀ m ∈ others, m.1.isPlain = true := List.forall_mem_cons.mp names
    obtain ⟨name, rfl⟩ := Text.plainText named
    obtain ⟨first, later⟩ : Reads v ∧ ∀ m ∈ others, Reads m.2 := List.forall_mem_cons.mp parts
    have fresh : Text.plain name ∉ sofar.map Prod.fst := by
      rw [List.map_append, List.map_cons] at distinct
      intro member
      exact (List.nodup_append.mp distinct).2.2 _ member _ List.mem_cons_self rfl
    have more : sofar ++ (.plain name, v) :: others = assign sofar name v ++ others := by
      rw [assignFresh fresh, List.append_assoc, List.singleton_append]
    cases fuel with
    | zero => exact absurd enough (Nat.not_lt_zero _)
    | succ fuel =>
      cases others with
      | nil =>
        simp only [writtenMember, List.length_append, List.length_cons] at enough
        have read := first.2 fuel ('}' :: rest) (by omega) (endsCons (by decide) rest)
        rw [members, writtenMember, List.append_assoc, List.cons_append, List.cons_append,
          memberNameWritten name first.1]
        simp only [bind, Except.bind, read, more, List.append_nil]
        rfl
      | cons m others =>
        simp only [writtenMembersCons, List.length_append, List.length_cons] at enough
        have read := first.2 fuel (',' :: ' ' :: (writtenMembers (m :: others) ++ '}' :: rest)) (by omega)
          (endsCons (by decide) _)
        have room : (writtenMembers (m :: others)).length < fuel := by omega
        have behind := ih (by simp) whole later (more ▸ distinct) room
        have next := skipBlank (memberStarts m.1 m.2 others) ('}' :: rest)
        have comma (cs : List Char) : skipSpace (',' :: cs) = ',' :: cs := rfl
        have text : writtenMembers ((.plain name, v) :: m :: others) ++ '}' :: rest =
            writtenChars (stringPoints name) ++
              ':' :: ' ' :: (written v ++ ',' :: ' ' :: (writtenMembers (m :: others) ++ '}' :: rest)) := by
          simp [writtenMembersCons]
        rw [members, text, memberNameWritten name first.1]
        simp only [bind, Except.bind, read, comma, next, behind, more]

theorem readsStep {v : Json} (starts : Starts (written v))
    (step : ∀ fuel rest, (written v).length ≤ fuel + 1 → Ends rest →
      value (fuel + 1) (written v ++ rest) = .ok (v, rest)) : Reads v := by
  refine ⟨starts, fun fuel rest enough ends => ?_⟩
  cases fuel with
  | zero =>
    obtain ⟨c, more, same, _⟩ := starts
    rw [same] at enough
    exact absurd enough (Nat.not_succ_le_zero _)
  | succ fuel => exact step fuel rest enough ends

theorem valueAtom (fuel : Nat) {v : Json} {cs rest : List Char} (read : atom cs = .ok (v, rest))
    (plain : ∀ c, cs.head? = some c → c ∉ ['"', '[', '{']) : value (fuel + 1) cs = .ok (v, rest) := by
  rw [value]
  · exact read
  all_goals
    rintro more rfl
    exact plain _ rfl (by decide)

theorem integerReads (n : Int) : Reads (.int n) := by
  have text : written (.int n) = Number.integerText n := writtenPlain _
  refine readsStep (text ▸ integerStarts n) fun fuel rest _ ends => ?_
  rw [text]
  refine valueAtom fuel (atomInteger n ends) ?_
  obtain ⟨c, more, same, numeral⟩ := integerHead n
  rw [same]
  rintro _ ⟨⟩
  exact (numeralClass numeral).2.2.1

theorem textReads (s : String) : Reads (.text s) := by
  refine readsStep (exactStarts (.text s)) fun fuel rest _ _ => ?_
  have text : written (.text s) ++ rest = '"' :: (s.toList.flatMap escapedChar ++ '"' :: rest) := by
    rw [written, renderPoints, writtenString]
    simp
  rw [text, value, stringWritten]
  rfl

theorem listReads {found : List Json} (parts : ∀ v ∈ found, Reads v) : Reads (.list found) := by
  refine readsStep ⟨'[', _, writtenList found, by decide⟩ fun fuel rest enough _ => ?_
  cases found with
  | nil => rfl
  | cons v others =>
    have starts := itemsStarts (parts v List.mem_cons_self) others
    have text : written (.list (v :: others)) ++ rest =
        '[' :: (writtenItems (v :: others) ++ ']' :: rest) := by
      simp [writtenList]
    have size : (writtenItems (v :: others)).length < fuel := by
      simp only [writtenList, List.length_cons, List.length_append, List.length_nil] at enough
      omega
    rw [text, value, skipStarts starts]
    split
    · rename_i closes
      obtain ⟨c, more, same, _, other, _⟩ := starts
      rw [same] at closes
      exact absurd (by rw [(List.cons.inj closes).1]; decide) other
    · rw [itemsWritten (by simp) parts size]
      rfl

theorem objectReads {found : List (Text × Json)} (distinct : (found.map Prod.fst).Nodup)
    (names : ∀ m ∈ found, m.1.isPlain = true) (parts : ∀ m ∈ found, Reads m.2) : Reads (.object found) := by
  refine readsStep ⟨'{', _, writtenObject found, by decide⟩ fun fuel rest enough _ => ?_
  cases found with
  | nil => rfl
  | cons m others =>
    have starts := memberStarts m.1 m.2 others
    have text : written (.object (m :: others)) ++ rest =
        '{' :: (writtenMembers (m :: others) ++ '}' :: rest) := by
      simp [writtenObject]
    have size : (writtenMembers (m :: others)).length < fuel := by
      simp only [writtenObject, List.length_cons, List.length_append, List.length_nil] at enough
      omega
    rw [text, value, skipStarts starts]
    split
    · rename_i closes
      obtain ⟨c, more, same, _, other, _⟩ := starts
      rw [same] at closes
      exact absurd (by rw [(List.cons.inj closes).1]; decide) other
    · exact membersWritten (by simp) names parts distinct size rest

theorem exactReads {v : Json} (faithful : Exact v) : Reads v := by
  induction faithful with
  | null => exact readsStep ⟨'n', _, rfl, by decide⟩ fun _ _ _ _ => rfl
  | bool b =>
    cases b with
    | false => exact readsStep ⟨'f', _, rfl, by decide⟩ fun _ _ _ _ => rfl
    | true => exact readsStep ⟨'t', _, rfl, by decide⟩ fun _ _ _ _ => rfl
  | int n => exact integerReads n
  | text s => exact textReads s
  | list parts ih => exact listReads ih
  | object distinct names parts ih => exact objectReads distinct names ih

theorem parseWritten {v : Json} (faithful : Exact v) : parseChars (written v) = .ok v := by
  obtain ⟨starts, reads⟩ := exactReads faithful
  have skipped := skipStarts starts []
  have read := reads (2 * (written v).length + 2) [] (by omega) (by simp [Ends])
  rw [List.append_nil] at skipped read
  have unmarked : (written v).head? ≠ some (Char.ofNat 0xFEFF) := by
    obtain ⟨c, more, same, _, _, ascii⟩ := starts
    rw [same]
    rintro ⟨⟩
    exact absurd ascii (by decide)
  rw [parseChars, document, if_neg unmarked, skipped, read]
  rfl

end LanguageService.Json
