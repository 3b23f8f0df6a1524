import LanguageService.Index
import LanguageService.Proofs.Language.Literals

/-! Malformed lexemes, told by their characters: a string that no quote closes before its line ends, and a run
of digits and points that has a second point or nothing behind its point. The findings about a text are these
lexemes of it, each of them once and in their order. -/
namespace LanguageService

namespace Finding

def Digits (cs : List Char) : Prop := cs ≠ [] ∧ ∀ c ∈ cs, c.isDigit = true

def Numeral (cs : List Char) : Prop :=
  Digits cs ∨ ∃ whole fraction, cs = whole ++ '.' :: fraction ∧ Digits whole ∧ Digits fraction

def Misshapen (run : List Char) : Prop := 2 ≤ run.count '.' ∨ run.getLast? = some '.'

instance (run : List Char) : Decidable (Misshapen run) :=
  inferInstanceAs (Decidable (2 ≤ run.count '.' ∨ run.getLast? = some '.'))

theorem digitsWhole {cs : List Char} (digits : Digits cs) : '.' ∉ cs := by
  intro member
  exact absurd (digits.2 _ member) (by decide)

theorem isNumberIff {cs : List Char} : isNumber cs = true ↔ Numeral cs := by
  have cut := List.takeWhile_append_dropWhile (p := Char.isDigit) (l := cs)
  have front : ∀ c ∈ cs.takeWhile Char.isDigit, c.isDigit = true := fun _ => List.mem_takeWhile_imp
  constructor
  · intro number
    simp only [isNumber, Bool.and_eq_true, Bool.not_eq_true', List.isEmpty_eq_false_iff] at number
    obtain ⟨filled, rest⟩ := number
    cases tail : cs.dropWhile Char.isDigit with
    | nil =>
      rw [tail, List.append_nil] at cut
      exact .inl (cut ▸ ⟨filled, front⟩)
    | cons c fraction =>
      simp only [tail, Bool.and_eq_true, beq_iff_eq, Bool.not_eq_true', List.isEmpty_eq_false_iff,
        List.all_eq_true] at rest
      obtain ⟨⟨rfl, more⟩, all⟩ := rest
      exact .inr ⟨_, fraction, by rw [← tail, cut], ⟨filled, front⟩, more, all⟩
  · rintro (⟨filled, all⟩ | ⟨whole, fraction, rfl, ⟨filled, all⟩, more, digits⟩)
    · have taken : (cs ++ []).takeWhile Char.isDigit = cs := Text.takeFront all (by simp)
      have dropped : (cs ++ []).dropWhile Char.isDigit = [] := Text.dropFront all (by simp)
      rw [List.append_nil] at taken dropped
      simp [isNumber, taken, dropped, filled]
    · have stops : ∀ c, ('.' :: fraction).head? = some c → c.isDigit = false := by
        rintro _ ⟨⟩
        rfl
      simpa [isNumber, Text.takeFront all stops, Text.dropFront all stops, filled, more] using digits

theorem numeralShaped {cs : List Char} (numeral : Numeral cs) : ¬ Misshapen cs := by
  rcases numeral with digits | ⟨whole, fraction, rfl, digits, more⟩
  · have none := digitsWhole digits
    rintro (many | last)
    · rw [List.count_eq_zero.mpr none] at many
      omega
    · exact none (List.mem_of_getLast? last)
  · have none := digitsWhole more
    rintro (many | last)
    · rw [List.count_append, List.count_cons_self, List.count_eq_zero.mpr (digitsWhole digits),
        List.count_eq_zero.mpr none] at many
      omega
    · obtain ⟨d, final⟩ := Option.isSome_iff_exists.mp (List.getLast?_isSome.mpr more.1)
      rw [List.getLast?_append, List.getLast?_cons, final] at last
      cases last
      exact none (List.mem_of_getLast? final)

theorem shapedNumeral {c : Char} {run : List Char} (first : c.isDigit = true)
    (all : ∀ d ∈ run, Token.isNumberChar d = true) (shaped : ¬ Misshapen (c :: run)) : Numeral (c :: run) := by
  have chars : ∀ d ∈ c :: run, d ≠ '.' → d.isDigit = true := by
    intro d member other
    rcases List.mem_cons.mp member with rfl | inside
    · exact first
    · simpa [Token.isNumberChar, other] using all d inside
  obtain ⟨few, last⟩ := not_or.mp shaped
  by_cases point : '.' ∈ c :: run
  · -- the number is cut at its first point, and no other point can stand behind it
    obtain ⟨whole, fraction, same, outside⟩ := List.eq_append_cons_of_mem point
    rw [same] at few last chars
    rw [List.count_append, List.count_cons_self] at few
    have rest : '.' ∉ fraction := List.count_eq_zero.mp (by omega)
    have before : whole ≠ [] := by
      rintro rfl
      cases same
      cases first
    have behind : fraction ≠ [] := by
      rintro rfl
      exact last (by simp)
    refine .inr ⟨whole, fraction, same, ⟨before, fun d member => ?_⟩, behind, fun d member => ?_⟩
    · exact chars d (by simp [member]) fun equal => outside (equal ▸ member)
    · exact chars d (by simp [member]) fun equal => rest (equal ▸ member)
  · exact .inl ⟨List.cons_ne_nil c run, fun d member => chars d member fun equal => point (equal ▸ member)⟩

theorem numeralIff {c : Char} {run : List Char} (first : c.isDigit = true)
    (all : ∀ d ∈ run, Token.isNumberChar d = true) : Numeral (c :: run) ↔ ¬ Misshapen (c :: run) :=
  ⟨numeralShaped, shapedNumeral first all⟩

section Kinds
variable {t : Token}

theorem ofTokenString (string : t.kind = .string) : ofToken? t =
    if t.closed then none
    else some ⟨⟨t.start, ⟨t.line, t.column + t.text.length + 1⟩⟩, .unterminatedString⟩ := by
  cases closed : t.closed <;> simp [ofToken?, string, closed]

theorem ofTokenNumber (number : t.kind = .number) : ofToken? t =
    if isNumber t.text.toList then none else some ⟨t.range, .invalidNumber⟩ := by
  cases shaped : isNumber t.text.toList <;> simp [ofToken?, number, shaped]

theorem ofTokenOther (string : t.kind ≠ .string) (number : t.kind ≠ .number) : ofToken? t = none := by
  simp [ofToken?, string, number]

end Kinds

theorem ofTokenStart {t : Token} {f : Finding} (found : ofToken? t = some f) : f.range.start = t.start := by
  unfold ofToken? at found
  repeat' split at found
  all_goals cases found
  all_goals rfl

theorem ofTokenRow {t : Token} {f : Finding} (found : ofToken? t = some f) (filled : 0 < t.width) :
    f.range.start.line = f.range.stop.line ∧ f.range.start.character < f.range.stop.character := by
  unfold ofToken? at found
  repeat' split at found
  all_goals cases found
  · refine ⟨rfl, ?_⟩
    simp only [Token.start]
    omega
  · refine ⟨rfl, ?_⟩
    simp only [Token.range, Token.start, Token.stop]
    omega

end Finding

namespace Token

/- Each quote of this kind is escaped, or stands behind a line end. -/
def Unclosed (quote : Char) (rest : List Char) : Prop :=
  ∀ k < rest.length, rest[k]? = some quote →
    isEscaped (rest.take k) = true ∨ ∃ c ∈ rest.take k, isLineEnd c = true

instance (quote : Char) (rest : List Char) : Decidable (Unclosed quote rest) :=
  inferInstanceAs (Decidable (∀ k < rest.length, rest[k]? = some quote →
    isEscaped (rest.take k) = true ∨ ∃ c ∈ rest.take k, isLineEnd c = true))

/- A lexeme of a text, with what stands before it and behind it. -/
structure Occurrence where
  left : List Char
  spelled : List Char
  right : List Char

def occurrences (before : List Char) : List Piece → List Char → List Occurrence
  | [], _ => []
  | piece :: pieces, last =>
    ⟨before ++ piece.gap, piece.spelled, joined pieces last⟩ ::
      occurrences (before ++ piece.gap ++ piece.spelled) pieces last

namespace Occurrence

/- What is wrong with a lexeme: its first character tells what it has to be. -/
def cause? (o : Occurrence) : Option Finding.Cause :=
  match o.spelled with
  | [] => none
  | c :: more =>
    if isQuote c = true then
      if Unclosed c (more ++ o.right) then some .unterminatedString else none
    else if c.isDigit = true then
      if Finding.Misshapen (c :: more) then some .invalidNumber else none
    else none

structure Sound (o : Occurrence) : Prop where
  string : ∀ quote more, o.spelled = quote :: more → isQuote quote = true →
    ∃ inside, more = inside ++ [quote] ∧ isEscaped inside = false ∧ ∀ c ∈ inside, isLineEnd c = false
  number : ∀ c more, o.spelled = c :: more → c.isDigit = true → Finding.Numeral o.spelled

end Occurrence

theorem lexesFirst {spelled rest found} (lexed : Lexes spelled rest found) :
    ∃ c more, spelled = c :: more ∧ (isQuote c = true ↔ found.kind = .string) ∧
      (c.isDigit = true ↔ found.kind = .number) := by
  cases lexed with
  | string opens spelled ends => exact ⟨_, _, rfl, by simp [opens], by simp [quoteClass opens]⟩
  | number first all longest => exact ⟨_, _, rfl, by simp [digitClass first], by simp [first]⟩
  | keyword first all longest reserved => exact ⟨_, _, rfl, by simp [wordClass first], by simp [wordClass first]⟩
  | identifier first all longest free => exact ⟨_, _, rfl, by simp [wordClass first], by simp [wordClass first]⟩
  | «at» => exact ⟨_, _, rfl, by decide, by decide⟩
  | operator pair => exact ⟨_, _, rfl, by simp [operatorClass pair], by simp [operatorClass pair]⟩
  | punctuation string number word other single => exact ⟨_, _, rfl, by simp [string], by simp [number]⟩

theorem closedInside {quote : Char} {inside : List Char} (free : isEscaped inside = false)
    (row : ∀ c ∈ inside, isLineEnd c = false) (rest : List Char) :
    ¬ Unclosed quote (inside ++ quote :: rest) := by
  intro unclosed
  have here := unclosed inside.length (by simp) (by simp)
  rw [List.take_left] at here
  rcases here with escaped | ⟨c, member, line⟩
  · exact Bool.false_ne_true (free.symm.trans escaped)
  · exact Bool.false_ne_true ((row c member).symm.trans line)

theorem unclosedBehind {quote : Char} (opens : isQuote quote = true) {inside right : List Char}
    (quotes : ∀ a b, inside = a ++ quote :: b → isEscaped a = true) (stops : Next (isLineEnd · = true) right) :
    Unclosed quote (inside ++ right) := by
  intro k _ found
  rcases Nat.lt_or_ge k inside.length with within | behind
  · rw [List.getElem?_append_left within] at found
    rw [List.take_append_of_le_length (Nat.le_of_lt within)]
    refine .inl (quotes _ (inside.drop (k + 1)) ?_)
    obtain ⟨_, same⟩ := List.getElem?_eq_some_iff.mp found
    rw [← same, List.getElem_cons_drop, List.take_append_drop]
  · -- behind the string the line has ended, with what is no quote
    rw [List.getElem?_append_right behind] at found
    cases right with
    | nil => cases found
    | cons c right =>
      have line := stops c rfl
      refine .inr ⟨c, ?_, line⟩
      cases gap : k - inside.length with
      | zero =>
        rw [gap] at found
        cases found
        exact absurd line (by simp [quoteRow opens])
      | succ n =>
        rw [List.take_append, gap]
        simp

section Literal
variable {src left inside right : List Char} {quote : Char} {t : Token}
  (literal : Literal src left quote inside right t)
include literal

theorem Literal.unclosed :
    Unclosed quote (inside ++ if t.closed then quote :: right else right) ↔ t.closed = false := by
  cases closed : t.closed with
  | true => simpa using closedInside (literal.closes closed) literal.row right
  | false => simpa using unclosedBehind literal.opens literal.quotes (literal.stops closed)

theorem Literal.spelled {spelled : List Char} (text : src = left ++ (spelled ++ right)) :
    spelled = quote :: (inside ++ if t.closed then [quote] else []) := by
  have same := List.append_cancel_left (text.symm.trans literal.text)
  cases closed : t.closed with
  | true =>
    have cut : quote :: (inside ++ quote :: right) = quote :: (inside ++ [quote]) ++ right := by simp
    rw [closed, if_pos rfl, cut] at same
    exact List.append_cancel_right same
  | false =>
    rw [closed, if_neg Bool.false_ne_true, ← List.cons_append] at same
    simpa using List.append_cancel_right same

end Literal

section Lexed
variable {lead : CommentLead} {src left spelled right : List Char} {found : Lexeme} {t : Token}
  (lexed : Lexed lead src left spelled right found t)
include lexed

theorem Lexed.kind : t.kind = found.kind := by rw [lexed.token, Lexeme.token]

theorem Lexed.stringCause (string : t.kind = .string) :
    Occurrence.cause? ⟨left, spelled, right⟩ = if t.closed then none else some .unterminatedString := by
  obtain ⟨quote, inside, literal⟩ := stringLiteral lexed string
  have whole : (inside ++ if t.closed then [quote] else []) ++ right =
      inside ++ if t.closed then quote :: right else right := by
    cases t.closed <;> simp
  have unclosed := literal.unclosed
  simp only [Occurrence.cause?, literal.spelled lexed.text, literal.opens, whole, unclosed, if_true]
  cases t.closed <;> rfl

theorem Lexed.numberRun (number : t.kind = .number) : t.text = String.ofList spelled ∧
    ∃ c run, spelled = c :: run ∧ c.isDigit = true ∧ ∀ d ∈ run, isNumberChar d = true := by
  obtain ⟨_, _, lexes, rfl⟩ := lexed
  cases lexes with
  | number first all longest => exact ⟨rfl, _, _, rfl, first, all⟩
  | _ => cases number

theorem Lexed.numberCause (number : t.kind = .number) :
    Occurrence.cause? ⟨left, spelled, right⟩ =
      if Finding.isNumber t.text.toList then none else some .invalidNumber := by
  obtain ⟨text, c, run, rfl, first, all⟩ := lexed.numberRun number
  have shape := (Finding.numeralIff first all).symm.trans Finding.isNumberIff.symm
  rw [text, String.toList_ofList]
  simp only [Occurrence.cause?, digitClass first, first, Bool.false_eq_true, if_false, if_true, ← shape]
  split <;> simp_all

theorem Lexed.otherCause (string : t.kind ≠ .string) (number : t.kind ≠ .number) :
    Occurrence.cause? ⟨left, spelled, right⟩ = none := by
  obtain ⟨c, more, rfl, quoted, digit⟩ := lexesFirst lexed.lexes
  rw [lexed.kind] at string number
  simp [Occurrence.cause?, mt quoted.mp string, mt digit.mp number]

/- The finding about a token has the cause that its characters tell. -/
theorem Lexed.cause : (Finding.ofToken? t).map Finding.cause = Occurrence.cause? ⟨left, spelled, right⟩ := by
  by_cases string : t.kind = .string
  · rw [Finding.ofTokenString string, lexed.stringCause string]
    cases t.closed <;> rfl
  by_cases number : t.kind = .number
  · rw [Finding.ofTokenNumber number, lexed.numberCause number]
    cases Finding.isNumber t.text.toList <;> rfl
  · rw [Finding.ofTokenOther string number, lexed.otherCause string number]
    rfl

theorem Lexed.soundString (string : t.kind = .string) :
    Occurrence.Sound ⟨left, spelled, right⟩ ↔ t.closed = true := by
  obtain ⟨quote, inside, literal⟩ := stringLiteral lexed string
  have spelled := literal.spelled lexed.text
  constructor
  · intro sound
    by_contra torn
    rw [Bool.not_eq_true] at torn
    rw [torn, if_neg Bool.false_ne_true, List.append_nil] at spelled
    obtain ⟨before, rfl, free, row⟩ := sound.string quote inside spelled literal.opens
    have unclosed := literal.unclosed.mpr torn
    rw [torn, if_neg Bool.false_ne_true, List.append_assoc] at unclosed
    exact closedInside free row right unclosed
  · intro closed
    rw [closed, if_pos rfl] at spelled
    refine ⟨fun mark more same _ => ?_, fun c more same digit => ?_⟩
    · obtain ⟨rfl, rfl⟩ := List.cons.inj (spelled.symm.trans same)
      exact ⟨inside, rfl, literal.closes closed, literal.row⟩
    · obtain ⟨rfl, _⟩ := List.cons.inj (spelled.symm.trans same)
      exact absurd digit (by simp [quoteClass literal.opens])

theorem Lexed.soundNumber (number : t.kind = .number) :
    Occurrence.Sound ⟨left, spelled, right⟩ ↔ Finding.isNumber t.text.toList = true := by
  obtain ⟨text, c, run, same, first, all⟩ := lexed.numberRun number
  rw [text, String.toList_ofList, Finding.isNumberIff]
  constructor
  · intro sound
    exact sound.number c run same first
  · intro numeral
    refine ⟨fun quote more other opens => ?_, fun _ _ _ _ => numeral⟩
    obtain ⟨rfl, _⟩ := List.cons.inj (same.symm.trans other)
    exact absurd opens (by simp [digitClass first])

theorem Lexed.soundOther (string : t.kind ≠ .string) (number : t.kind ≠ .number) :
    Occurrence.Sound ⟨left, spelled, right⟩ := by
  obtain ⟨c, more, same, quoted, digit⟩ := lexesFirst lexed.lexes
  rw [lexed.kind] at string number
  refine ⟨fun d _ other opens => ?_, fun d _ other first => ?_⟩
  · obtain ⟨rfl, _⟩ := List.cons.inj (same.symm.trans other)
    exact absurd (quoted.mp opens) string
  · obtain ⟨rfl, _⟩ := List.cons.inj (same.symm.trans other)
    exact absurd (digit.mp first) number

theorem Lexed.soundIff :
    Occurrence.cause? ⟨left, spelled, right⟩ = none ↔ Occurrence.Sound ⟨left, spelled, right⟩ := by
  by_cases string : t.kind = .string
  · rw [lexed.stringCause string, lexed.soundString string]
    cases t.closed <;> simp
  by_cases number : t.kind = .number
  · rw [lexed.numberCause number, lexed.soundNumber number]
    cases Finding.isNumber t.text.toList <;> simp
  · exact iff_of_true (lexed.otherCause string number) (lexed.soundOther string number)

end Lexed

theorem occurrenceLexed {lead before pieces last} (cut : Cut lead before pieces last) :
    ∀ o ∈ occurrences before pieces last, ∃ found t,
      Lexed lead (before ++ joined pieces last) o.left o.spelled o.right found t := by
  induction cut with
  | nil => simp [occurrences]
  | @cons before gap spelled found pieces last skipped opens lexes tail ih =>
    rw [joinedCons]
    intro o member
    rcases List.mem_cons.mp member with rfl | inside
    · exact ⟨found, _, by simp, opens, lexes, rfl⟩
    · obtain ⟨later, t, lexed⟩ := ih o inside
      exact ⟨later, t, by simpa using lexed.text, lexed.opens, lexed.lexes, lexed.token⟩

/- Over a cut, each finding is about one of its lexemes. -/
theorem cutReported {lead before pieces last} (cut : Cut lead before pieces last) :
    (Finding.ofTokens (pieces.map Piece.token)).map (fun f => (f.range.start, f.cause)) =
      (occurrences before pieces last).filterMap fun o => o.cause?.map (Place.ofText o.left, ·) := by
  induction cut with
  | nil => rfl
  | @cons before gap spelled found pieces last skipped opens lexes tail ih =>
    have lexed : Lexed lead (before ++ gap ++ (spelled ++ joined pieces last)) (before ++ gap) spelled
        (joined pieces last) found (found.token (Place.line (before ++ gap)) (Place.column (before ++ gap))) :=
      ⟨rfl, opens, lexes, rfl⟩
    have cause := lexed.cause
    rw [Finding.ofTokens] at ih ⊢
    rw [occurrences, List.map_cons]
    cases reported : Finding.ofToken? (found.token (Place.line (before ++ gap)) (Place.column (before ++ gap))) with
    | none =>
      rw [reported] at cause
      rw [List.filterMap_cons_none reported, List.filterMap_cons_none (by rw [← cause]; rfl)]
      exact ih
    | some f =>
      rw [reported] at cause
      have start : f.range.start = Place.ofText (before ++ gap) := Finding.ofTokenStart reported
      rw [List.filterMap_cons_some reported, List.map_cons, start,
        List.filterMap_cons_some (b := (Place.ofText (before ++ gap), f.cause)) (by rw [← cause]; rfl)]
      exact congrArg _ ih

theorem cutFilled {lead before pieces last} (cut : Cut lead before pieces last) :
    ∀ t ∈ pieces.map Piece.token, 0 < t.width := by
  intro t member
  obtain ⟨piece, inside, rfl⟩ := List.mem_map.mp member
  obtain ⟨_, standing⟩ := cutStanding cut piece inside
  rw [standing.width]
  exact List.length_pos_iff.mpr (cutSpelled cut piece inside)

/- The findings that some lexemes of a text give rise to. -/
structure Reported (lexemes : List Occurrence) (found : List Finding) : Prop where
  each : found.map (fun f => (f.range.start, f.cause)) =
    lexemes.filterMap fun o => o.cause?.map (Place.ofText o.left, ·)
  rows : ∀ f ∈ found, f.range.start.line = f.range.stop.line ∧ f.range.start.character < f.range.stop.character
  ordered : found.Pairwise fun f g => f.range.start.precedes g.range.start = true ∧ f.range.start ≠ g.range.start
  clean : found = [] ↔ ∀ o ∈ lexemes, o.Sound

theorem reportedCut {lead pieces last} (cut : Cut lead [] pieces last) :
    Reported (occurrences [] pieces last) (Finding.ofTokens (pieces.map Piece.token)) := by
  have each := cutReported cut
  refine ⟨each, fun f member => ?_, ?_, ?_⟩
  · obtain ⟨t, listed, found⟩ := List.mem_filterMap.mp member
    exact Finding.ofTokenRow found (cutFilled cut t listed)
  · refine (cutOrdered cut).filterMap _ fun t u apart f found g found' => ?_
    rw [Finding.ofTokenStart found, Finding.ofTokenStart found']
    exact apart.2
  · have causes : Finding.ofTokens (pieces.map Piece.token) = [] ↔
        ∀ o ∈ occurrences [] pieces last, o.cause? = none := by
      rw [← List.map_eq_nil_iff, each, List.filterMap_eq_nil_iff]
      simp
    rw [causes]
    refine forall₂_congr fun o member => ?_
    obtain ⟨found, t, lexed⟩ := occurrenceLexed cut o member
    exact lexed.soundIff

theorem malformedReported (lead : CommentLead) (src : String) (index : Index) (key : Key) (uri : Json) :
    (∃ pieces last, src.toList = joined pieces last ∧ Cut lead [] pieces last) ∧
    ∀ pieces last, src.toList = joined pieces last → Cut lead [] pieces last →
      Reported (occurrences [] pieces last) (index.analyse key uri (ofSource lead src)).2 := by
  refine ⟨?_, fun pieces last text cut => ?_⟩
  · obtain ⟨pieces, last, text, cut⟩ := cutExists lead [] src.toList
    exact ⟨pieces, last, text.symm, cut⟩
  · have tokens : ofSource lead src = pieces.map Piece.token := by
      rw [ofSource, text]
      exact scanCut cut
    rw [tokens]
    exact reportedCut cut

/- Quotes and points in a comment and in a string, a string that its line cuts short behind an escaped quote,
and numbers with too many points and with too few digits. -/
def malformedSource : String := "'1..2' -- \"1.\n\"a\\\" 3.\r\n1.2.3 4. 5.6"

def malformedFindings : List Finding :=
  [⟨⟨⟨1, 0⟩, ⟨1, 6⟩⟩, .unterminatedString⟩, ⟨⟨⟨2, 0⟩, ⟨2, 5⟩⟩, .invalidNumber⟩,
    ⟨⟨⟨2, 6⟩, ⟨2, 8⟩⟩, .invalidNumber⟩]

theorem malformedFound :
    ∃ pieces last, (malformedSource.toList = joined pieces last ∧ Cut .dashes [] pieces last) ∧
      Reported (occurrences [] pieces last) malformedFindings ∧ ¬ ∀ o ∈ occurrences [] pieces last, o.Sound := by
  obtain ⟨⟨pieces, last, text, cut⟩, reported⟩ := malformedReported .dashes malformedSource ∅ .null .null
  have found : (Index.analyse ∅ .null .null (ofSource .dashes malformedSource)).2 = malformedFindings := by
    decide +kernel
  have all := reported pieces last text cut
  rw [found] at all
  exact ⟨pieces, last, ⟨text, cut⟩, all, fun sound => absurd (all.clean.mpr sound) (by decide)⟩

end Token
end LanguageService
