import LanguageService.Proofs.Language.Grammar

/-! Where tokens stand. The counters of the scanner, the lines of a text by number and the
offsets of places agree: each of them finds the whole lexeme that a token describes. Tokens
follow each other without overlap. -/
namespace LanguageService.Token

structure Standing (src left : List Char) (piece : Piece) : Prop where
  text : ∃ right, src = left ++ (piece.spelled ++ right)
  line : piece.token.line = Place.line left
  column : piece.token.column = Place.column left
  lexed : ∃ found rest, Lexes piece.spelled rest found ∧
    piece.token = found.token piece.token.line piece.token.column
  row : '\n' ∉ piece.spelled

theorem headStanding {lead spelled found pieces last} (before gap : List Char)
    (opens : Opens lead (spelled ++ joined pieces last))
    (lexed : Lexes spelled (joined pieces last) found) :
    Standing (before ++ gap ++ spelled ++ joined pieces last) (before ++ gap)
      ⟨gap, spelled, found.token (Place.line (before ++ gap)) (Place.column (before ++ gap))⟩ :=
  ⟨⟨joined pieces last, by simp⟩, rfl, rfl, ⟨found, joined pieces last, lexed, rfl⟩,
    lexesRow lexed opens⟩

theorem cutStanding {lead before pieces last} (cut : Cut lead before pieces last) :
    ∀ piece ∈ pieces, ∃ more, Standing (before ++ joined pieces last) (before ++ more) piece := by
  induction cut with
  | nil => simp
  | @cons before gap spelled found pieces last skipped opens lexed tail ih =>
    intro piece member
    have same : before ++ joined (⟨gap, spelled, found.token (Place.line (before ++ gap))
        (Place.column (before ++ gap))⟩ :: pieces) last =
        before ++ gap ++ spelled ++ joined pieces last := by simp [joinedCons]
    rw [same]
    rcases List.mem_cons.mp member with rfl | inside
    · exact ⟨gap, headStanding before gap opens lexed⟩
    · obtain ⟨more, standing⟩ := ih piece inside
      exact ⟨gap ++ spelled ++ more, by simpa using standing⟩

theorem lexesWidth {spelled rest found} (lexed : Lexes spelled rest found) (line column : Nat) :
    (found.token line column).width = spelled.length := by
  cases lexed with
  | string => simp only [Lexeme.token, width, Option.getD_some, List.length_cons]
  | _ => simp only [Lexeme.token, width, Option.getD_none, String.length_ofList]

theorem lexesText {spelled rest found} (lexed : Lexes spelled rest found)
    (other : found.kind ≠ .string) : spelled = found.text := by
  cases lexed with
  | string => exact absurd rfl other
  | _ => rfl

theorem lexesString {spelled rest found} (lexed : Lexes spelled rest found)
    (string : found.kind = .string) :
    (∃ quote more, spelled = quote :: more ∧ isQuote quote = true) ∧
      ∀ c ∈ spelled, isLineEnd c = false := by
  cases lexed with
  | string opens spelled ends => exact ⟨⟨_, _, rfl, opens⟩, stringRow opens spelled ends⟩
  | _ => cases string

variable {src left : List Char} {piece : Piece}

theorem Standing.width (standing : Standing src left piece) :
    piece.token.width = piece.spelled.length := by
  obtain ⟨found, rest, lexed, same⟩ := standing.lexed
  rw [same, lexesWidth lexed]

theorem Standing.start (standing : Standing src left piece) :
    piece.token.start = Place.ofText left := by
  simp [Token.start, Place.ofText, standing.line, standing.column]

theorem Standing.stop (standing : Standing src left piece) :
    piece.token.stop = Place.ofText (left ++ piece.spelled) := by
  simp [Token.stop, Place.ofText, standing.line, standing.column, standing.width,
    Place.lineAppend, Place.lineWhole standing.row, Place.columnAppend standing.row]

theorem Standing.onLine (standing : Standing src left piece) :
    ∃ row, Word.line? src piece.token.line = some row ∧
      (row.drop piece.token.column).take piece.token.width = piece.spelled := by
  obtain ⟨right, rfl⟩ := standing.text
  refine ⟨_, standing.line ▸ Place.lineAround left standing.row right, ?_⟩
  rw [standing.column, standing.width, Place.column, List.drop_left, List.take_left]

theorem Standing.offsets (standing : Standing src left piece) :
    Edit.offset? src piece.token.line piece.token.column = some (left.length : Int) ∧
      Edit.offset? src piece.token.line (piece.token.column + piece.token.width : Nat) =
        some (left.length + piece.spelled.length : Nat) := by
  obtain ⟨right, rfl⟩ := standing.text
  have stop := Place.offsetOfText (left ++ piece.spelled) right
  rw [Place.lineAppend, Place.lineWhole standing.row, Place.columnAppend standing.row,
    List.append_assoc, List.length_append] at stop
  rw [standing.line, standing.column, standing.width]
  exact ⟨Place.offsetOfText left _, stop⟩

theorem precedesStart {t u : Token} (positive : 0 < t.width)
    (apart : t.stop.precedes u.start = true) :
    t.start.precedes u.start = true ∧ t.start ≠ u.start := by
  rw [Place.precedesIff] at apart ⊢
  simp only [Token.stop, Token.start, ne_eq, Position.mk.injEq] at apart ⊢
  omega

theorem cutOrdered {lead before pieces last} (cut : Cut lead before pieces last) :
    (pieces.map Piece.token).Pairwise fun t u =>
      t.stop.precedes u.start = true ∧ t.start.precedes u.start = true ∧ t.start ≠ u.start := by
  induction cut with
  | nil => simp
  | @cons before gap spelled found pieces last skipped opens lexed tail ih =>
    refine List.pairwise_cons.mpr ⟨?_, ih⟩
    intro u member
    obtain ⟨piece, inside, rfl⟩ := List.mem_map.mp member
    obtain ⟨more, later⟩ := cutStanding tail piece inside
    have here := headStanding before gap opens lexed
    have positive : 0 < spelled.length := by
      obtain ⟨c, rest, same, _⟩ := lexemeOfLexes lexed
      simp [same]
    have apart := Place.precedesAppend (before ++ gap ++ spelled) more
    rw [← later.start, ← here.stop] at apart
    exact ⟨apart, precedesStart (here.width ▸ positive) apart⟩

structure Placed (src : List Char) (piece : Piece) : Prop where
  width : piece.token.width = piece.spelled.length
  onLine : ∃ row, Word.line? src piece.token.line = some row ∧
    (row.drop piece.token.column).take piece.token.width = piece.spelled
  between : ∃ start stop : Nat,
    Edit.offset? src piece.token.line piece.token.column = some (start : Int) ∧
    Edit.offset? src piece.token.line (piece.token.column + piece.token.width) = some (stop : Int) ∧
    (src.take stop).drop start = piece.spelled
  text : piece.token.kind ≠ .string → piece.spelled = piece.token.text.toList
  string : piece.token.kind = .string →
    (∃ quote more, piece.spelled = quote :: more ∧ isQuote quote = true) ∧
      ∀ c ∈ piece.spelled, isLineEnd c = false

theorem Standing.placed (standing : Standing src left piece) : Placed src piece := by
  obtain ⟨found, rest, lexed, same⟩ := standing.lexed
  obtain ⟨right, whole⟩ := standing.text
  have kind : piece.token.kind = found.kind := congrArg Token.kind same
  refine ⟨standing.width, standing.onLine,
    ⟨left.length, left.length + piece.spelled.length, standing.offsets.1, ?_, ?_⟩, ?_, ?_⟩
  · exact_mod_cast standing.offsets.2
  · rw [whole, ← List.append_assoc, ← List.length_append, List.take_left, List.drop_left]
  · intro other
    have text : piece.token.text = String.ofList found.text := congrArg Token.text same
    rw [text, String.toList_ofList]
    exact lexesText lexed (kind ▸ other)
  · intro string
    exact lexesString lexed (kind ▸ string)

theorem tokenPlaces (lead : CommentLead) (src : String) :
    ∃ pieces last, src.toList = joined pieces last ∧ Cut lead [] pieces last ∧
      pieces.map Piece.token = ofSource lead src ∧
      (∀ piece ∈ pieces, Placed src.toList piece) ∧
      (ofSource lead src).Pairwise fun t u =>
        t.stop.precedes u.start = true ∧ t.start.precedes u.start = true ∧ t.start ≠ u.start := by
  obtain ⟨pieces, last, text, cut⟩ := cutExists lead [] src.toList
  have tokens : pieces.map Piece.token = ofSource lead src := by
    rw [ofSource, ← text]
    exact (scanCut cut).symm
  refine ⟨pieces, last, text.symm, cut, tokens, ?_, tokens ▸ cutOrdered cut⟩
  intro piece member
  obtain ⟨left, standing⟩ := cutStanding cut piece member
  rw [List.nil_append, text] at standing
  exact standing.placed

end LanguageService.Token
