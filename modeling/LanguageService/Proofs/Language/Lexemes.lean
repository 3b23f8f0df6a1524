import LanguageService.Proofs.Language.Locality
import LanguageService.Proofs.Language.Words

/-! Lexemes taken out of a text. Each of them is the same lexeme where it stands alone, whatever stood
around it, so the lexemes of a text on lines of their own have the tokens of the text, one on each line. -/
namespace LanguageService.Token

/- What a token covers of its line. -/
def covered (src : String) (t : Token) : String :=
  String.ofList ((((Word.line? src.toList t.line).getD []).drop t.column).take t.width)

def atLine (line : Nat) (t : Token) : Token := { t with line, column := 0 }

/- The end of the text stops every lexeme. -/
theorem stopsNothing (rest : List Char) : Stops rest [] where
  row _ := by simp [Next]
  number _ := by simp [Next]
  word _ := by simp [Next]
  single _ _ := by simp [Next]

theorem opensFront {lead : CommentLead} {spelled rest : List Char} (opens : Opens lead (spelled ++ rest)) :
    Opens lead spelled := by
  refine ⟨fun c head => opens.1 c ?_, fun comment => ?_⟩
  · rw [List.head?_append, head, Option.some_or]
  · exact opens.2 (comment.trans (List.prefix_append spelled rest))

theorem scanAlone {lead spelled rest found} (opens : Opens lead (spelled ++ rest))
    (lexed : Lexes spelled rest found) : scan lead 0 0 spelled = [found.token 0 0] := by
  have alone : Lexes spelled [] found := lexesStops (stopsNothing rest) lexed
  have starts : Opens lead (spelled ++ []) := (List.append_nil spelled).symm ▸ opensFront opens
  have scanned := scanLexed starts alone 0 0
  have nothing : scan lead 0 (0 + spelled.length) [] = [] := by rw [scan]
  rw [List.append_nil, nothing] at scanned
  exact scanned

theorem atLineLower (tokens : List Token) :
    (tokens.mapIdx atLine).map (lower 1) = tokens.mapIdx fun line t => atLine (line + 1) t := by
  apply List.ext_getElem?
  intro line
  simp only [List.getElem?_map, List.getElem?_mapIdx, Option.map_map]
  rfl

theorem scanLexemes {lead before pieces last} (cut : Cut lead before pieces last) :
    scan lead 0 0 (['\n'].intercalate (pieces.map Piece.spelled)) = (pieces.map Piece.token).mapIdx atLine := by
  induction cut with
  | nil skipped =>
    have empty : ['\n'].intercalate (([] : List Piece).map Piece.spelled) = [] := rfl
    rw [empty, scan]
    rfl
  | @cons before gap spelled found pieces last skipped opens lexed tail ih =>
    have alone := scanAlone opens lexed
    cases pieces with
    | nil => simpa [atLine, Lexeme.token] using alone
    | cons next later =>
      have rows : spelled.count '\n' + 1 = 1 := by
        rw [List.count_eq_zero.mpr (lexesRow lexed opens)]
      have text : ['\n'].intercalate (spelled :: next.spelled :: later.map Piece.spelled) =
          spelled ++ '\n' :: ['\n'].intercalate ((next :: later).map Piece.spelled) := by
        simp
      simp only [List.map_cons] at ih ⊢
      rw [List.mapIdx_cons, ← atLineLower, ← ih, text, scanBelow, rows, alone]
      rfl

theorem coveredSpelled {src : String} {left : List Char} {piece : Piece}
    (standing : Standing src.toList left piece) : (covered src piece.token).toList = piece.spelled := by
  obtain ⟨row, here, spelled⟩ := standing.onLine
  rw [covered, here, String.toList_ofList]
  exact spelled

theorem lexemesRescanned (lead : CommentLead) (src : String) :
    ofSource lead ("\n".intercalate ((ofSource lead src).map (covered src))) =
      (ofSource lead src).mapIdx atLine := by
  obtain ⟨pieces, last, text, cut, tokens⟩ := cutTokens lead src
  have slices : (pieces.map Piece.token).map (String.toList ∘ covered src) = pieces.map Piece.spelled := by
    rw [List.map_map]
    refine List.map_congr_left fun piece member => ?_
    obtain ⟨left, standing⟩ := cutStanding cut piece member
    rw [List.nil_append, text] at standing
    exact coveredSpelled standing
  rw [ofSource, String.toList_intercalate, List.map_map, ← tokens, slices]
  exact scanLexemes cut

/- Lexemes that lean on what is next to them: a dash, a literal that its line cuts short, a run of signs. -/
example : (ofSource .dashes "-x -- y\n'a\\\n1..2===").map (covered "-x -- y\n'a\\\n1..2===") =
    ["-", "x", "'a\\", "1..2", "==", "="] := by decide +kernel

end LanguageService.Token
