import LanguageService.Language.Finding
import LanguageService.Proofs.Language.Grammar

/-! A line feed parts a text: no lexeme and no comment runs over it, so what stands above it has the
tokens that it has alone, and so has what stands below, only further down. -/
namespace LanguageService

def Position.lower (rows : Nat) (p : Position) : Position := { p with line := p.line + rows }

def Range.lower (rows : Nat) (r : Range) : Range := ⟨r.start.lower rows, r.stop.lower rows⟩

def Token.lower (rows : Nat) (t : Token) : Token := { t with line := t.line + rows }

def Finding.lower (rows : Nat) (f : Finding) : Finding := { f with range := f.range.lower rows }

namespace Token

theorem nextEnd {p : Char → Prop} {rest : List Char} (next : Next p rest) {c : Char} (holds : p c)
    (below : List Char) : Next p (rest ++ c :: below) := by
  intro d head
  cases rest with
  | nil => cases head; exact holds
  | cons e rest => exact next d head

theorem lineEndClass {c : Char} (line : isLineEnd c = true) :
    isNumberChar c = false ∧ isWordChar c = false ∧ ∀ d, (d, c) ∉ operators := by
  have second : ∀ pair ∈ operators, isLineEnd pair.2 = false := by decide
  refine ⟨?_, ?_, fun d pair => Bool.false_ne_true ((second _ pair).symm.trans line)⟩
  all_goals
    simp only [isLineEnd, Bool.or_eq_true, beq_iff_eq] at line
    rcases line with rfl | rfl <;> decide

/- What could end at the end of the text can end at a line end. -/
theorem stopsEnd {c : Char} (line : isLineEnd c = true) (rest below : List Char) :
    Stops rest (rest ++ c :: below) where
  row row := nextEnd row line below
  number longest := nextEnd longest (lineEndClass line).1 below
  word longest := nextEnd longest (lineEndClass line).2.1 below
  single d single := nextEnd single ((lineEndClass line).2.2 d) below

/- Half of a comment lead does not become a whole one. -/
theorem opensEnd {lead : CommentLead} {src : List Char} (opens : Opens lead src) (filled : src ≠ []) {c : Char}
    (line : isLineEnd c = true) (below : List Char) : Opens lead (src ++ c :: below) := by
  obtain ⟨d, more, rfl⟩ := List.exists_cons_of_ne_nil filled
  refine ⟨opens.1, fun inside => ?_⟩
  have plain : ∀ e ∈ lead.chars, isLineEnd e = false := by
    cases lead <;> simp [CommentLead.chars, CommentLead.text, isLineEnd]
  by_cases short : lead.chars.length ≤ (d :: more).length
  · exact opens.2 (List.prefix_of_prefix_length_le inside (List.prefix_append _ _) short)
  · have reaches : (d :: more) ++ [c] <+: lead.chars :=
      List.prefix_of_prefix_length_le ⟨below, by simp⟩ inside (by simp at short ⊢; omega)
    exact Bool.false_ne_true ((plain c (reaches.subset (by simp))).symm.trans line)

/- The scanner over a cut text with more lines below it. -/
theorem scanAbove {lead before pieces last} (cut : Cut lead before pieces last) (below : List Char) :
    scan lead (Place.line before) (Place.column before) (joined pieces last ++ '\n' :: below) =
      pieces.map Piece.token ++ scan lead (Place.line (before ++ joined pieces last) + 1) 0 below := by
  induction cut with
  | @nil before last skipped =>
    have gap : Gap lead last ('\n' :: below) := gapStops (fun feed => nextEnd feed rfl below) skipped
    have text : joined [] last = last := rfl
    rw [text, scanGap gap, scan, if_pos rfl]
    rfl
  | @cons before gap spelled found pieces last skipped opens lexed tail ih =>
    have whole := lexesRow lexed opens
    obtain ⟨c, more, same, _⟩ := lexemeOfLexes lexed
    have feed : isLineEnd '\n' = true := by decide
    have wider := gapStops (fun feed => nextEnd feed rfl below) skipped
    have starts := opensEnd opens (by simp [same]) feed below
    rw [List.append_assoc] at wider starts
    rw [Place.lineAppend (before ++ gap), Place.lineWhole whole, Place.columnAppend whole] at ih
    rw [joinedCons, List.append_assoc, List.append_assoc, scanGap wider,
      scanLexed starts (lexesStops (stopsEnd feed _ below) lexed), List.map_cons, List.cons_append]
    simp only [List.append_assoc] at ih ⊢
    exact congrArg _ ih

theorem scanLower (lead : CommentLead) (rows line column : Nat) (src : List Char) :
    scan lead (line + rows) column src = (scan lead line column src).map (lower rows) := by
  fun_induction scan lead line column src with
  | case1 => rw [scan]; rfl
  | case2 line column rest ih =>
    rw [scan, if_pos rfl, Nat.add_right_comm]
    exact ih
  | case3 line column c rest feed blank ih =>
    rw [scan, if_neg feed, if_pos blank]
    exact ih
  | case4 line column c rest feed blank opens comment ih =>
    rw [scan, if_neg feed, if_neg blank, if_pos opens]
    exact ih
  | case5 line column c rest feed blank opens found ih =>
    rw [scan, if_neg feed, if_neg blank, if_neg opens, List.map_cons]
    exact congrArg _ ih

theorem scanBelow (lead : CommentLead) (above below : List Char) :
    scan lead 0 0 (above ++ '\n' :: below) =
      scan lead 0 0 above ++ (scan lead 0 0 below).map (lower (above.count '\n' + 1)) := by
  obtain ⟨pieces, last, rfl, cut⟩ := cutExists lead [] above
  have alone := scanCut cut
  have both := scanAbove cut below
  rw [← scanLower, Nat.zero_add]
  exact both.trans (congrArg (· ++ _) alone.symm)

end Token

namespace Finding

theorem ofTokenLower (rows : Nat) (t : Token) : ofToken? (t.lower rows) = (ofToken? t).map (lower rows) := by
  by_cases string : t.kind = .string ∧ (!t.closed) = true
  · have lowered : (t.lower rows).kind = .string ∧ (!(t.lower rows).closed) = true := string
    rw [ofToken?, ofToken?, if_pos string, if_pos lowered]
    simp [lower, Range.lower, Position.lower, Token.start, Token.lower]
  have untouched : ¬ ((t.lower rows).kind = .string ∧ (!(t.lower rows).closed) = true) := string
  by_cases number : t.kind = .number ∧ (!isNumber t.text.toList) = true
  · have lowered : (t.lower rows).kind = .number ∧ (!isNumber (t.lower rows).text.toList) = true := number
    rw [ofToken?, ofToken?, if_neg string, if_neg untouched, if_pos number, if_pos lowered]
    simp [lower, Range.lower, Position.lower, Token.range, Token.stop, Token.width, Token.start, Token.lower]
  · have lowered : ¬ ((t.lower rows).kind = .number ∧ (!isNumber (t.lower rows).text.toList) = true) := number
    rw [ofToken?, ofToken?, if_neg string, if_neg untouched, if_neg number, if_neg lowered]
    rfl

theorem ofTokensLower (rows : Nat) (tokens : List Token) :
    ofTokens (tokens.map (Token.lower rows)) = (ofTokens tokens).map (lower rows) := by
  simp only [ofTokens, List.filterMap_map, List.map_filterMap, Function.comp_def, ofTokenLower]

end Finding

theorem Token.ofSourceLines (lead : CommentLead) (above below : String) :
    ofSource lead (above ++ "\n" ++ below) =
        ofSource lead above ++ (ofSource lead below).map (lower (above.toList.count '\n' + 1)) ∧
      Finding.ofTokens (ofSource lead (above ++ "\n" ++ below)) =
        Finding.ofTokens (ofSource lead above) ++
          (Finding.ofTokens (ofSource lead below)).map (Finding.lower (above.toList.count '\n' + 1)) := by
  have text : (above ++ "\n" ++ below).toList = above.toList ++ '\n' :: below.toList := by
    simp
  have tokens : ofSource lead (above ++ "\n" ++ below) =
      ofSource lead above ++ (ofSource lead below).map (lower (above.toList.count '\n' + 1)) := by
    rw [ofSource, text, scanBelow]
    rfl
  refine ⟨tokens, ?_⟩
  rw [tokens, ← Finding.ofTokensLower]
  exact List.filterMap_append

end LanguageService
