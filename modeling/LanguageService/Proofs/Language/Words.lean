import LanguageService.Proofs.Language.Positions
import LanguageService.Proofs.Number.Decimal

/-! Words in a text: what keywords and identifiers are made of, where a word stops, and what stands around
a piece of a cut. -/
namespace LanguageService.Token

def Wordlike (cs : List Char) : Prop :=
  ∃ c run, cs = c :: run ∧ isWordStart c = true ∧ ∀ d ∈ run, isWordChar d = true

theorem Wordlike.chars {cs : List Char} (word : Wordlike cs) : ∀ c ∈ cs, isWordChar c = true := by
  obtain ⟨c, run, rfl, first, all⟩ := word
  refine List.forall_mem_cons.mpr ⟨?_, all⟩
  rw [isWordChar, first, Bool.true_or]

theorem wordRow {cs : List Char} (chars : ∀ c ∈ cs, isWordChar c = true) : '\n' ∉ cs := by
  intro member
  exact absurd (chars _ member) (by decide)

theorem Wordlike.row {cs : List Char} (word : Wordlike cs) : '\n' ∉ cs := wordRow word.chars

theorem wordCode {c : Char} (word : isWordChar c = true) : 48 ≤ c.toNat ∧ c.toNat ≤ 122 := by
  simp only [isWordChar, isWordStart, Bool.or_eq_true, beq_iff_eq] at word
  rcases word with (rfl | letter) | digit
  · decide
  · have either : (decide (c.val ≥ 'A'.val ∧ c.val ≤ 'Z'.val) ||
        (decide (c.val ≥ 'a'.val) && decide (c.val ≤ 'z'.val))) = true := letter
    simp only [Bool.or_eq_true, Bool.and_eq_true, decide_eq_true_eq, ge_iff_le, UInt32.le_iff_toNat_le] at either
    change (65 ≤ c.toNat ∧ c.toNat ≤ 90) ∨ 97 ≤ c.toNat ∧ c.toNat ≤ 122 at either
    omega
  · have code := Number.digitCode digit
    omega

theorem wordVisible {c : Char} (word : isWordChar c = true) : Text.isBlank c = false := by
  have code := wordCode word
  simp only [Text.isBlank]
  grind

theorem blankWord {c : Char} (blank : Text.isBlank c = true) : isWordChar c = false := by
  cases word : isWordChar c with
  | false => rfl
  | true => exact absurd blank (by simp [wordVisible word])

theorem nextTaken {p : Char → Prop} {rest : List Char} (next : Next p rest) (kept : Char → Bool) :
    Next p (rest.takeWhile kept) := by
  intro c head
  cases rest with
  | nil => cases head
  | cons d rest =>
    refine next c ?_
    cases keeps : kept d with
    | true => simpa [keeps] using head
    | false => simp [keeps] at head

theorem lexesWord {spelled rest found} (lexed : Lexes spelled rest found)
    (word : found.kind = .keyword ∨ found.kind = .identifier) :
    Wordlike spelled ∧ Next (isWordChar · = false) rest ∧ found.text = spelled ∧
      (found.kind = .identifier → Vocabulary.isKeyword (String.ofList spelled) = false) := by
  cases lexed with
  | keyword first all longest reserved => exact ⟨⟨_, _, rfl, first, all⟩, longest, rfl, by simp⟩
  | identifier first all longest free => exact ⟨⟨_, _, rfl, first, all⟩, longest, rfl, fun _ => free⟩
  | _ => simp at word

theorem joinedAppend (earlier later : List Piece) (last : List Char) :
    joined (earlier ++ later) last = joined earlier [] ++ joined later last := by
  simp [joined]

theorem joinedPiece (earlier later : List Piece) (piece : Piece) (last : List Char) :
    joined (earlier ++ piece :: later) last =
      joined earlier [] ++ piece.gap ++ (piece.spelled ++ joined later last) := by
  rw [joinedAppend, joinedCons, List.append_assoc]

theorem cutSplit {lead before earlier later last} (cut : Cut lead before (earlier ++ later) last) :
    Cut lead (before ++ joined earlier []) later last := by
  induction earlier generalizing before with
  | nil => simpa [joined] using cut
  | cons piece earlier ih =>
    cases cut with
    | cons skipped opens lexed tail =>
      have rest := ih tail
      rw [joinedCons]
      simpa only [List.append_assoc] using rest

theorem pieceStanding {lead before earlier piece later last}
    (cut : Cut lead before (earlier ++ piece :: later) last) :
    Standing (before ++ joined (earlier ++ piece :: later) last) (before ++ (joined earlier [] ++ piece.gap))
      piece := by
  rw [joinedPiece]
  cases cutSplit cut with
  | @cons _ gap spelled found _ _ skipped opens lexed tail =>
    have standing := headStanding (before ++ joined earlier []) gap opens lexed
    simpa only [List.append_assoc] using standing

theorem cutTokens (lead : CommentLead) (src : String) :
    ∃ pieces last, joined pieces last = src.toList ∧ Cut lead [] pieces last ∧
      pieces.map Piece.token = ofSource lead src := by
  obtain ⟨pieces, last, text, cut⟩ := cutExists lead [] src.toList
  refine ⟨pieces, last, text, cut, ?_⟩
  rw [ofSource, ← text]
  exact (scanCut cut).symm

/- Where a token was cut from: its lexeme, between the text before it and the text behind it. -/
structure Lexed (lead : CommentLead) (src left spelled right : List Char) (found : Lexeme) (t : Token) : Prop where
  text : src = left ++ (spelled ++ right)
  opens : Opens lead (spelled ++ right)
  lexes : Lexes spelled right found
  token : t = found.token (Place.line left) (Place.column left)

theorem tokenCut {lead : CommentLead} {src : String} {t : Token} (listed : t ∈ ofSource lead src) :
    ∃ earlier piece later last, joined (earlier ++ piece :: later) last = src.toList ∧
      Cut lead [] (earlier ++ piece :: later) last ∧ piece.token = t := by
  obtain ⟨pieces, last, text, cut, tokens⟩ := cutTokens lead src
  rw [← tokens] at listed
  obtain ⟨piece, member, same⟩ := List.mem_map.mp listed
  obtain ⟨earlier, later, rfl⟩ := List.append_of_mem member
  exact ⟨earlier, piece, later, last, text, cut, same⟩

/- A piece of a cut where it stands. -/
theorem pieceLexed {lead : CommentLead} {earlier later : List Piece} {piece : Piece} {last : List Char}
    (cut : Cut lead [] (earlier ++ piece :: later) last) :
    ∃ found, Lexed lead (joined (earlier ++ piece :: later) last) (joined earlier [] ++ piece.gap) piece.spelled
      (joined later last) found piece.token := by
  cases cutSplit cut with
  | @cons _ gap spelled found _ _ skipped opens lexes tail =>
    exact ⟨found, joinedPiece .., opens, lexes, rfl⟩

theorem tokenLexed {lead : CommentLead} {src : String} {t : Token} (listed : t ∈ ofSource lead src) :
    ∃ left spelled right found, Lexed lead src.toList left spelled right found t := by
  obtain ⟨earlier, piece, later, last, text, cut, rfl⟩ := tokenCut listed
  obtain ⟨found, lexed⟩ := pieceLexed cut
  exact ⟨_, _, _, found, text ▸ lexed⟩

end LanguageService.Token
