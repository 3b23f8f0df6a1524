import LanguageService.Proofs.Language.Locality
import LanguageService.Proofs.Query.Sites

/-! The word under a cursor and the token under it. A token ends where its word ends, but a word goes back as
far as there are word characters, and right before a keyword or an identifier such a character can only be the
last digit of a number. -/
namespace LanguageService.Token

/- The last character of a lexeme that a word follows at once. -/
theorem lexesBeforeWord {spelled rest found} (lexed : Lexes spelled rest found) {c : Char}
    (next : rest.head? = some c) (starts : isWordStart c = true) {d : Char} (last : spelled.getLast? = some d)
    (char : isWordChar d = true) : d.isDigit = true := by
  have more : isWordChar c = true := by rw [isWordChar, starts, Bool.true_or]
  have goesOn (stops : Next (isLineEnd · = true) rest) : False := by
    have stopped := (lineEndClass (stops c next)).2.1
    exact Bool.false_ne_true (stopped.symm.trans more)
  cases lexed with
  | @string quote source content mark _ closed opens spelled ends =>
    cases ends with
    | quoted =>
      rw [← List.cons_append, List.getLast?_concat] at last
      cases last
      simp [isWordChar, quoteClass opens] at char
    | stopped stops => exact (goesOn stops).elim
    | dangling stops => exact (goesOn stops).elim
  | @number first run _ digit all longest =>
    rcases List.mem_cons.mp (List.mem_of_getLast? last) with rfl | member
    · exact digit
    · have point : d ≠ '.' := by
        rintro rfl
        cases char
      simpa [isNumberChar, point] using all d member
  | keyword _ _ longest _ => exact absurd more (by simp [longest c next])
  | identifier _ _ longest _ => exact absurd more (by simp [longest c next])
  | «at» =>
    cases last
    cases char
  | @operator first second _ pair =>
    have outside : ∀ pair ∈ operators, isWordChar pair.2 = false := by decide
    cases last
    exact absurd char (by simp [outside _ pair])
  | punctuation string number word other single =>
    cases last
    simp [isWordChar, word, number] at char

theorem wordBehind {lead : CommentLead} {earlier later : List Piece} {piece : Piece} {last : List Char}
    (cut : Cut lead [] (earlier ++ piece :: later) last) (word : Wordlike piece.spelled) {d : Char}
    (final : (joined earlier [] ++ piece.gap).getLast? = some d) (char : isWordChar d = true) :
    d.isDigit = true := by
  obtain ⟨gap, spelled, token⟩ := piece
  obtain ⟨c, run, rfl, starts, _⟩ := word
  rw [List.getLast?_append] at final
  cases behind : gap.getLast? with
  | some e =>
    rw [behind, Option.some_or] at final
    cases cutSplit cut with
    | cons skipped opens lexed tail =>
      have blank := gapEnds skipped (opens.1 c rfl) d (behind.trans final)
      exact absurd char (by simp [blankWord blank])
  | none =>
    obtain rfl := List.getLast?_eq_none_iff.mp behind
    rw [List.getLast?_nil, Option.none_or] at final
    rcases List.eq_nil_or_concat earlier with rfl | ⟨front, previous, rfl⟩
    · cases final
    · -- nothing lies between the word and the lexeme before it
      rw [List.concat_eq_append, List.append_assoc] at cut
      obtain ⟨found, lexed⟩ := pieceLexed cut
      obtain ⟨e, more, filled, _⟩ := lexemeOfLexes lexed.lexes
      have ends : (joined (front.concat previous) []).getLast? = previous.spelled.getLast? := by
        simp [joined, filled, List.getLast?_cons]
      exact lexesBeforeWord lexed.lexes (by simp [joinedCons]) starts (ends.symm.trans final) char

/- A keyword or an identifier where it stands. Only a digit can carry its word on to the left. -/
structure Wording (src left spelled right : List Char) (t : Token) : Prop where
  text : src = left ++ (spelled ++ right)
  word : Wordlike spelled
  longest : Next (isWordChar · = false) right
  wrote : t.text = String.ofList spelled
  start : t.start = Place.ofText left
  stop : t.stop = Place.ofText (left ++ spelled)
  behind : ∀ d, left.getLast? = some d → isWordChar d = true → d.isDigit = true

theorem wordingExists {lead : CommentLead} {src : String} {t : Token} (listed : t ∈ ofSource lead src)
    (word : t.kind = .keyword ∨ t.kind = .identifier) :
    ∃ left spelled right, Wording src.toList left spelled right t := by
  obtain ⟨earlier, piece, later, last, text, cut, rfl⟩ := tokenCut listed
  obtain ⟨found, lexed⟩ := pieceLexed cut
  have standing := pieceStanding cut
  have kind : piece.token.kind = found.kind := by rw [lexed.token, Lexeme.token]
  obtain ⟨wordlike, longest, wrote, _⟩ := lexesWord lexed.lexes (kind ▸ word)
  have written : piece.token.text = String.ofList piece.spelled := by rw [lexed.token, Lexeme.token, wrote]
  exact ⟨_, _, _, text ▸ lexed.text, wordlike, longest, written, standing.start, standing.stop,
    fun d => wordBehind cut wordlike⟩

theorem Wording.line {src left spelled right : List Char} {t : Token}
    (wording : Wording src left spelled right t) : t.line = Place.line left :=
  Int.ofNat.inj (congrArg Position.line wording.start)

theorem Wording.column {src left spelled right : List Char} {t : Token}
    (wording : Wording src left spelled right t) : t.column = Place.column left :=
  Int.ofNat.inj (congrArg Position.character wording.start)

end LanguageService.Token

namespace LanguageService.Word
open Token (isWordChar Wordlike Next front)

theorem findFront (left : List Char) {spelled right : List Char} (word : Wordlike spelled)
    (longest : Next (isWordChar · = false) right) {k : Nat} (inside : k < spelled.length) :
    find (.text (String.ofList (left ++ (spelled ++ right)))) (.int (Place.line left))
        (.int (Place.column left + k : Nat)) =
      .ok (some ⟨String.ofList (front left ++ spelled), .number (Place.line left),
        .number (Place.column left - (front left).length : Nat),
        .number (Place.column left + spelled.length : Nat)⟩) := by
  obtain ⟨before, cut, stops⟩ := Token.frontCut left
  have row := Token.wordRow (Token.frontChars left)
  have chars : ∀ c ∈ front left ++ spelled, isWordChar c = true :=
    List.forall_mem_append.mpr ⟨Token.frontChars left, word.chars⟩
  have within : (front left).length + k < (front left ++ spelled).length := by
    rw [List.length_append]
    omega
  have found := findInside stops chars longest within
  have line : Place.line left = Place.line before := by
    have lines := congrArg Place.line cut
    rwa [Place.lineAppend, Place.lineWhole row] at lines
  have column : Place.column left = Place.column before + (front left).length := by
    have columns := congrArg Place.column cut
    rwa [Place.columnAppend row] at columns
  have text : left ++ (spelled ++ right) = before ++ (front left ++ spelled ++ right) := by
    rw [List.append_assoc, ← List.append_assoc before, ← cut]
  rw [line, column, text, Nat.add_assoc, Nat.add_sub_cancel, found, List.length_append, Nat.add_assoc]

/- A token as a word: its text, and where it stands. -/
def ofToken (t : Token) : Word :=
  ⟨t.text, .number t.start.line, .number t.start.character, .number t.stop.character⟩

/- Whether a digit stands right before a token on its line. -/
def isBehindDigit (src : String) (t : Token) : Bool :=
  (((line? src.toList t.line).getD []).take t.column).getLast?.any Char.isDigit

section Wording
variable {src : String} {left spelled right : List Char} {t : Token}
  (wording : Token.Wording src.toList left spelled right t)
include wording

theorem behindDigitRow : isBehindDigit src t = (Place.row left).getLast?.any Char.isDigit := by
  have here := Place.lineAround left wording.word.row right
  rw [← wording.text, ← wording.line] at here
  rw [isBehindDigit, here, Option.getD_some, wording.column, Place.column, List.take_left]

theorem behindDigitFront : isBehindDigit src t = true ↔ front left ≠ [] := by
  rw [behindDigitRow wording, Option.any_eq_true]
  obtain ⟨before, cut, stops⟩ := Token.frontCut left
  constructor
  · rintro ⟨d, last, digit⟩ none
    rw [none, List.append_nil] at cut
    have other := stops d (cut ▸ Place.rowLast last)
    simp [isWordChar, digit] at other
  · intro filled
    obtain ⟨d, last⟩ := Option.isSome_iff_exists.mp (List.getLast?_isSome.mpr filled)
    have char := Token.frontChars left d (List.mem_of_getLast? last)
    have row : Place.row left = Place.row before ++ front left := by
      have row := congrArg Place.row cut
      rwa [Place.rowAppend (Token.wordRow (Token.frontChars left))] at row
    have final : (Place.row left).getLast? = some d := by rw [row, List.getLast?_append, last, Option.some_or]
    exact ⟨d, final, wording.behind d (Place.rowLast final) char⟩

theorem findToken {character : Int} (after : t.start.character ≤ character)
    (before : character < t.stop.character) :
    find (.text src) (.int t.line) (.int character) =
      .ok (some ⟨String.ofList (front left ++ spelled), .number t.start.line,
        .number (t.column - (front left).length : Nat), .number t.stop.character⟩) := by
  have stop : t.stop.character = (t.column + spelled.length : Nat) := by
    rw [wording.stop, Place.ofText, Place.columnAppend wording.word.row, wording.column]
  have start : (t.column : Int) ≤ character := after
  obtain ⟨k, rfl⟩ : ∃ k : Nat, character = (t.column + k : Nat) := ⟨(character - t.column).toNat, by omega⟩
  rw [stop] at before ⊢
  have inside : k < spelled.length := by omega
  have found := findFront left wording.word wording.longest inside
  rw [← wording.text, String.ofList_toList, ← wording.line, ← wording.column] at found
  exact found

end Wording

theorem cursorFindsToken {lead : CommentLead} {src : String} {t : Token} (listed : t ∈ Token.ofSource lead src)
    (word : t.kind = .keyword ∨ t.kind = .identifier) {character : Int} (after : t.start.character ≤ character)
    (before : character < t.stop.character) :
    (find (.text src) (.int t.line) (.int character) = .ok (some (ofToken t)) ↔ isBehindDigit src t = false) ∧
    (isBehindDigit src t = true →
      ∃ w : Word, find (.text src) (.int t.line) (.int character) = .ok (some w) ∧
        t.text.length < w.text.length ∧ t.text.toList <:+ w.text.toList ∧
        w.line = .number t.start.line ∧ w.stop = .number t.stop.character) := by
  obtain ⟨left, spelled, right, wording⟩ := Token.wordingExists listed word
  have behind := behindDigitFront wording
  rw [findToken wording after before, ← Bool.not_eq_true, behind]
  refine ⟨⟨fun same filled => ?_, fun none => ?_⟩, fun filled => ⟨_, rfl, ?_, ?_, rfl, rfl⟩⟩
  · have text : String.ofList (front left ++ spelled) = t.text :=
      congrArg Word.text (Option.some.inj (Except.ok.inj same))
    rw [wording.wrote, String.ofList_inj] at text
    exact filled (List.append_left_eq_self.mp text)
  · rw [not_not.mp none, List.nil_append, List.length_nil, Nat.sub_zero, ← wording.wrote]
    rfl
  · have longer := List.length_pos_iff.mpr filled
    rw [wording.wrote, String.length_ofList, String.length_ofList, List.length_append]
    omega
  · rw [wording.wrote, String.toList_ofList, String.toList_ofList]
    exact List.suffix_append _ _

/- A name right behind a number, and one with a digit of its own. -/
def digitSource : String := "let 1ab = a1"

def digitName : Token := ⟨.identifier, "ab", 0, 5, true, none⟩

def plainName : Token := ⟨.identifier, "a1", 0, 10, true, none⟩

theorem digitCarriesOn :
    digitName ∈ Token.ofSource .dashes digitSource ∧ plainName ∈ Token.ofSource .dashes digitSource ∧
    (∃ w : Word, find (.text digitSource) (.int 0) (.int 6) = .ok (some w) ∧ 2 < w.text.length ∧
      w.stop = .number 7) ∧
    find (.text digitSource) (.int 0) (.int 11) = .ok (some ⟨"a1", .number 0, .number 10, .number 12⟩) := by
  have behind : digitName ∈ Token.ofSource .dashes digitSource := by decide +kernel
  have alone : plainName ∈ Token.ofSource .dashes digitSource := by decide +kernel
  obtain ⟨w, found, longer, _, _, stop⟩ :=
    (cursorFindsToken behind (.inr rfl) (by decide : (5 : Int) ≤ 6) (by decide)).2 rfl
  exact ⟨behind, alone, ⟨w, found, longer, stop⟩,
    (cursorFindsToken alone (.inr rfl) (by decide : (10 : Int) ≤ 11) (by decide)).1.mpr rfl⟩

end LanguageService.Word
