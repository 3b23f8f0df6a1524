import LanguageService.Proofs.Language.Words
import LanguageService.Proofs.Session.Messages
import LanguageService.Query.Reply

/-! An identifier replaced by another word. What stands before a word sees no more of it than that it
starts like one, and what follows it is only moved along its line: the text with the new word is cut as
the old one was. -/
namespace LanguageService.Token

theorem operatorSecond {c d : Char} (pair : (c, d) ∈ operators) : isWordStart d = false := by
  simp only [operators, List.mem_cons, Prod.mk.injEq, List.not_mem_nil, or_false] at pair
  rcases pair with ⟨_, rfl⟩ | ⟨_, rfl⟩ | ⟨_, rfl⟩ | ⟨_, rfl⟩ | ⟨_, rfl⟩ | ⟨_, rfl⟩ <;> decide

theorem startPlain {c : Char} (starts : isWordStart c = true) :
    isLineEnd c = false ∧ isNumberChar c = false ∧ isWordChar c = true := by
  have line : isLineEnd c ≠ true := by
    intro line
    simp only [isLineEnd, Bool.or_eq_true, beq_iff_eq] at line
    rcases line with rfl | rfl <;> cases starts
  have point : c ≠ '.' := by
    rintro rfl
    cases starts
  exact ⟨Bool.eq_false_iff.mpr line, by simp [isNumberChar, (wordClass starts).2, point],
    by rw [isWordChar, starts, Bool.true_or]⟩

/- Two texts that are the same up to where a word starts in both. -/
inductive Alike : List Char → List Char → Prop where
  | word {c c' rest rest'} (starts : isWordStart c = true) (starts' : isWordStart c' = true) :
      Alike (c :: rest) (c' :: rest')
  | cons {d rest rest'} (tail : Alike rest rest') : Alike (d :: rest) (d :: rest')

theorem alikeWords {word word' : List Char} (wordlike : Wordlike word) (wordlike' : Wordlike word')
    (rest rest' : List Char) : Alike (word ++ rest) (word' ++ rest') := by
  obtain ⟨c, run, rfl, starts, _⟩ := wordlike
  obtain ⟨c', run', rfl, starts', _⟩ := wordlike'
  exact .word starts starts'

theorem Alike.behind {rest rest' : List Char} (alike : Alike rest rest') (front : List Char) :
    Alike (front ++ rest) (front ++ rest') := by
  induction front with
  | nil => exact alike
  | cons d front ih => exact .cons ih

theorem nextAlike {p : Char → Prop} {rest rest' : List Char} (alike : Alike rest rest') (next : Next p rest)
    (same : ∀ c c', isWordStart c = true → isWordStart c' = true → p c → p c') : Next p rest' := by
  intro d head
  cases alike with
  | word starts starts' =>
    cases head
    exact same _ _ starts starts' (next _ rfl)
  | cons tail => exact next d head

theorem alikeStops {rest rest' : List Char} (alike : Alike rest rest') : Stops rest rest' where
  row row := nextAlike alike row fun _ _ starts _ line => by
    rw [(startPlain starts).1] at line
    cases line
  number longest := nextAlike alike longest fun _ _ _ starts' _ => (startPlain starts').2.1
  word longest := nextAlike alike longest fun _ _ starts _ word => by
    rw [(startPlain starts).2.2] at word
    cases word
  single _ single := nextAlike alike single fun _ _ _ starts' _ pair => by
    rw [operatorSecond pair] at starts'
    cases starts'

theorem gapAlike {lead gap rest rest'} (alike : Alike rest rest') (skipped : Gap lead gap rest) :
    Gap lead gap rest' := by
  refine gapStops (fun feed => nextAlike alike feed fun _ _ starts _ same => ?_) skipped
  rw [same] at starts
  cases starts

/- A comment lead does not reach into a word. -/
theorem prefixAlike {chars rest rest' : List Char} (alike : Alike rest rest')
    (plain : ∀ d ∈ chars, isWordStart d = false) (inside : chars <+: rest') : chars <+: rest := by
  induction alike generalizing chars with
  | word _ starts' =>
    cases chars with
    | nil => exact List.nil_prefix
    | cons d chars =>
      have first := plain d List.mem_cons_self
      rw [(List.cons_prefix_cons.mp inside).1, starts'] at first
      cases first
  | cons tail ih =>
    cases chars with
    | nil => exact List.nil_prefix
    | cons d chars =>
      obtain ⟨same, more⟩ := List.cons_prefix_cons.mp inside
      exact List.cons_prefix_cons.mpr ⟨same, ih (fun e member => plain e (List.mem_cons_of_mem d member)) more⟩

theorem opensAlike {lead : CommentLead} {rest rest' : List Char} (alike : Alike rest rest')
    (opens : Opens lead rest) : Opens lead rest' := by
  have plain : ∀ d ∈ lead.chars, isWordStart d = false := by
    simpa using (by cases lead <;> decide : lead.chars.all (!isWordStart ·) = true)
  refine ⟨nextAlike alike opens.1 fun _ _ _ starts' _ => wordVisible (startPlain starts').2.2, fun inside => ?_⟩
  exact opens.2 (prefixAlike alike plain inside)

/- A token behind a word of one width, where a word of another width takes its place. -/
def moved (line shrunk grown : Nat) (t : Token) : Token :=
  if t.line = line then { t with column := t.column - shrunk + grown } else t

def Piece.moved (line shrunk grown : Nat) (piece : Piece) : Piece :=
  { piece with token := piece.token.moved line shrunk grown }

theorem joinedMoved (line shrunk grown : Nat) (pieces : List Piece) (last : List Char) :
    joined (pieces.map (Piece.moved line shrunk grown)) last = joined pieces last := by
  simp [joined, List.flatMap_map, Piece.moved]

theorem placeMoved {word word' : List Char} (whole : '\n' ∉ word) (whole' : '\n' ∉ word')
    (before between : List Char) :
    Place.line (before ++ word' ++ between) = Place.line (before ++ word ++ between) ∧
      Place.column (before ++ word' ++ between) =
        if Place.line (before ++ word ++ between) = Place.line before then
          Place.column (before ++ word ++ between) - word.length + word'.length
        else Place.column (before ++ word ++ between) := by
  simp only [Place.lineAppend, Place.lineWhole whole, Place.lineWhole whole', true_and]
  by_cases feed : '\n' ∈ between
  · have below : 0 < Place.line between := List.count_pos_iff.mpr feed
    rw [if_neg (by omega), Place.columnBelow feed, Place.columnBelow feed]
  · have level : Place.line before + 0 + Place.line between = Place.line before := by
      rw [Place.lineWhole feed]
      omega
    rw [if_pos level, Place.columnAppend feed, Place.columnAppend feed, Place.columnAppend whole,
      Place.columnAppend whole']
    omega

theorem tokenMoved {word word' : List Char} (whole : '\n' ∉ word) (whole' : '\n' ∉ word')
    (before between : List Char) (found : Lexeme) :
    (found.token (Place.line (before ++ word ++ between)) (Place.column (before ++ word ++ between))).moved
        (Place.line before) word.length word'.length =
      found.token (Place.line (before ++ word' ++ between)) (Place.column (before ++ word' ++ between)) := by
  obtain ⟨line, column⟩ := placeMoved whole whole' before between
  rw [line, column, moved]
  by_cases level : Place.line (before ++ word ++ between) = Place.line before
  · rw [if_pos level]
    exact if_pos level
  · rw [if_neg level]
    exact if_neg level

theorem cutMoved {lead : CommentLead} {before word word' between : List Char} {pieces : List Piece}
    {last : List Char} (whole : '\n' ∉ word) (whole' : '\n' ∉ word')
    (cut : Cut lead (before ++ word ++ between) pieces last) :
    Cut lead (before ++ word' ++ between)
      (pieces.map (Piece.moved (Place.line before) word.length word'.length)) last := by
  -- `between` grows along the cut, and the word stays where it is
  generalize text : before ++ word ++ between = left at cut
  induction cut generalizing between with
  | nil skipped => exact .nil skipped
  | @cons _ gap spelled found pieces last skipped opens lexed tail ih =>
    subst text
    have later := ih (by simp : before ++ word ++ (between ++ gap ++ spelled) = _)
    have same := tokenMoved whole whole' before (between ++ gap) found
    rw [← joinedMoved (Place.line before) word.length word'.length] at skipped opens lexed
    simp only [← List.append_assoc] at later same
    rw [List.map_cons, Piece.moved, same]
    exact .cons skipped opens lexed later

theorem pieceIdentifier {lead before earlier piece later last}
    (cut : Cut lead before (earlier ++ piece :: later) last) (identifier : piece.token.kind = .identifier) :
    Wordlike piece.spelled ∧ piece.token.text = String.ofList piece.spelled := by
  cases cutSplit cut with
  | cons skipped opens lexed tail =>
    obtain ⟨wordlike, _, wrote, _⟩ := lexesWord lexed (.inr identifier)
    exact ⟨wordlike, congrArg String.ofList wrote⟩

theorem lexesReplaced {spelled rest found} (lexed : Lexes spelled rest found)
    (identifier : found.kind = .identifier) {word : List Char} (wordlike : Wordlike word)
    (free : Vocabulary.isKeyword (String.ofList word) = false) :
    ∃ found', Lexes word rest found' ∧
      ∀ line column, found'.token line column = { found.token line column with text := String.ofList word } := by
  obtain ⟨c', run', rfl, starts', all'⟩ := wordlike
  cases lexed with
  | identifier _ _ longest _ => exact ⟨_, .identifier starts' all' longest free, fun _ _ => rfl⟩
  | _ => cases identifier

def Piece.respelled (word : List Char) (piece : Piece) : Piece :=
  ⟨piece.gap, word, { piece.token with text := String.ofList word }⟩

theorem cutReplaced {lead : CommentLead} {before : List Char} {earlier later : List Piece} {piece : Piece}
    {last word : List Char} (cut : Cut lead before (earlier ++ piece :: later) last)
    (identifier : piece.token.kind = .identifier) (wordlike : Wordlike word)
    (free : Vocabulary.isKeyword (String.ofList word) = false) :
    Cut lead before (earlier ++ piece.respelled word ::
      later.map (Piece.moved piece.token.line piece.spelled.length word.length)) last := by
  have old := (pieceIdentifier cut identifier).1
  have alike := alikeWords old wordlike (joined later last) (joined later last)
  induction earlier generalizing before with
  | nil =>
    cases cut with
    | @cons _ gap spelled found _ _ skipped opens lexed tail =>
    obtain ⟨found', lexed', same⟩ := lexesReplaced lexed identifier wordlike free
    have behind : Cut lead (before ++ gap ++ spelled ++ []) later last := by rwa [List.append_nil]
    have skipped' := gapAlike alike skipped
    have opens' := opensAlike alike opens
    have moved := cutMoved old.row wordlike.row behind
    rw [List.append_nil] at moved
    rw [← joinedMoved (Place.line (before ++ gap)) spelled.length word.length] at skipped' opens' lexed'
    rw [List.nil_append, Piece.respelled, ← same]
    exact .cons skipped' opens' lexed' moved
  | cons first earlier ih =>
    cases cut with
    | @cons _ gap spelled found _ _ skipped opens lexed tail =>
    -- the pieces before the word see it only through the text behind them
    have ahead : Alike (joined (earlier ++ piece :: later) last) (joined (earlier ++ piece.respelled word ::
        later.map (Piece.moved piece.token.line piece.spelled.length word.length)) last) := by
      rw [joinedPiece, joinedPiece, joinedMoved]
      exact alike.behind _
    exact .cons (gapAlike (ahead.behind spelled) skipped) (opensAlike (ahead.behind spelled) opens)
      (lexesStops (alikeStops ahead) lexed) (ih tail)

theorem Standing.replaced {left right : List Char} {piece : Piece}
    (standing : Standing (left ++ (piece.spelled ++ right)) left piece) (w : List Char) :
    let src := left ++ (piece.spelled ++ right)
    src.take (Change.Spot.offset ⟨piece.token.line, piece.token.column⟩ src) ++ w ++
      src.drop (Change.Spot.offset ⟨piece.token.line, piece.token.column + piece.token.width⟩ src) =
        left ++ (w ++ right) := by
  have start := Change.spotOffset ⟨piece.token.line, piece.token.column⟩ (left ++ (piece.spelled ++ right))
  have stop := Change.spotOffset ⟨piece.token.line, piece.token.column + piece.token.width⟩
    (left ++ (piece.spelled ++ right))
  rw [standing.offsets.1] at start
  rw [standing.offsets.2] at stop
  have first := Int.ofNat.inj (Option.some.inj start)
  have last := Int.ofNat.inj (Option.some.inj stop)
  have behind : (left ++ (piece.spelled ++ right)).drop (left.length + piece.spelled.length) = right := by
    rw [← List.append_assoc, ← List.length_append, List.drop_left]
  simp only [← first, ← last, List.take_left, behind, List.append_assoc]

theorem identifierReplaced {lead : CommentLead} {src : String} {earlier later : List Token} {t : Token}
    (tokens : ofSource lead src = earlier ++ t :: later) (identifier : t.kind = .identifier) {w : String}
    (wordlike : Wordlike w.toList) (free : Vocabulary.isKeyword w = false) {members : List (Text × Json)}
    (range : members.lookup (.plain "range") = some (Reply.range t.range))
    (text : members.lookup (.plain "text") = some (.text w)) :
    ∃ edited : String, Edit.apply (.text src) (.object members) = .ok (.text edited) ∧
      ofSource lead edited = earlier ++ { t with text := w } :: later.map (moved t.line t.text.length w.length) ∧
      ∀ u ∈ later, u.line = t.line → t.column + t.text.length ≤ u.column := by
  have sent : Change.Sent (.object members) (.part ⟨t.line, t.column⟩ ⟨t.line, t.column + t.width⟩ w) :=
    .part text range rfl rfl ⟨_, rfl, rfl, rfl⟩ ⟨_, rfl, rfl, rfl⟩
  have applied := Change.applyPlain sent src
  obtain ⟨pieces, last, same, cut, found⟩ := cutTokens lead src
  obtain ⟨front, _, rfl, rfl, both⟩ := List.map_eq_append_iff.mp (found.trans tokens)
  obtain ⟨piece, back, rfl, rfl, rfl⟩ := List.map_eq_cons_iff.mp both
  obtain ⟨_, wrote⟩ := pieceIdentifier cut identifier
  have standing := pieceStanding cut
  have new := cutReplaced cut identifier wordlike (by rwa [String.ofList_toList])
  have scanned := scanCut new
  rw [joinedPiece, List.nil_append, List.nil_append] at standing
  rw [← same, joinedPiece, standing.replaced] at applied
  rw [joinedPiece, joinedMoved] at scanned
  have size : piece.spelled.length = piece.token.text.length := by rw [wrote, String.length_ofList]
  refine ⟨_, applied, ?_, ?_⟩
  · rw [ofSource, String.toList_ofList]
    refine scanned.trans ?_
    simp only [List.map_append, List.map_cons, List.map_map, Piece.respelled, String.ofList_toList, size,
      String.length_toList]
    rfl
  · intro u member level
    have ordered := cutOrdered cut
    rw [List.map_append, List.pairwise_append, List.map_cons, List.pairwise_cons] at ordered
    have apart := (ordered.2.1.1 u member).1
    rw [Place.precedesIff, Token.stop, standing.width, size] at apart
    simp only [Token.start] at apart
    omega

/- A name between a number and an operator, with more names on its line and below. -/
def tightSource : String := "x=1.ab->ab\nab"

def tightName : Token := ⟨.identifier, "ab", 0, 4, true, none⟩

def tightFront : List Token :=
  [⟨.identifier, "x", 0, 0, true, none⟩, ⟨.punctuation, "=", 0, 1, true, none⟩, ⟨.number, "1.", 0, 2, true, none⟩]

def tightBack : List Token :=
  [⟨.operator, "->", 0, 6, true, none⟩, ⟨.identifier, "ab", 0, 8, true, none⟩, ⟨.identifier, "ab", 1, 0, true, none⟩]

theorem tightNameReplaced :
    ofSource .dashes tightSource = tightFront ++ tightName :: tightBack ∧
    ∃ edited : String, Edit.apply (.text tightSource)
        (.object [("range", Reply.range tightName.range), ("text", .text "_c9d")]) = .ok (.text edited) ∧
      ofSource .dashes edited = tightFront ++ [⟨.identifier, "_c9d", 0, 4, true, none⟩,
        ⟨.operator, "->", 0, 8, true, none⟩, ⟨.identifier, "ab", 0, 10, true, none⟩,
        ⟨.identifier, "ab", 1, 0, true, none⟩] := by
  have tokens : ofSource .dashes tightSource = tightFront ++ tightName :: tightBack := by decide +kernel
  have word : Wordlike "_c9d".toList :=
    ⟨'_', ['c', '9', 'd'], by decide, by decide, List.all_eq_true.mp (by decide : "c9d".toList.all isWordChar = true)⟩
  have members : List.lookup (Text.plain "text") [("range", Reply.range tightName.range), ("text", .text "_c9d")] =
      some (.text "_c9d") := rfl
  obtain ⟨edited, applied, scanned, _⟩ := identifierReplaced tokens rfl word (by decide) rfl members
  exact ⟨tokens, edited, applied, scanned⟩

end LanguageService.Token
