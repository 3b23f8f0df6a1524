import LanguageService.Language.Scanner
import LanguageService.Proofs.Source.Place
import LanguageService.Proofs.Text.Blank

/-! The lexical grammar, told without the scanner: a text is cut into gaps and lexemes, a gap is
made of blanks and whole comments, and a lexeme is the longest one that its first character
allows. Every text has such a cut, and the tokens of all its cuts are those of the scanner. -/
namespace LanguageService.Token

def Next (p : Char → Prop) (rest : List Char) : Prop := ∀ c, rest.head? = some c → p c

inductive Spelled (quote : Char) : List Char → List Char → Prop where
  | nil : Spelled quote [] []
  | plain {c source content} (inside : c ≠ quote) (row : isLineEnd c = false) (bare : c ≠ '\\')
      (tail : Spelled quote source content) : Spelled quote (c :: source) (c :: content)
  | escaped {c source content} (row : isLineEnd c = false) (tail : Spelled quote source content) :
      Spelled quote ('\\' :: c :: source) (c :: content)

/-- The end of a string: its closing quote, or else the end of its line, perhaps behind a
backslash that has nothing to escape. -/
inductive Closing (quote : Char) : List Char → List Char → Bool → Prop where
  | quoted {rest} : Closing quote [quote] rest true
  | stopped {rest} (stops : Next (isLineEnd · = true) rest) : Closing quote [] rest false
  | dangling {rest} (stops : Next (isLineEnd · = true) rest) : Closing quote ['\\'] rest false

inductive Lexes : List Char → List Char → Lexeme → Prop where
  | string {quote source content mark rest closed} (opens : isQuote quote = true)
      (spelled : Spelled quote source content) (ends : Closing quote mark rest closed) :
      Lexes (quote :: (source ++ mark)) rest
        ⟨.string, content, (source ++ mark).length, closed, some ((source ++ mark).length + 1)⟩
  | number {c run rest} (first : c.isDigit = true) (all : ∀ d ∈ run, isNumberChar d = true)
      (longest : Next (isNumberChar · = false) rest) :
      Lexes (c :: run) rest { kind := .number, text := c :: run, more := run.length }
  | keyword {c run rest} (first : isWordStart c = true) (all : ∀ d ∈ run, isWordChar d = true)
      (longest : Next (isWordChar · = false) rest)
      (reserved : Vocabulary.isKeyword (String.ofList (c :: run)) = true) :
      Lexes (c :: run) rest { kind := .keyword, text := c :: run, more := run.length }
  | identifier {c run rest} (first : isWordStart c = true) (all : ∀ d ∈ run, isWordChar d = true)
      (longest : Next (isWordChar · = false) rest)
      (free : Vocabulary.isKeyword (String.ofList (c :: run)) = false) :
      Lexes (c :: run) rest { kind := .identifier, text := c :: run, more := run.length }
  | at {rest} : Lexes ['@'] rest { kind := .at, text := ['@'], more := 0 }
  | operator {c d rest} (pair : (c, d) ∈ operators) :
      Lexes [c, d] rest { kind := .operator, text := [c, d], more := 1 }
  | punctuation {c rest} (string : isQuote c = false) (number : c.isDigit = false)
      (word : isWordStart c = false) (other : c ≠ '@')
      (single : Next (fun d => (c, d) ∉ operators) rest) :
      Lexes [c] rest { kind := .punctuation, text := [c], more := 0 }

inductive Gap (lead : CommentLead) : List Char → List Char → Prop where
  | nil {rest} : Gap lead [] rest
  | blank {c gap rest} (skipped : Text.isBlank c = true) (tail : Gap lead gap rest) :
      Gap lead (c :: gap) rest
  | comment {body gap rest} (row : '\n' ∉ body) (stops : Next (· = '\n') (gap ++ rest))
      (tail : Gap lead gap rest) : Gap lead (lead.chars ++ body ++ gap) rest

def Opens (lead : CommentLead) (src : List Char) : Prop :=
  Next (Text.isBlank · = false) src ∧ ¬ lead.chars <+: src

structure Piece where
  gap : List Char
  spelled : List Char
  token : Token

def joined (pieces : List Piece) (last : List Char) : List Char :=
  pieces.flatMap (fun piece => piece.gap ++ piece.spelled) ++ last

/-- The cuts of a text that stands behind `before`: pieces, and a last gap. Each token has the
kind, text and extent of its lexeme, and the place where the lexeme starts. -/
inductive Cut (lead : CommentLead) : List Char → List Piece → List Char → Prop where
  | nil {before last} (skipped : Gap lead last []) : Cut lead before [] last
  | cons {before gap spelled found pieces last}
      (skipped : Gap lead gap (spelled ++ joined pieces last))
      (opens : Opens lead (spelled ++ joined pieces last))
      (lexed : Lexes spelled (joined pieces last) found)
      (tail : Cut lead (before ++ gap ++ spelled) pieces last) :
      Cut lead before (⟨gap, spelled, found.token (Place.line (before ++ gap))
        (Place.column (before ++ gap))⟩ :: pieces) last

theorem joinedCons (piece : Piece) (pieces : List Piece) (last : List Char) :
    joined (piece :: pieces) last = piece.gap ++ (piece.spelled ++ joined pieces last) := by
  simp [joined]

/- A text that stops whatever another one stops can stand in its place behind a lexeme. -/
structure Stops (rest rest' : List Char) : Prop where
  row : Next (isLineEnd · = true) rest → Next (isLineEnd · = true) rest'
  number : Next (isNumberChar · = false) rest → Next (isNumberChar · = false) rest'
  word : Next (isWordChar · = false) rest → Next (isWordChar · = false) rest'
  single : ∀ c, Next (fun d => (c, d) ∉ operators) rest → Next (fun d => (c, d) ∉ operators) rest'

theorem closingStops {quote mark rest rest' closed} (stops : Stops rest rest')
    (ends : Closing quote mark rest closed) : Closing quote mark rest' closed := by
  cases ends with
  | quoted => exact .quoted
  | stopped row => exact .stopped (stops.row row)
  | dangling row => exact .dangling (stops.row row)

theorem lexesStops {spelled rest rest' found} (stops : Stops rest rest') (lexed : Lexes spelled rest found) :
    Lexes spelled rest' found := by
  cases lexed with
  | string opens spelled ends => exact .string opens spelled (closingStops stops ends)
  | number first all longest => exact .number first all (stops.number longest)
  | keyword first all longest reserved => exact .keyword first all (stops.word longest) reserved
  | identifier first all longest free => exact .identifier first all (stops.word longest) free
  | «at» => exact .at
  | operator pair => exact .operator pair
  | punctuation string number word other single =>
    exact .punctuation string number word other (stops.single _ single)

theorem gapStops {lead gap rest rest'} (feed : Next (· = '\n') rest → Next (· = '\n') rest')
    (skipped : Gap lead gap rest) : Gap lead gap rest' := by
  induction skipped with
  | nil => exact .nil
  | blank skipped tail ih => exact .blank skipped (ih feed)
  | @comment body gap rest row stops tail ih =>
    refine .comment row ?_ (ih feed)
    cases gap with
    | nil => exact feed stops
    | cons d gap => exact fun c head => stops c head

theorem dropWhileStops (p : Char → Bool) (rest : List Char) :
    Next (p · = false) (rest.dropWhile p) := by
  intro c head
  induction rest with
  | nil => simp at head
  | cons d rest ih =>
    cases kept : p d with
    | true => exact ih (by simpa [kept] using head)
    | false =>
      have same : d = c := by simpa [kept] using head
      exact same ▸ kept

theorem stringTailSpelled {quote source content} (spelled : Spelled quote source content)
    (quoted : quote ≠ '\\') (rest : List Char) :
    stringTail quote (source ++ rest) =
      ⟨content ++ (stringTail quote rest).content, source.length + (stringTail quote rest).taken,
        (stringTail quote rest).closed⟩ := by
  induction spelled with
  | nil => simp
  | @plain c source content inside row bare tail ih =>
    have step : stringTail quote (c :: (source ++ rest)) =
        (stringTail quote (source ++ rest)).push c 1 := by
      cases source ++ rest with
      | nil => simp [stringTail, inside, row, bare, StringTail.push]
      | cons d more => simp [stringTail, inside, row, bare]
    rw [List.cons_append, step, ih]
    simp [StringTail.push]; omega
  | @escaped c source content row tail ih =>
    have ordinary : isLineEnd '\\' = false := by decide
    simp only [List.cons_append, stringTail, if_neg (Ne.symm quoted), ordinary, row, ih]
    simp [StringTail.push]; omega

theorem quoteRow {c : Char} (quote : isQuote c = true) : isLineEnd c = false := by
  simp only [isQuote, Bool.or_eq_true, beq_iff_eq] at quote
  rcases quote with rfl | rfl <;> decide

theorem stringTailClosing {quote mark rest closed} (ends : Closing quote mark rest closed)
    (quoted : isQuote quote = true) :
    stringTail quote (mark ++ rest) = ⟨[], mark.length, closed⟩ := by
  cases ends with
  | quoted => cases rest <;> simp [stringTail]
  | stopped stops =>
    cases rest with
    | nil => rfl
    | cons c rest =>
      have line := stops c rfl
      have other : c ≠ quote := by
        rintro rfl
        exact Bool.false_ne_true ((quoteRow quoted).symm.trans line)
      cases rest <;> simp [stringTail, line, other]
  | dangling stops =>
    have other : '\\' ≠ quote := by rintro rfl; exact absurd quoted (by decide)
    have ordinary : isLineEnd '\\' = false := by decide
    cases rest with
    | nil => simp [stringTail, other, ordinary]
    | cons c rest => simp [stringTail, other, ordinary, stops c rfl]

theorem spelledCut (quote : Char) (src : List Char) :
    ∃ source content mark rest closed, src = source ++ (mark ++ rest) ∧
      Spelled quote source content ∧ Closing quote mark rest closed := by
  -- on the length: an escape takes two characters
  induction size : src.length using Nat.strongRecOn generalizing src with
  | ind n ih =>
  cases src with
  | nil => exact ⟨[], [], [], [], false, rfl, .nil, .stopped (by simp [Next])⟩
  | cons c rest =>
    by_cases closes : c = quote
    · subst c
      exact ⟨[], [], [quote], rest, true, rfl, .nil, .quoted⟩
    by_cases line : isLineEnd c = true
    · exact ⟨[], [], [], c :: rest, false, rfl, .nil, .stopped (by simpa [Next] using line)⟩
    by_cases escape : c = '\\'
    · subst c
      cases rest with
      | nil => exact ⟨[], [], ['\\'], [], false, rfl, .nil, .dangling (by simp [Next])⟩
      | cons d rest =>
        by_cases line : isLineEnd d = true
        · exact ⟨[], [], ['\\'], d :: rest, false, rfl, .nil,
            .dangling (by simpa [Next] using line)⟩
        · obtain ⟨source, content, mark, tail, closed, same, spelled, ends⟩ :=
            ih rest.length (by simp at size; omega) rest rfl
          exact ⟨'\\' :: d :: source, d :: content, mark, tail, closed, by simp [same],
            .escaped (by simpa using line) spelled, ends⟩
    · obtain ⟨source, content, mark, tail, closed, same, spelled, ends⟩ :=
        ih rest.length (by simp at size; omega) rest rfl
      exact ⟨c :: source, c :: content, mark, tail, closed, by simp [same],
        .plain closes (by simpa using line) escape spelled, ends⟩

theorem stringTailLexed {quote source content mark rest closed} (opens : isQuote quote = true)
    (spelled : Spelled quote source content) (ends : Closing quote mark rest closed) :
    stringTail quote (source ++ mark ++ rest) = ⟨content, (source ++ mark).length, closed⟩ := by
  have quoted : quote ≠ '\\' := by rintro rfl; exact absurd opens (by decide)
  rw [List.append_assoc, stringTailSpelled spelled quoted, stringTailClosing ends opens]
  simp

theorem quoteClass {c : Char} (quote : isQuote c = true) :
    c.isDigit = false ∧ isWordStart c = false := by
  simp only [isQuote, Bool.or_eq_true, beq_iff_eq] at quote
  rcases quote with rfl | rfl <;> decide

theorem digitClass {c : Char} (digit : c.isDigit = true) :
    isQuote c = false ∧ isWordStart c = false := by
  constructor
  · cases quote : isQuote c with
    | false => rfl
    | true => exact absurd digit (by simp [(quoteClass quote).1])
  · have code : 48 ≤ c.toNat ∧ c.toNat ≤ 57 := by
      simpa [Char.isDigit, UInt32.le_iff_toNat_le] using digit
    have upper : c.isUpper = false := by
      show decide (c.val ≥ 'A'.val ∧ c.val ≤ 'Z'.val) = false
      simp [UInt32.le_iff_toNat_le]; omega
    have lower : c.isLower = false := by
      show (decide (c.val ≥ 'a'.val) && decide (c.val ≤ 'z'.val)) = false
      simp [UInt32.le_iff_toNat_le]; omega
    have letter : c.isAlpha = false := by
      show (c.isUpper || c.isLower) = false
      rw [upper, lower, Bool.or_false]
    have score : c ≠ '_' := by rintro rfl; simp at code
    simp [isWordStart, letter, score]

theorem wordClass {c : Char} (word : isWordStart c = true) :
    isQuote c = false ∧ c.isDigit = false := by
  constructor
  · cases quote : isQuote c with
    | false => rfl
    | true => exact absurd word (by simp [(quoteClass quote).2])
  · cases digit : c.isDigit with
    | false => rfl
    | true => exact absurd word (by simp [(digitClass digit).2])

theorem operatorClass {c d : Char} (pair : (c, d) ∈ operators) :
    isQuote c = false ∧ c.isDigit = false ∧ isWordStart c = false ∧ c ≠ '@' ∧ '\n' ∉ [c, d] := by
  simp only [operators, List.mem_cons, Prod.mk.injEq, List.not_mem_nil, or_false] at pair
  rcases pair with ⟨rfl, rfl⟩ | ⟨rfl, rfl⟩ | ⟨rfl, rfl⟩ | ⟨rfl, rfl⟩ | ⟨rfl, rfl⟩ | ⟨rfl, rfl⟩ <;> decide

theorem lexemeOfLexes {spelled rest found} (lexed : Lexes spelled rest found) :
    ∃ c more, spelled = c :: more ∧ found = lexeme c (more ++ rest) ∧ found.more = more.length := by
  cases lexed with
  | @string quote source content mark _ closed opens spelled ends =>
    refine ⟨quote, source ++ mark, rfl, ?_, rfl⟩
    simp only [lexeme, opens, if_true, stringTailLexed opens spelled ends]
  | @number c run _ first all longest =>
    refine ⟨c, run, rfl, ?_, rfl⟩
    simp [lexeme, digitClass first, first, Text.takeFront all longest]
  | @keyword c run _ first all longest reserved =>
    refine ⟨c, run, rfl, ?_, rfl⟩
    simp only [lexeme, wordClass first, first, Text.takeFront all longest, reserved, Bool.false_eq_true,
      if_false, if_true]
  | @identifier c run _ first all longest free =>
    refine ⟨c, run, rfl, ?_, rfl⟩
    simp only [lexeme, wordClass first, first, Text.takeFront all longest, free, Bool.false_eq_true,
      if_false, if_true]
  | «at» => exact ⟨'@', [], rfl, by simp [lexeme, isQuote, isWordStart], rfl⟩
  | @operator c d _ pair =>
    refine ⟨c, [d], rfl, ?_, rfl⟩
    simp [lexeme, operatorClass pair, pair]
  | @punctuation c _ string number word other single =>
    refine ⟨c, [], rfl, ?_, rfl⟩
    cases rest with
    | nil => simp [lexeme, string, number, word, other]
    | cons d rest => simp [lexeme, string, number, word, other, single d rfl]

theorem runCut (p : Char → Bool) (rest : List Char) :
    ∃ run tail, rest = run ++ tail ∧ (∀ c ∈ run, p c = true) ∧ Next (p · = false) tail :=
  ⟨rest.takeWhile p, rest.dropWhile p, List.takeWhile_append_dropWhile.symm,
    fun _ => List.mem_takeWhile_imp, dropWhileStops p rest⟩

theorem lexesCut (c : Char) (rest : List Char) :
    ∃ spelled tail found, c :: rest = spelled ++ tail ∧ Lexes spelled tail found := by
  by_cases string : isQuote c = true
  · obtain ⟨source, content, mark, tail, closed, same, spelled, ends⟩ := spelledCut c rest
    exact ⟨c :: (source ++ mark), tail, _, by simp [same], .string string spelled ends⟩
  by_cases number : c.isDigit = true
  · obtain ⟨run, tail, same, all, longest⟩ := runCut isNumberChar rest
    exact ⟨c :: run, tail, _, by simp [same], .number number all longest⟩
  by_cases word : isWordStart c = true
  · obtain ⟨run, tail, same, all, longest⟩ := runCut isWordChar rest
    cases reserved : Vocabulary.isKeyword (String.ofList (c :: run)) with
    | true => exact ⟨c :: run, tail, _, by simp [same], .keyword word all longest reserved⟩
    | false => exact ⟨c :: run, tail, _, by simp [same], .identifier word all longest reserved⟩
  by_cases sign : c = '@'
  · subst c
    exact ⟨['@'], rest, _, rfl, .at⟩
  simp only [Bool.not_eq_true] at string number word
  by_cases pair : ∃ d tail, rest = d :: tail ∧ (c, d) ∈ operators
  · obtain ⟨d, tail, rfl, pair⟩ := pair
    exact ⟨[c, d], tail, _, rfl, .operator pair⟩
  · refine ⟨[c], rest, _, rfl, .punctuation string number word sign ?_⟩
    intro d head pair'
    obtain ⟨tail, same⟩ := List.head?_eq_some_iff.mp head
    exact pair ⟨d, tail, same, pair'⟩

theorem spelledRow {quote source content} (spelled : Spelled quote source content) :
    ∀ c ∈ source, isLineEnd c = false := by
  induction spelled with
  | nil => simp
  | plain inside row bare tail ih => simpa using ⟨row, ih⟩
  | escaped row tail ih => simpa using ⟨by decide, row, ih⟩

theorem stringRow {quote source content mark rest closed} (opens : isQuote quote = true)
    (spelled : Spelled quote source content) (ends : Closing quote mark rest closed) :
    ∀ c ∈ quote :: (source ++ mark), isLineEnd c = false := by
  have first := quoteRow opens
  have marks : ∀ c ∈ mark, isLineEnd c = false := by
    cases ends with
    | quoted => simpa using first
    | stopped => simp
    | dangling => simp [isLineEnd]
  intro c member
  simp only [List.mem_cons, List.mem_append] at member
  rcases member with rfl | inside | inside
  · exact first
  · exact spelledRow spelled c inside
  · exact marks c inside

theorem lexesRow {lead spelled rest found} (lexed : Lexes spelled rest found)
    (opens : Opens lead (spelled ++ rest)) : '\n' ∉ spelled := by
  have first {c : Char} {more : List Char} (same : spelled = c :: more) : '\n' ≠ c := by
    rintro rfl
    exact absurd (opens.1 '\n' (by simp [same])) (by decide)
  have run {p : Char → Bool} {more : List Char} (outside : p '\n' = false)
      (all : ∀ d ∈ more, p d = true) :
      '\n' ∉ more := fun member => absurd (all _ member) (by simp [outside])
  cases lexed with
  | string quoted spelled ends =>
    intro member
    exact absurd (stringRow quoted spelled ends _ member) (by decide)
  | number _ all _ => simp [first rfl, run (by decide) all]
  | keyword _ all _ _ => simp [first rfl, run (by decide) all]
  | identifier _ all _ _ => simp [first rfl, run (by decide) all]
  | «at» => simp
  | operator pair => exact (operatorClass pair).2.2.2.2
  | punctuation => simpa using first rfl

theorem leadChars (lead : CommentLead) :
    ∃ c tail, lead.chars = c :: tail ∧ Text.isBlank c = false ∧ '\n' ∉ c :: tail := by
  cases lead with
  | dashes => exact ⟨'-', ['-'], by decide, by decide, by decide⟩
  | percent => exact ⟨'%', [], by decide, by decide, by decide⟩

theorem scanBlank {c : Char} (skipped : Text.isBlank c = true) (lead : CommentLead)
    (before rest : List Char) :
    scan lead (Place.line before) (Place.column before) (c :: rest) =
      scan lead (Place.line (before ++ [c])) (Place.column (before ++ [c])) rest := by
  rw [scan]
  by_cases feed : c = '\n'
  · subst c
    rw [if_pos rfl, Place.lineAppend, Place.columnFeed]
    rfl
  · have whole : '\n' ∉ [c] := by simpa using Ne.symm feed
    rw [if_neg feed, if_pos skipped, Place.lineAppend, Place.lineWhole whole,
      Place.columnAppend whole]
    rfl

theorem scanComment {lead : CommentLead} {body rest : List Char} (row : '\n' ∉ body)
    (stops : Next (· = '\n') rest) (before : List Char) :
    scan lead (Place.line before) (Place.column before) (lead.chars ++ body ++ rest) =
      scan lead (Place.line (before ++ (lead.chars ++ body)))
        (Place.column (before ++ (lead.chars ++ body))) rest := by
  obtain ⟨c, tail, same, visible, leadRow⟩ := leadChars lead
  have whole : '\n' ∉ c :: (tail ++ body) := by
    simp only [List.mem_cons, List.mem_append, not_or] at leadRow ⊢
    exact ⟨leadRow.1, leadRow.2, row⟩
  have feed : c ≠ '\n' := fun equal => whole (by simp [equal])
  have taken : (tail ++ body ++ rest).takeWhile (· != '\n') = tail ++ body := by
    apply Text.takeFront
    · intro d member
      exact bne_iff_ne.mpr fun equal => whole (equal ▸ List.mem_cons_of_mem c member)
    · intro d head
      simp [stops d head]
  have opens : lead.chars.isPrefixOf (c :: (tail ++ body ++ rest)) = true := by
    simp [same, List.isPrefixOf_iff_prefix]
  have text : lead.chars ++ body = c :: (tail ++ body) := by simp [same]
  rw [text, List.cons_append, scan, if_neg feed, visible, if_neg Bool.false_ne_true, if_pos opens]
  simp only [taken, List.drop_left, Place.lineAppend, Place.lineWhole whole,
    Place.columnAppend whole, List.length_cons]
  congr 1
  omega

theorem scanGap {lead gap rest} (skipped : Gap lead gap rest) (before : List Char) :
    scan lead (Place.line before) (Place.column before) (gap ++ rest) =
      scan lead (Place.line (before ++ gap)) (Place.column (before ++ gap)) rest := by
  induction skipped generalizing before with
  | nil => simp
  | blank skipped tail ih => rw [List.cons_append, scanBlank skipped, ih]; simp
  | comment row stops tail ih => rw [List.append_assoc, scanComment row stops, ih]; simp

theorem scanLexed {lead spelled rest found} (opens : Opens lead (spelled ++ rest))
    (lexed : Lexes spelled rest found) (line column : Nat) :
    scan lead line column (spelled ++ rest) =
      found.token line column :: scan lead line (column + spelled.length) rest := by
  obtain ⟨c, more, rfl, same, size⟩ := lexemeOfLexes lexed
  have visible : Text.isBlank c = false := opens.1 c rfl
  have feed : c ≠ '\n' := by rintro rfl; exact absurd visible (by decide)
  have outside : ¬ lead.chars.isPrefixOf (c :: (more ++ rest)) = true := fun inside =>
    opens.2 (List.isPrefixOf_iff_prefix.mp inside)
  rw [List.cons_append, scan, if_neg feed, visible, if_neg Bool.false_ne_true, if_neg outside]
  simp only [← same, size, List.drop_left, List.length_cons]
  congr 2
  omega

/- What a cut describes is what the scanner finds. -/
theorem scanCut {lead before pieces last} (cut : Cut lead before pieces last) :
    scan lead (Place.line before) (Place.column before) (joined pieces last) =
      pieces.map Piece.token := by
  induction cut with
  | @nil before last skipped =>
    have text : joined [] last = last ++ [] := by simp [joined]
    rw [text, scanGap skipped, scan]
    rfl
  | @cons before gap spelled found pieces last skipped opens lexed tail ih =>
    have whole := lexesRow lexed opens
    rw [joinedCons, scanGap skipped, scanLexed opens lexed, List.map_cons]
    rw [Place.lineAppend (before ++ gap), Place.lineWhole whole, Place.columnAppend whole] at ih
    exact congrArg _ ih

theorem cutBehind {lead before skipped pieces last}
    (cut : Cut lead (before ++ skipped) pieces last)
    (more : ∀ gap rest, gap ++ rest = joined pieces last → Gap lead gap rest →
      Gap lead (skipped ++ gap) rest) :
    ∃ pieces' last', joined pieces' last' = skipped ++ joined pieces last ∧
      Cut lead before pieces' last' := by
  cases cut with
  | nil gap =>
    exact ⟨[], skipped ++ last, by simp [joined], .nil (more last [] (by simp [joined]) gap)⟩
  | @cons _ gap spelled found pieces _ first opens lexed tail =>
    have wider := more gap _ (by rw [joinedCons]) first
    have next : Cut lead (before ++ (skipped ++ gap) ++ spelled) pieces last := by
      simpa using tail
    exact ⟨_, last, by simp [joined], .cons wider opens lexed next⟩

/- Every text has a cut, found from the left. -/
theorem cutExists (lead : CommentLead) (before src : List Char) :
    ∃ pieces last, joined pieces last = src ∧ Cut lead before pieces last := by
  induction size : src.length using Nat.strongRecOn generalizing before src with
  | ind n ih =>
  cases src with
  | nil => exact ⟨[], [], rfl, .nil .nil⟩
  | cons c rest =>
    by_cases blank : Text.isBlank c = true
    · obtain ⟨pieces, last, text, cut⟩ := ih rest.length (by simp at size; omega) (before ++ [c]) rest rfl
      obtain ⟨pieces', last', text', cut'⟩ := cutBehind cut fun gap rest _ skipped => .blank blank skipped
      exact ⟨pieces', last', by simp [text', text], cut'⟩
    by_cases comment : lead.chars <+: c :: rest
    · obtain ⟨tail, same⟩ := comment
      -- the comment and all gaps behind it join the first gap of what follows
      obtain ⟨body, below, rfl, row, stops⟩ := runCut (· != '\n') tail
      have shorter : below.length < n := by
        obtain ⟨d, more, chars, _⟩ := leadChars lead
        have size' := congrArg List.length same
        simp [chars] at size' size
        omega
      obtain ⟨pieces, last, text, cut⟩ :=
        ih below.length shorter (before ++ (lead.chars ++ body)) below rfl
      have feed : '\n' ∉ body := fun member => absurd (row _ member) (by simp)
      obtain ⟨pieces', last', text', cut'⟩ := cutBehind cut fun gap rest split skipped =>
        .comment feed (by rw [split, text]; intro d head; simpa using stops d head) skipped
      exact ⟨pieces', last', by rw [text', text, List.append_assoc, same], cut'⟩
    · obtain ⟨spelled, tail, found, same, lexed⟩ := lexesCut c rest
      have shorter : tail.length < n := by
        obtain ⟨d, more, rfl, _⟩ := lexemeOfLexes lexed
        have size' := congrArg List.length same
        simp at size' size
        omega
      obtain ⟨pieces, last, text, cut⟩ := ih tail.length shorter (before ++ [] ++ spelled) tail rfl
      have opens : Opens lead (spelled ++ joined pieces last) := by
        rw [text, ← same]
        exact ⟨by intro d head; cases head; simpa using blank, comment⟩
      exact ⟨_, last, by rw [joinedCons, List.nil_append, text, ← same],
        .cons .nil opens (text ▸ lexed) cut⟩

theorem cutSpelled {lead before pieces last} (cut : Cut lead before pieces last) :
    ∀ piece ∈ pieces, piece.spelled ≠ [] := by
  induction cut with
  | nil => simp
  | cons skipped opens lexed tail ih =>
    intro piece member
    rcases List.mem_cons.mp member with rfl | inside
    · obtain ⟨c, more, same, _⟩ := lexemeOfLexes lexed
      simp [same]
    · exact ih piece inside

theorem ofSourceIffCut (lead : CommentLead) (src : String) (tokens : List Token) :
    ofSource lead src = tokens ↔
      ∃ pieces last, src.toList = joined pieces last ∧ Cut lead [] pieces last ∧
        (∀ piece ∈ pieces, piece.spelled ≠ []) ∧ pieces.map Piece.token = tokens := by
  have found {pieces last} (text : src.toList = joined pieces last) (cut : Cut lead [] pieces last) :
      ofSource lead src = pieces.map Piece.token := by
    rw [ofSource, text]
    exact scanCut cut
  constructor
  · rintro rfl
    obtain ⟨pieces, last, text, cut⟩ := cutExists lead [] src.toList
    exact ⟨pieces, last, text.symm, cut, cutSpelled cut, (found text.symm cut).symm⟩
  · rintro ⟨pieces, last, text, cut, _, rfl⟩
    exact found text cut

end LanguageService.Token
