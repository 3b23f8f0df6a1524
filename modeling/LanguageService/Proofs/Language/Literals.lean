import LanguageService.Proofs.Language.Words

/-! String literals. Whether a character is escaped is told by the backslashes right before it: it is if
their number is odd. A literal ends with the first quote of its kind that is not escaped, or with its line
if there is none, and its content is what stands inside without the backslashes that escape. -/
namespace LanguageService.Token

/- Each character with the choice to escape it. A quote and a backslash have none. -/
def spell (quote : Char) (marked : List (Char × Bool)) : List Char :=
  marked.flatMap fun mark =>
    if mark.1 = quote ∨ mark.1 = '\\' ∨ mark.2 = true then ['\\', mark.1] else [mark.1]

def isEscaped (before : List Char) : Bool := (before.rtakeWhile (· == '\\')).length % 2 == 1

/- What stands behind a text, without the backslashes that are not escaped themselves. -/
def bared (before : List Char) : List Char → List Char
  | [] => []
  | c :: rest =>
    if c = '\\' ∧ isEscaped before = false then bared (before ++ [c]) rest
    else c :: bared (before ++ [c]) rest

theorem escapedSnoc (before : List Char) (c : Char) :
    isEscaped (before ++ [c]) = (c == '\\' && !isEscaped before) := by
  unfold isEscaped
  rw [List.rtakeWhile_concat]
  by_cases escape : c = '\\'
  · simp only [escape, beq_self_eq_true, if_true, List.length_append, List.length_singleton, Bool.true_and]
    grind
  · simp [escape]

theorem plainFree {c : Char} (bare : c ≠ '\\') (before : List Char) : isEscaped (before ++ [c]) = false := by
  simp [escapedSnoc, bare]

theorem backslashEscapes {before : List Char} (free : isEscaped before = false) :
    isEscaped (before ++ ['\\']) = true := by
  simp [escapedSnoc, free]

theorem escapedFree {before : List Char} (free : isEscaped before = false) (c : Char) :
    isEscaped (before ++ ['\\', c]) = false := by
  have taken := escapedSnoc (before ++ ['\\']) c
  rw [backslashEscapes free, List.append_assoc] at taken
  simpa using taken

theorem spellSpelled {quote : Char} {marked : List (Char × Bool)}
    (row : ∀ c ∈ marked.map Prod.fst, isLineEnd c = false) :
    Spelled quote (spell quote marked) (marked.map Prod.fst) := by
  induction marked with
  | nil => exact .nil
  | cons mark rest ih =>
    obtain ⟨first, later⟩ := List.forall_mem_cons.mp row
    rw [spell, List.flatMap_cons, List.map_cons]
    split
    · exact .escaped first (ih later)
    · rename_i free
      simp only [not_or] at free
      exact .plain free.1 first free.2.1 (ih later)

section Spelled
variable {quote : Char} {source content : List Char} (spelled : Spelled quote source content)
include spelled

theorem spelledBared {before : List Char} (free : isEscaped before = false) (rest : List Char) :
    bared before (source ++ rest) = content ++ bared (before ++ source) rest := by
  induction spelled generalizing before with
  | nil => simp
  | @plain c source content inside row bare tail ih =>
    have later := ih (plainFree bare before)
    simp [bared, bare, later]
  | @escaped c source content row tail ih =>
    have later := ih (escapedFree free c)
    simp [bared, free, backslashEscapes free, later]

theorem spelledFree {before : List Char} (free : isEscaped before = false) :
    isEscaped (before ++ source) = false := by
  induction spelled generalizing before with
  | nil => simpa using free
  | @plain c source content inside row bare tail ih => simpa using ih (plainFree bare before)
  | @escaped c source content row tail ih => simpa using ih (escapedFree free c)

/- A quote in a spelling is escaped, also with some text behind the spelling that has none. -/
theorem spelledQuotes (quoted : quote ≠ '\\') {mark : List Char} (outside : quote ∉ mark) {before a b : List Char}
    (free : isEscaped before = false) (found : source ++ mark = a ++ quote :: b) :
    isEscaped (before ++ a) = true := by
  induction spelled generalizing before a with
  | nil => exact absurd (by simp [show mark = a ++ quote :: b from found]) outside
  | @plain c source content inside row bare tail ih =>
    cases a with
    | nil => exact absurd (List.cons.inj found).1 inside
    | cons d a =>
      obtain ⟨rfl, later⟩ := List.cons.inj found
      simpa using ih (plainFree bare before) later
  | @escaped c source content row tail ih =>
    match a with
    | [] => exact absurd (List.cons.inj found).1.symm quoted
    | [d] =>
      obtain ⟨rfl, _⟩ := List.cons.inj found
      exact backslashEscapes free
    | d :: e :: a =>
      obtain ⟨rfl, next⟩ := List.cons.inj found
      obtain ⟨rfl, later⟩ := List.cons.inj next
      simpa using ih (escapedFree free c) later

end Spelled

/- A literal in a text: what stands inside its quotes, or behind its only one. -/
structure Literal (src left : List Char) (quote : Char) (inside right : List Char) (t : Token) : Prop where
  opens : isQuote quote = true
  text : src = left ++ (quote :: (inside ++ if t.closed then quote :: right else right))
  start : t.start = Place.ofText left
  extent : t.extent = some (inside.length + if t.closed then 2 else 1)
  content : t.text = String.ofList (bared [] inside)
  row : ∀ c ∈ inside, isLineEnd c = false
  quotes : ∀ a b, inside = a ++ quote :: b → isEscaped a = true
  closes : t.closed = true → isEscaped inside = false
  stops : t.closed = false → Next (isLineEnd · = true) right

theorem quoteMarks {quote : Char} (opens : isQuote quote = true) :
    quote ≠ '\\' ∧ Text.isBlank quote = false ∧ ∀ lead : CommentLead, lead.chars.head? ≠ some quote := by
  simp only [isQuote, Bool.or_eq_true, beq_iff_eq] at opens
  rcases opens with rfl | rfl
  · exact ⟨by decide, by decide, fun lead => by cases lead <;> decide⟩
  · exact ⟨by decide, by decide, fun lead => by cases lead <;> decide⟩

theorem quoteOpens {quote : Char} (opens : isQuote quote = true) (lead : CommentLead) (rest : List Char) :
    Opens lead (quote :: rest) := by
  obtain ⟨_, visible, other⟩ := quoteMarks opens
  refine ⟨fun c head => Option.some.inj head ▸ visible, fun comment => ?_⟩
  obtain ⟨c, tail, chars, _⟩ := leadChars lead
  rw [chars, List.cons_prefix_cons] at comment
  exact other lead (by rw [chars, comment.1]; rfl)

theorem stringLiteral {lead : CommentLead} {src left spelled right : List Char} {found : Lexeme} {t : Token}
    (lexed : Lexed lead src left spelled right found t) (string : t.kind = .string) :
    ∃ quote inside, Literal src left quote inside right t := by
  obtain ⟨text, _, lexes, rfl⟩ := lexed
  cases lexes with
  | @string quote source content mark _ closed opens spelled ends =>
    obtain ⟨escape, _⟩ := quoteMarks opens
    have row := stringRow opens spelled ends
    have nothing : isEscaped [] = false := rfl
    have free := spelledFree spelled nothing
    have bare := spelledBared spelled nothing
    have quotes {mark : List Char} (outside : quote ∉ mark) (a b : List Char)
        (inside : source ++ mark = a ++ quote :: b) : isEscaped a = true :=
      spelledQuotes spelled escape outside nothing inside
    rw [List.nil_append] at free bare
    cases ends with
    | quoted =>
      refine ⟨quote, source, opens, ?_, rfl, ?_, ?_, spelledRow spelled, ?_, fun _ => free,
        fun torn => (by cases torn)⟩
      · simpa [Lexeme.token] using text
      · simp [Lexeme.token]
      · simpa [Lexeme.token, bared] using congrArg String.ofList (bare []).symm
      · simpa using quotes List.not_mem_nil
    | stopped stops =>
      refine ⟨quote, source, opens, ?_, rfl, ?_, ?_, spelledRow spelled, ?_, fun closed => (by cases closed),
        fun _ => stops⟩
      · simpa [Lexeme.token] using text
      · simp [Lexeme.token]
      · simpa [Lexeme.token, bared] using congrArg String.ofList (bare []).symm
      · simpa using quotes List.not_mem_nil
    | dangling stops =>
      -- the last backslash has nothing to escape and is dropped like those that do escape
      refine ⟨quote, source ++ ['\\'], opens, ?_, rfl, ?_, ?_, ?_, ?_, fun closed => (by cases closed),
        fun _ => stops⟩
      · simpa [Lexeme.token] using text
      · simp [Lexeme.token]
      · simpa [Lexeme.token, bared, free] using congrArg String.ofList (bare ['\\']).symm
      · exact fun c member => row c (List.mem_cons_of_mem quote member)
      · exact quotes (by simpa using escape)
  | _ => cases string

theorem spelledScan {quote : Char} {source content : List Char} (opens : isQuote quote = true)
    (spelled : Spelled quote source content) (lead : CommentLead) (rest : List Char) :
    scan lead 0 0 (quote :: (source ++ quote :: rest)) =
      ⟨.string, String.ofList content, 0, 0, true, some (source.length + 2)⟩ ::
        scan lead 0 (source.length + 2) rest := by
  have lexes := Lexes.string opens spelled (.quoted : Closing quote [quote] rest true)
  have scanned := scanLexed (quoteOpens opens lead _) lexes 0 0
  simpa [Lexeme.token] using scanned

theorem stringLiterals (lead : CommentLead) :
    (∀ quote marked rest, isQuote quote = true → (∀ c ∈ marked.map Prod.fst, isLineEnd c = false) →
      ∃ later, ofSource lead (String.ofList (quote :: (spell quote marked ++ quote :: rest))) =
        ⟨.string, String.ofList (marked.map Prod.fst), 0, 0, true, some ((spell quote marked).length + 2)⟩ ::
          later) ∧
    ∀ src, ∀ t ∈ ofSource lead src, t.kind = .string →
      ∃ left quote inside right, Literal src.toList left quote inside right t := by
  refine ⟨fun quote marked rest opens row => ?_, fun src t listed string => ?_⟩
  · refine ⟨scan lead 0 ((spell quote marked).length + 2) rest, ?_⟩
    rw [ofSource, String.toList_ofList]
    exact spelledScan opens (spellSpelled row) lead rest
  · obtain ⟨left, _, right, _, lexed⟩ := tokenLexed listed
    obtain ⟨quote, inside, literal⟩ := stringLiteral lexed string
    exact ⟨left, quote, inside, right, literal⟩

/- A content with both quotes and a comment lead in it, and a literal that its line cuts short. -/
def quotedMarks : List (Char × Bool) := [('"', false), ('\'', true), ('\\', false), ('-', false), ('-', false)]

def cutSource : String := "x 'it\\'s \"--\" \\\r\n'"

def cutLiteral : Token := ⟨.string, "it's \"--\" ", 0, 2, false, some 13⟩

theorem quotedMarksRead :
    (∃ later, ofSource .dashes (String.ofList ('"' :: (spell '"' quotedMarks ++ '"' :: ['"']))) =
      ⟨.string, String.ofList (quotedMarks.map Prod.fst), 0, 0, true, some ((spell '"' quotedMarks).length + 2)⟩ ::
        later) ∧
    spell '"' quotedMarks = "\\\"\\'\\\\--".toList ∧
    cutLiteral ∈ ofSource .dashes cutSource ∧
    ∃ left quote inside right, Literal cutSource.toList left quote inside right cutLiteral := by
  obtain ⟨decodes, stands⟩ := stringLiterals .dashes
  have listed : cutLiteral ∈ ofSource .dashes cutSource := by decide +kernel
  exact ⟨decodes '"' quotedMarks ['"'] (by decide) (by simp [quotedMarks, isLineEnd]), by decide, listed,
    stands _ _ listed rfl⟩

end LanguageService.Token
