import LanguageService.Proofs.Language.Malformed

/-! How far a finding reaches. It starts with its lexeme, and a malformed number is marked from end to end. An
open string is marked over as many characters as its content has, and the content is without the backslashes
that escape: the mark stops one character short for each of them, and covers the lexeme where there is none. -/
namespace LanguageService.Token

/- How many backslashes behind a text are not escaped themselves. -/
def escapes (before : List Char) : List Char → Nat
  | [] => 0
  | c :: rest => escapes (before ++ [c]) rest + if c = '\\' ∧ isEscaped before = false then 1 else 0

theorem baredEscapes (before cs : List Char) : (bared before cs).length + escapes before cs = cs.length := by
  induction cs generalizing before with
  | nil => rfl
  | cons c rest ih =>
    have tail := ih (before ++ [c])
    rw [bared, escapes, List.length_cons]
    split
    · omega
    · rw [List.length_cons]
      omega

theorem escapesNone {before cs : List Char} (free : isEscaped before = false) :
    escapes before cs = 0 ↔ '\\' ∉ cs := by
  induction cs generalizing before with
  | nil => simp [escapes]
  | cons c rest ih =>
    by_cases escape : c = '\\'
    · simp [escapes, escape, free]
    · simp [escapes, escape, Ne.symm escape, ih (plainFree escape before)]

theorem Lexed.range {lead : CommentLead} {src left spelled right : List Char} {found : Lexeme} {t : Token}
    (lexed : Lexed lead src left spelled right found t) :
    t.range = ⟨Place.ofText left, Place.ofText (left ++ spelled)⟩ := by
  obtain ⟨_, opens, lexes, rfl⟩ := lexed
  have width := lexesWidth lexes (Place.line left) (Place.column left)
  rw [Place.ofTextAppend (lexesRow lexes opens), Token.range, Token.stop, width]
  rfl

/- A range without its last characters. -/
def cutShort (r : Range) (n : Nat) : Range := ⟨r.start, ⟨r.stop.line, r.stop.character - n⟩⟩

theorem cutShortWhole {r : Range} {n : Nat} : cutShort r n = r ↔ n = 0 := by
  obtain ⟨start, line, character⟩ := r
  simp only [cutShort, Range.mk.injEq, Position.mk.injEq, true_and]
  omega

/- A lexeme, its token and the finding about it. -/
structure Marks (src left spelled right : List Char) (t : Token) (f : Finding) : Prop where
  text : src = left ++ (spelled ++ right)
  range : t.range = ⟨Place.ofText left, Place.ofText (left ++ spelled)⟩
  about : f.cause = .invalidNumber ∧ t.kind = .number ∨
    f.cause = .unterminatedString ∧ t.kind = .string ∧ t.closed = false
  marked : f.range = cutShort t.range (escapes [] spelled.tail)
  whole : f.range = t.range ↔ '\\' ∉ spelled

theorem shortWhole {c : Char} (bare : c ≠ '\\') (more : List Char) (r : Range) :
    cutShort r (escapes [] more) = r ↔ '\\' ∉ c :: more := by
  have none : escapes [] more = 0 ↔ '\\' ∉ more := escapesNone rfl
  rw [cutShortWhole, none, List.mem_cons, not_or, and_iff_right (Ne.symm bare)]

section Lexed
variable {lead : CommentLead} {src left spelled right : List Char} {found : Lexeme} {t : Token} {f : Finding}
  (lexed : Lexed lead src left spelled right found t) (reported : Finding.ofToken? t = some f)
include lexed reported

theorem stringMarks (string : t.kind = .string) : Marks src left spelled right t f := by
  obtain ⟨quote, inside, literal⟩ := stringLiteral lexed string
  have spelled := literal.spelled lexed.text
  have extent := literal.extent
  have size := baredEscapes [] inside
  rw [Finding.ofTokenString string] at reported
  cases closed : t.closed with
  | true =>
    rw [closed] at reported
    cases reported
  | false =>
    rw [closed, if_neg Bool.false_ne_true] at reported spelled extent
    cases reported
    rw [List.append_nil] at spelled
    have marked : (⟨t.start, ⟨t.line, t.column + t.text.length + 1⟩⟩ : Range) =
        cutShort t.range (escapes [] inside) := by
      have length : t.text.length = (bared [] inside).length := by rw [literal.content, String.length_ofList]
      have width : t.width = inside.length + 1 := by rw [Token.width, extent, Option.getD_some]
      simp only [cutShort, Token.range, Token.stop, width, length, Range.mk.injEq, Position.mk.injEq, true_and]
      omega
    refine ⟨lexed.text, lexed.range, .inr ⟨rfl, string, closed⟩, ?_, ?_⟩
    · rw [spelled]
      exact marked
    · rw [spelled, ← shortWhole (quoteMarks literal.opens).1 inside t.range, ← marked]

theorem numberMarks (number : t.kind = .number) : Marks src left spelled right t f := by
  obtain ⟨_, c, run, same, first, all⟩ := lexed.numberRun number
  have bare : '\\' ∉ spelled := by
    rw [same]
    intro member
    rcases List.mem_cons.mp member with rfl | inside
    · cases first
    · exact absurd (all _ inside) (by decide)
  have none : escapes [] spelled.tail = 0 :=
    (escapesNone rfl).mpr fun member => bare (List.mem_of_mem_tail member)
  rw [Finding.ofTokenNumber number] at reported
  split at reported
  · cases reported
  · cases reported
    refine ⟨lexed.text, lexed.range, .inl ⟨rfl, number⟩, ?_, iff_of_true rfl bare⟩
    rw [none, cutShortWhole.mpr rfl]

theorem tokenMarks : Marks src left spelled right t f := by
  by_cases string : t.kind = .string
  · exact stringMarks lexed reported string
  by_cases number : t.kind = .number
  · exact numberMarks lexed reported number
  · rw [Finding.ofTokenOther string number] at reported
    cases reported

end Lexed

theorem findingsMark (lead : CommentLead) (src : String) (f : Finding)
    (listed : f ∈ Finding.ofTokens (ofSource lead src)) :
    ∃ t ∈ ofSource lead src, ∃ left spelled right, Marks src.toList left spelled right t f := by
  obtain ⟨t, member, reported⟩ := List.mem_filterMap.mp listed
  obtain ⟨left, spelled, right, found, lexed⟩ := tokenLexed member
  exact ⟨t, member, left, spelled, right, tokenMarks lexed reported⟩

/- An escaped quote in a string, and a backslash at the end of the text. -/
def escapedSource : String := "1.. \"a\\\"b\\"

def escapedString : Token := ⟨.string, "a\"b", 0, 4, false, some 6⟩

def escapedFinding : Finding := ⟨⟨⟨0, 4⟩, ⟨0, 8⟩⟩, .unterminatedString⟩

theorem escapedMarked :
    escapedFinding ∈ Finding.ofTokens (ofSource .dashes escapedSource) ∧
    ∃ t ∈ ofSource .dashes escapedSource, ∃ left spelled right,
      Marks escapedSource.toList left spelled right t escapedFinding := by
  have listed : escapedFinding ∈ Finding.ofTokens (ofSource .dashes escapedSource) := by decide +kernel
  exact ⟨listed, findingsMark .dashes escapedSource escapedFinding listed⟩

theorem escapedUncovered :
    escapedFinding ∈ Finding.ofTokens (ofSource .dashes escapedSource) ∧
    escapedString ∈ ofSource .dashes escapedSource ∧ escapedString.start = escapedFinding.range.start ∧
    ∀ t ∈ ofSource .dashes escapedSource, t.range ≠ escapedFinding.range := by
  decide +kernel

end LanguageService.Token
