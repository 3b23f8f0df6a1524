import LanguageService.Proofs.Text.Lines
import LanguageService.Query.Word
import LanguageService.Source.Edit
import LanguageService.Source.Position
import Mathlib.Data.List.DropRight

/-! The place behind a text: the line feeds in it, and the characters behind the last of them.
Lines by number, prefix sums over lines and the count of line feeds all agree on it: the offset
of the place behind a part of a text is the length of that part. -/
namespace LanguageService.Text

theorem linesLength (cs : List Char) : (lines cs).length = cs.count '\n' + 1 := by
  unfold lines
  induction cs with
  | nil => rfl
  | cons c rest ih =>
    by_cases feed : c = '\n'
    · simp [split, feed, ih]
    · cases parts : split '\n' rest with
      | nil => simp [parts] at ih
      | cons part others => simpa [split, feed, parts] using ih

theorem linesFeed (above below : List Char) :
    lines (above ++ '\n' :: below) = lines above ++ lines below :=
  splitSeparator '\n' above below

theorem linesHead {row : List Char} (whole : '\n' ∉ row) (rest : List Char) :
    (lines (row ++ rest))[0]? = some (row ++ rest.takeWhile (· != '\n')) := by
  unfold lines
  induction row with
  | nil =>
    induction rest with
    | nil => rfl
    | cons c rest ih =>
      by_cases feed : c = '\n'
      · simp [split, feed]
      · cases parts : split '\n' rest with
        | nil => simp [parts] at ih
        | cons part others => simpa [split, feed, parts] using ih
  | cons c row ih =>
    simp only [List.mem_cons, not_or] at whole
    obtain ⟨feed, whole⟩ := whole
    have head := ih whole
    cases parts : split '\n' (row ++ rest) with
    | nil => simp [parts] at head
    | cons part others => simpa [split, Ne.symm feed, parts] using head

theorem linesExtent (cs : List Char) : Edit.extent (lines cs) = cs.length + 1 := by
  unfold lines
  induction cs with
  | nil => rfl
  | cons c rest ih =>
    by_cases feed : c = '\n'
    · simp [split, feed, Edit.extent, ih]; omega
    · cases parts : split '\n' rest with
      | nil => simp [parts, Edit.extent] at ih
      | cons part others => simp [split, feed, parts, Edit.extent] at ih ⊢; omega

end LanguageService.Text

namespace LanguageService.Place

def line (before : List Char) : Nat := before.count '\n'

def row (before : List Char) : List Char := before.rtakeWhile (· != '\n')

def column (before : List Char) : Nat := (row before).length

def ofText (before : List Char) : Position := ⟨line before, column before⟩

theorem lineAppend (a b : List Char) : line (a ++ b) = line a + line b := List.count_append

theorem lineWhole {b : List Char} (whole : '\n' ∉ b) : line b = 0 := List.count_eq_zero.mpr whole

theorem rowWhole (before : List Char) : '\n' ∉ row before := by
  intro member
  have kept := List.mem_rtakeWhile_imp member
  simp at kept

theorem rowFeed (above : List Char) : row (above ++ ['\n']) = [] :=
  List.rtakeWhile_concat_neg _ _ _ (by decide)

theorem rowAppend {b : List Char} (whole : '\n' ∉ b) (a : List Char) : row (a ++ b) = row a ++ b := by
  induction b using List.reverseRecOn with
  | nil => simp
  | append_singleton b c ih =>
    simp only [List.mem_append, List.mem_singleton, not_or] at whole
    have kept : (c != '\n') = true := bne_iff_ne.mpr (Ne.symm whole.2)
    rw [← List.append_assoc, row, List.rtakeWhile_concat_pos (· != '\n') _ _ kept, ← row, ih whole.1,
      List.append_assoc]

theorem columnFeed (above : List Char) : column (above ++ ['\n']) = 0 := by
  rw [column, rowFeed, List.length_nil]

theorem columnAppend {b : List Char} (whole : '\n' ∉ b) (a : List Char) :
    column (a ++ b) = column a + b.length := by
  simp [column, rowAppend whole]

theorem rowCut (before : List Char) :
    before = row before ∨ ∃ above, before = above ++ '\n' :: row before := by
  induction before using List.reverseRecOn with
  | nil => exact Or.inl rfl
  | append_singleton before c ih =>
    by_cases feed : c = '\n'
    · subst c
      exact Or.inr ⟨before, by rw [rowFeed]⟩
    · have whole : '\n' ∉ [c] := by simpa using Ne.symm feed
      rw [rowAppend whole]
      rcases ih with same | ⟨above, same⟩
      · exact Or.inl (by rw [← same])
      · refine Or.inr ⟨above, ?_⟩
        rw [← List.cons_append, ← List.append_assoc, ← same]

theorem columnBelow {b : List Char} (feed : '\n' ∈ b) (a : List Char) : column (a ++ b) = column b := by
  rcases rowCut b with same | ⟨above, same⟩
  · exact absurd (same ▸ feed) (rowWhole b)
  · have rowed (above : List Char) : column (above ++ '\n' :: row b) = column b := by
      rw [← List.singleton_append, ← List.append_assoc, columnAppend (rowWhole b), columnFeed, Nat.zero_add]
      rfl
    have whole := rowed (a ++ above)
    rw [List.append_assoc, ← same] at whole
    exact whole

theorem rowLast {before : List Char} {c : Char} (last : (row before).getLast? = some c) :
    before.getLast? = some c := by
  rcases rowCut before with same | ⟨above, same⟩
  · rw [same, last]
  · rw [same, List.getLast?_append, List.getLast?_cons, last]
    rfl

/- The lines above the last row of a text are fixed by it, whatever follows. -/
theorem linesCut (before rest : List Char) :
    ∃ above, Text.lines (before ++ rest) = above ++ Text.lines (row before ++ rest) ∧
      above.length = line before ∧
      Edit.extent above + column before = before.length := by
  rcases rowCut before with same | ⟨above, same⟩
  · have whole : '\n' ∉ before := same ▸ rowWhole before
    refine ⟨[], ?_, (lineWhole whole).symm, ?_⟩
    · rw [← same, List.nil_append]
    · rw [column, ← same]; simp [Edit.extent]
  · refine ⟨Text.lines above, ?_, ?_, ?_⟩
    · rw [← Text.linesFeed, ← List.cons_append, ← List.append_assoc, ← same]
    · have count := congrArg line same
      have feed : line ('\n' :: row before) = line (row before) + 1 := List.count_cons_self
      rw [lineAppend, feed, lineWhole (rowWhole before)] at count
      rw [Text.linesLength, count, line]
    · have size := congrArg List.length same
      rw [List.length_append, List.length_cons, ← column] at size
      rw [Text.linesExtent]
      omega

theorem linesRow (before rest : List Char) :
    (Text.lines (before ++ rest))[line before]? =
      some (row before ++ rest.takeWhile (· != '\n')) := by
  obtain ⟨above, parts, count, _⟩ := linesCut before rest
  rw [parts, ← count, List.getElem?_append_right (Nat.le_refl _), Nat.sub_self]
  exact Text.linesHead (rowWhole before) rest

theorem lineStartColumn (before rest : List Char) :
    Edit.lineStart (Text.lines (before ++ rest)) (line before) + column before = before.length := by
  obtain ⟨above, parts, count, size⟩ := linesCut before rest
  rw [Edit.lineStart, parts, ← count, List.take_left, size]

theorem lineIndexNatural {lines : List (List Char)} {index : Nat} (inside : index < lines.length) :
    Edit.lineIndex? lines index = some index := by
  have natural : ¬ (index : Int) < 0 := by omega
  have within : 0 ≤ (index : Int) ∧ (index : Int) < lines.length := by omega
  simp only [Edit.lineIndex?, if_neg natural, if_pos within, Int.toNat_natCast]

/- Characters past the end of the row count up to its end. -/
theorem offsetBehind (before rest : List Char) (more : Nat) :
    Edit.offset? (before ++ rest) (line before) (column before + more : Nat) =
      some (before.length + min more (rest.takeWhile (· != '\n')).length : Nat) := by
  have here := linesRow before rest
  have start := lineStartColumn before rest
  obtain ⟨inside, _⟩ := List.getElem?_eq_some_iff.mp here
  have within : ¬ ((Text.lines (before ++ rest)).length : Int) ≤ line before := by omega
  have width : (row before).length = column before := rfl
  simp only [Edit.offset?, if_neg within, lineIndexNatural inside, Option.map_some, Edit.column,
    List.getD_eq_getElem?_getD, here, Option.getD_some, List.length_append, width]
  congr 1
  omega

theorem offsetOfText (before rest : List Char) :
    Edit.offset? (before ++ rest) (line before) (column before) = some (before.length : Int) := by
  simpa using offsetBehind before rest 0

theorem lineOfText (before rest : List Char) :
    Word.line? (before ++ rest) (line before) = some (row before ++ rest.takeWhile (· != '\n')) := by
  have natural : ¬ (line before : Int) < 0 := by omega
  rw [Word.line?, if_neg natural]
  exact linesRow before rest

theorem lineAround (before : List Char) {word : List Char} (whole : '\n' ∉ word) (rest : List Char) :
    Word.line? (before ++ (word ++ rest)) (line before) =
      some (row before ++ (word ++ rest.takeWhile (· != '\n'))) := by
  have kept : ∀ c ∈ word, (c != '\n') = true := by
    intro c member
    exact bne_iff_ne.mpr fun same => whole (same ▸ member)
  rw [lineOfText, List.takeWhile_append_of_pos kept]

theorem ofTextAppend {b : List Char} (whole : '\n' ∉ b) (a : List Char) :
    ofText (a ++ b) = ⟨(ofText a).line, (ofText a).character + b.length⟩ := by
  simp [ofText, lineAppend, lineWhole whole, columnAppend whole]

theorem precedesIff (a b : Position) :
    a.precedes b = true ↔ a.line < b.line ∨ a.line = b.line ∧ a.character ≤ b.character := by
  simp [Position.precedes]

theorem precedesAppend (a b : List Char) : (ofText a).precedes (ofText (a ++ b)) = true := by
  rw [precedesIff]
  simp only [ofText, lineAppend]
  by_cases feed : '\n' ∈ b
  · have more : 0 < line b := List.count_pos_iff.mpr feed
    omega
  · rw [lineWhole feed, columnAppend feed]
    omega

end LanguageService.Place
