import LanguageService.Proofs.Language.Locality
import LanguageService.Proofs.Language.Positions
import LanguageService.Proofs.Session.Messages

/-! What an edit leaves alone. No token runs over a line feed, so the lines above the first line of an
edit keep their tokens and findings, and those below its last line are moved up or down and nothing else. -/
namespace LanguageService

def Position.shifted (rows : Int) (p : Position) : Position := { p with line := p.line + rows }

def Finding.shifted (rows : Int) (f : Finding) : Finding :=
  { f with range := ⟨f.range.start.shifted rows, f.range.stop.shifted rows⟩ }

def Token.shifted (rows : Int) (t : Token) : Token := { t with line := (t.line + rows).toNat }

namespace Place

theorem lineFeed (below : List Char) : line ('\n' :: below) = line below + 1 := List.count_cons_self

/- A line that is there starts behind some part of the text. -/
theorem lineStarts {src : List Char} {n : Nat} (inside : n < (Text.lines src).length) :
    ∃ above rest, src = above ++ rest ∧ line above = n ∧ column above = 0 := by
  induction n with
  | zero => exact ⟨[], src, rfl, rfl, rfl⟩
  | succ n ih =>
    obtain ⟨above, rest, rfl, count, _⟩ := ih (by omega)
    have more : 0 < rest.count '\n' := by
      rw [Text.linesLength, List.count_append] at inside
      rw [line] at count
      omega
    obtain ⟨front, below, rfl, whole⟩ := List.eq_append_cons_of_mem (List.count_pos_iff.mp more)
    refine ⟨above ++ front ++ ['\n'], below, by simp, ?_, columnFeed _⟩
    rw [lineAppend, lineAppend, lineWhole whole, count, lineFeed]
    rfl

end Place

namespace Change

theorem offsetOnLine {above : List Char} (starts : Place.column above = 0) (rest : List Char) (character : Nat) :
    Spot.offset ⟨Place.line above, character⟩ (above ++ rest) =
      above.length + min character (rest.takeWhile (· != '\n')).length := by
  have here := Place.offsetBehind above rest character
  have read := spotOffset ⟨Place.line above, character⟩ (above ++ rest)
  rw [starts, Nat.zero_add] at here
  exact Int.ofNat.inj (Option.some.inj (read.symm.trans here))

/- The text before a place ends on the line of the place, also where its character is past the end. -/
theorem spotLine {src : List Char} {spot : Spot} (inside : spot.line < (Text.lines src).length) :
    Place.line (src.take (spot.offset src)) = spot.line := by
  obtain ⟨line, character⟩ := spot
  obtain ⟨above, rest, rfl, rfl, starts⟩ := Place.lineStarts inside
  have whole : '\n' ∉ rest.take (min character (rest.takeWhile (· != '\n')).length) := by
    intro member
    have cut : rest.take (min character (rest.takeWhile (· != '\n')).length) <+: rest.takeWhile (· != '\n') :=
      List.prefix_of_prefix_length_le (List.take_prefix _ _) (List.takeWhile_prefix _)
        (by rw [List.length_take]; omega)
    have kept := List.mem_takeWhile_imp (cut.subset member)
    simp at kept
  rw [offsetOnLine starts, List.take_length_add_append, Place.lineAppend, Place.lineWhole whole, Nat.add_zero]

theorem spotsOrdered {src : List Char} {start stop : Spot}
    (ordered : Position.precedes ⟨start.line, start.character⟩ ⟨stop.line, stop.character⟩ = true)
    (inside : stop.line < (Text.lines src).length) : start.offset src ≤ stop.offset src := by
  obtain ⟨first, character⟩ := start
  obtain ⟨line, other⟩ := stop
  rw [Place.precedesIff] at ordered
  simp only at ordered inside
  rcases Nat.lt_or_ge first line with above | level
  · by_contra crossed
    -- the text before the later line would be part of the text before the earlier one
    have part := (List.take_prefix_take_left (l := src) (Nat.le_of_not_le crossed)).sublist.count_le '\n'
    have start : Place.line (src.take (Spot.offset ⟨first, character⟩ src)) = first :=
      spotLine (Nat.lt_trans above inside)
    have stop : Place.line (src.take (Spot.offset ⟨line, other⟩ src)) = line := spotLine inside
    rw [Place.line] at start stop
    omega
  · obtain rfl : first = line := by omega
    obtain ⟨above, rest, rfl, rfl, starts⟩ := Place.lineStarts inside
    rw [offsetOnLine starts, offsetOnLine starts]
    omega

end Change

namespace Token

theorem scanLines (lead : CommentLead) (src : List Char) : ∀ t ∈ scan lead 0 0 src, t.line ≤ Place.line src := by
  obtain ⟨pieces, last, rfl, cut⟩ := cutExists lead [] src
  have scanned : scan lead 0 0 (joined pieces last) = pieces.map Piece.token := scanCut cut
  rw [scanned]
  intro t member
  obtain ⟨piece, inside, rfl⟩ := List.mem_map.mp member
  obtain ⟨left, standing⟩ := cutStanding cut piece inside
  simp only [List.nil_append] at standing
  obtain ⟨right, whole⟩ := standing.text
  rw [standing.line, whole, Place.lineAppend]
  exact Nat.le_add_right _ _

/- A line feed parts the tokens by their lines. -/
theorem scanParts (lead : CommentLead) (above below : List Char) :
    (scan lead 0 0 (above ++ '\n' :: below)).filter (·.line ≤ Place.line above) = scan lead 0 0 above ∧
      (scan lead 0 0 (above ++ '\n' :: below)).filter (Place.line above < ·.line) =
        (scan lead 0 0 below).map (lower (Place.line above + 1)) := by
  have front : ∀ t ∈ scan lead 0 0 above, t.line ≤ Place.line above := scanLines lead above
  have back : ∀ t ∈ (scan lead 0 0 below).map (lower (Place.line above + 1)), Place.line above < t.line := by
    intro t member
    obtain ⟨u, _, rfl⟩ := List.mem_map.mp member
    simp only [lower]
    omega
  have all : scan lead 0 0 (above ++ '\n' :: below) =
      scan lead 0 0 above ++ (scan lead 0 0 below).map (lower (Place.line above + 1)) := scanBelow lead above below
  rw [all, List.filter_append, List.filter_append]
  constructor
  · rw [List.filter_eq_self.mpr (by simpa using front), List.filter_eq_nil_iff.mpr (by simpa using back),
      List.append_nil]
  · rw [List.filter_eq_nil_iff.mpr (by simpa using front), List.filter_eq_self.mpr (by simpa using back),
      List.nil_append]

/- The lines above the last one of a text have the same tokens, whatever follows. -/
theorem scanFront (lead : CommentLead) (left : List Char) :
    ∃ tokens, ∀ rest, (scan lead 0 0 (left ++ rest)).filter (·.line < Place.line left) = tokens := by
  rcases Place.rowCut left with same | ⟨above, same⟩
  · have top : Place.line left = 0 := Place.lineWhole (same ▸ Place.rowWhole left)
    exact ⟨[], fun rest => by simp [top]⟩
  · have rows : Place.line left = Place.line above + 1 := by
      rw [same, Place.lineAppend, Place.lineFeed, Place.lineWhole (Place.rowWhole left)]
    refine ⟨scan lead 0 0 above, fun rest => ?_⟩
    have text : left ++ rest = above ++ '\n' :: (Place.row left ++ rest) := by
      rw [← List.cons_append, ← List.append_assoc, ← same]
    rw [text, rows]
    simpa only [Nat.lt_succ_iff] using (scanParts lead above _).1

/- The lines below the first one of a text have the same tokens, whatever comes before. -/
theorem scanBack (lead : CommentLead) (rest : List Char) :
    ∃ tokens : List Token, ∀ left, (scan lead 0 0 (left ++ rest)).filter (Place.line left < ·.line) =
      tokens.map (lower (Place.line left + 1)) := by
  by_cases feed : '\n' ∈ rest
  · obtain ⟨front, below, rfl, whole⟩ := List.eq_append_cons_of_mem feed
    refine ⟨scan lead 0 0 below, fun left => ?_⟩
    have rows : Place.line (left ++ front) = Place.line left := by
      rw [Place.lineAppend, Place.lineWhole whole, Nat.add_zero]
    rw [← List.append_assoc, ← rows]
    exact (scanParts lead (left ++ front) below).2
  · refine ⟨[], fun left => ?_⟩
    rw [List.map_nil, List.filter_eq_nil_iff]
    intro t member
    have bound := scanLines lead (left ++ rest) t member
    rw [Place.lineAppend, Place.lineWhole feed] at bound
    simpa using bound

theorem shiftedLower {rows : Int} {down further : Nat} (sum : down + rows = further) (t : Token) :
    shifted rows (lower down t) = lower further t := by
  have line : ((t.line + down : Nat) + rows).toNat = t.line + further := by omega
  simp only [shifted, lower, line]

end Token

namespace Finding

theorem shiftedLower {rows : Int} {down further : Nat} (sum : down + rows = further) (f : Finding) :
    shifted rows (lower down f) = lower further f := by
  simp only [shifted, lower, Range.lower, Position.shifted, Position.lower, Int.add_assoc, sum]

theorem ofTokenLine {t : Token} {f : Finding} (found : ofToken? t = some f) : f.range.start.line = t.line := by
  unfold ofToken? at found
  split at found
  · cases found
    rfl
  · split at found
    · cases found
      rfl
    · cases found

theorem ofTokensFilter {kept : Token → Bool} {shown : Finding → Bool}
    (same : ∀ t f, ofToken? t = some f → shown f = kept t) (tokens : List Token) :
    (ofTokens tokens).filter shown = ofTokens (tokens.filter kept) := by
  unfold ofTokens
  induction tokens with
  | nil => rfl
  | cons t rest ih =>
    cases found : ofToken? t with
    | none =>
      rw [List.filterMap_cons_none found, ih, List.filter_cons]
      split
      · rw [List.filterMap_cons_none found]
      · rfl
    | some f =>
      rw [List.filterMap_cons_some found, List.filter_cons, List.filter_cons, same t f found, ih]
      split
      · rw [List.filterMap_cons_some found]
      · rfl

end Finding

/- What an edit from one line to another leaves of the tokens and findings of a text, where it puts in some
line feeds: all above its first line, and all below its last one, moved by the lines that came or went. -/
structure Undisturbed (lead : CommentLead) (src edited : String) (first last feeds : Nat) : Prop where
  tokensAbove : (Token.ofSource lead edited).filter (·.line < first) =
    (Token.ofSource lead src).filter (·.line < first)
  tokensBelow : (Token.ofSource lead edited).filter (first + feeds < ·.line) =
    ((Token.ofSource lead src).filter (last < ·.line)).map (Token.shifted (feeds - (last - first)))
  findingsAbove : (Finding.ofTokens (Token.ofSource lead edited)).filter (·.range.start.line < (first : Int)) =
    (Finding.ofTokens (Token.ofSource lead src)).filter (·.range.start.line < (first : Int))
  findingsBelow : (Finding.ofTokens (Token.ofSource lead edited)).filter
      (((first + feeds : Nat) : Int) < ·.range.start.line) =
    ((Finding.ofTokens (Token.ofSource lead src)).filter ((last : Int) < ·.range.start.line)).map
      (Finding.shifted (feeds - (last - first)))

/- The two texts have their first part up to one line and their last part from another line on in common. -/
theorem undisturbedBetween (lead : CommentLead) (left right old new : List Char) :
    Undisturbed lead (String.ofList (left ++ old ++ right)) (String.ofList (left ++ new ++ right))
      (Place.line left) (Place.line (left ++ old)) (Place.line new) := by
  obtain ⟨front, above⟩ := Token.scanFront lead left
  obtain ⟨back, below⟩ := Token.scanBack lead right
  have rows : ((Place.line (left ++ old) + 1 : Nat) : Int) +
      ((Place.line new : Int) - ((Place.line (left ++ old) : Nat) - (Place.line left : Nat))) =
      (Place.line left + Place.line new + 1 : Nat) := by
    omega
  have tokensAbove : (Token.scan lead 0 0 (left ++ new ++ right)).filter (·.line < Place.line left) =
      (Token.scan lead 0 0 (left ++ old ++ right)).filter (·.line < Place.line left) := by
    rw [List.append_assoc, List.append_assoc, above, above]
  have tokensBelow : (Token.scan lead 0 0 (left ++ new ++ right)).filter
      (Place.line left + Place.line new < ·.line) = back.map (Token.lower (Place.line left + Place.line new + 1)) := by
    rw [← Place.lineAppend]
    exact below (left ++ new)
  have oldBelow := below (left ++ old)
  refine ⟨?_, ?_, ?_, ?_⟩
  · simpa only [Token.ofSource, String.toList_ofList] using tokensAbove
  · simp only [Token.ofSource, String.toList_ofList]
    rw [tokensBelow, oldBelow, List.map_map]
    exact List.map_congr_left fun t _ => (Token.shiftedLower rows t).symm
  · simp only [Token.ofSource, String.toList_ofList]
    have same : ∀ t f, Finding.ofToken? t = some f →
        decide (f.range.start.line < (Place.line left : Int)) = decide (t.line < Place.line left) := by
      intro t f found
      simp [Finding.ofTokenLine found]
    rw [Finding.ofTokensFilter same, Finding.ofTokensFilter same, tokensAbove]
  · simp only [Token.ofSource, String.toList_ofList]
    have same (n : Nat) : ∀ t f, Finding.ofToken? t = some f →
        decide ((n : Int) < f.range.start.line) = decide (n < t.line) := by
      intro t f found
      simp [Finding.ofTokenLine found]
    rw [Finding.ofTokensFilter (same _), Finding.ofTokensFilter (same _), tokensBelow, oldBelow,
      Finding.ofTokensLower, Finding.ofTokensLower, List.map_map]
    exact List.map_congr_left fun f _ => (Finding.shiftedLower rows f).symm

theorem editUndisturbed (lead : CommentLead) {src text : String} {change : Json} {start stop : Change.Spot}
    (sent : Change.Sent change (.part start stop text))
    (ordered : Position.precedes ⟨start.line, start.character⟩ ⟨stop.line, stop.character⟩ = true)
    (inside : stop.line < (Text.lines src.toList).length) :
    ∃ edited : String, Edit.apply (.text src) change = .ok (.text edited) ∧
      Undisturbed lead src edited start.line stop.line (text.toList.count '\n') := by
  refine ⟨_, Change.applyPlain sent src, ?_⟩
  have order := Change.spotsOrdered ordered inside
  have above : start.line < (Text.lines src.toList).length := by
    rw [Place.precedesIff] at ordered
    simp only at ordered
    omega
  have begins := Change.spotLine above
  have ends := Change.spotLine inside
  obtain ⟨old, cut⟩ : src.toList.take (start.offset src.toList) <+: src.toList.take (stop.offset src.toList) :=
    List.take_prefix_take_left order
  have parts := undisturbedBetween lead (src.toList.take (start.offset src.toList))
    (src.toList.drop (stop.offset src.toList)) old text.toList
  rw [cut, List.take_append_drop, String.ofList_toList, begins, ends] at parts
  exact parts

/- A replacement with an open quote, a backslash at its line end and a comment lead, from inside a string to
past the end of the next line. -/
def quotedSource : String := "x 1.\nlet s = 'ab'\n-- c\n'y"

def quotedChange : Change := .part ⟨1, 9⟩ ⟨2, 40⟩ "\"\\\n\n--"

theorem quotedUndisturbed :
    Change.Sent quotedChange.toJson (.part ⟨1, 9⟩ ⟨2, 40⟩ "\"\\\n\n--") ∧
    Position.precedes ⟨1, 9⟩ ⟨2, 40⟩ = true ∧ 2 < (Text.lines quotedSource.toList).length ∧
    ∃ edited : String, Edit.apply (.text quotedSource) quotedChange.toJson = .ok (.text edited) ∧
      Undisturbed .dashes quotedSource edited 1 2 2 := by
  have sent := Change.toJsonSent quotedChange
  have inside : 2 < (Text.lines quotedSource.toList).length := by decide
  exact ⟨sent, rfl, inside, editUndisturbed .dashes sent rfl inside⟩

end LanguageService
