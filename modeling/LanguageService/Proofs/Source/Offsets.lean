import LanguageService.Proofs.Source.Elsewhere
import Mathlib.Data.Set.Function

/-! Offsets of places. The places of a text are those behind its parts, and the offset of such a place is the
length of the part. Every other place is clamped to one of them, and the order of places is kept, so that a
range cuts the text in three wherever its ends are. -/
namespace LanguageService.Change
open Text (Point)

def Spot.position (spot : Spot) : Position := ⟨spot.line, spot.character⟩

def Spot.behind (before : List Char) : Spot := ⟨Place.line before, Place.column before⟩

def Spot.Inside (spot : Spot) (src : List Char) : Prop :=
  ∃ row, (Text.lines src)[spot.line]? = some row ∧ spot.character ≤ row.length

/- A place past the end of its line is clamped to the end of the line, and one past the last line to the end
of the text. -/
def Spot.clamped (spot : Spot) (src : List Char) : Spot :=
  match (Text.lines src)[spot.line]? with
  | some row => ⟨spot.line, min spot.character row.length⟩
  | none => .behind src

theorem behindOffset (before rest : List Char) :
    (Spot.behind before).offset (before ++ rest) = before.length := by
  have place := Place.offsetOfText before rest
  have read := spotOffset (.behind before) (before ++ rest)
  exact Int.ofNat.inj (Option.some.inj (read.symm.trans place))

theorem behindInside (before rest : List Char) : (Spot.behind before).Inside (before ++ rest) := by
  refine ⟨_, Place.linesRow before rest, ?_⟩
  rw [List.length_append]
  exact Nat.le_add_right _ _

/- A line with what stands above it and from its end on. -/
structure Row (src : List Char) (n : Nat) (above row below : List Char) : Prop where
  text : src = above ++ (row ++ below)
  line : Place.line above = n
  starts : Place.column above = 0
  whole : '\n' ∉ row
  stops : ∀ c, below.head? = some c → c = '\n'

theorem rowExists {src row : List Char} {n : Nat} (found : (Text.lines src)[n]? = some row) :
    ∃ above below, Row src n above row below := by
  obtain ⟨inside, _⟩ := List.getElem?_eq_some_iff.mp found
  obtain ⟨above, rest, rfl, rfl, starts⟩ := Place.lineStarts inside
  have bare : Place.row above = [] := List.eq_nil_of_length_eq_zero starts
  rw [Place.linesRow, bare, List.nil_append] at found
  cases found
  refine ⟨above, rest.dropWhile (· != '\n'), ?_, rfl, starts, ?_, ?_⟩
  · rw [List.takeWhile_append_dropWhile]
  · intro member
    have kept := List.mem_takeWhile_imp member
    simp at kept
  · intro c head
    simpa using Token.dropWhileStops (· != '\n') rest c head

theorem Row.offset {src above row below : List Char} {spot : Spot} (lies : Row src spot.line above row below) :
    spot.offset src = above.length + min spot.character row.length := by
  have kept : ∀ c ∈ row, (c != '\n') = true := by
    intro c member
    exact bne_iff_ne.mpr fun same => lies.whole (same ▸ member)
  have taken : (row ++ below).takeWhile (· != '\n') = row := by
    refine Text.takeFront kept fun c head => ?_
    simpa using lies.stops c head
  have here := offsetOnLine lies.starts (row ++ below) spot.character
  rw [taken, lies.line, ← lies.text] at here
  exact here

theorem offsetPast {src : List Char} {spot : Spot} (past : (Text.lines src).length ≤ spot.line) :
    spot.offset src = src.length := by
  rw [Spot.offset]
  exact if_pos past

/- Where a place is clamped to, as the part of the text that ends there. -/
theorem clampedBehind (spot : Spot) (src : List Char) :
    ∃ before rest, src = before ++ rest ∧ spot.clamped src = .behind before ∧ spot.offset src = before.length := by
  cases found : (Text.lines src)[spot.line]? with
  | none =>
    have place : spot.clamped src = .behind src := by rw [Spot.clamped, found]
    exact ⟨src, [], (List.append_nil src).symm, place, offsetPast (List.getElem?_eq_none_iff.mp found)⟩
  | some row =>
    obtain ⟨above, below, lies⟩ := rowExists found
    have place : spot.clamped src = ⟨spot.line, min spot.character row.length⟩ := by rw [Spot.clamped, found]
    have whole : '\n' ∉ row.take spot.character := fun member => lies.whole (List.mem_of_mem_take member)
    refine ⟨above ++ row.take spot.character, row.drop spot.character ++ below, ?_, ?_, ?_⟩
    · rw [List.append_assoc, ← List.append_assoc (row.take _), List.take_append_drop]
      exact lies.text
    · rw [place, Spot.behind, Place.lineAppend, Place.lineWhole whole, Place.columnAppend whole, lies.line,
        lies.starts, List.length_take, Nat.add_zero, Nat.zero_add]
    · rw [lies.offset, List.length_append, List.length_take]

theorem offsetBounded (spot : Spot) (src : List Char) : spot.offset src ≤ src.length := by
  obtain ⟨before, rest, same, _, size⟩ := clampedBehind spot src
  rw [size, same, List.length_append]
  exact Nat.le_add_right _ _

theorem clampedOffset (spot : Spot) (src : List Char) : (spot.clamped src).offset src = spot.offset src := by
  obtain ⟨before, rest, rfl, place, size⟩ := clampedBehind spot src
  rw [place, size, behindOffset]

theorem insideClamped {spot : Spot} {src : List Char} (inside : spot.Inside src) : spot.clamped src = spot := by
  obtain ⟨row, found, short⟩ := inside
  rw [Spot.clamped, found]
  exact congrArg (Spot.mk spot.line) (Nat.min_eq_left short)

theorem offsetOrdered {src : List Char} {start stop : Spot}
    (ordered : start.position.precedes stop.position = true) : start.offset src ≤ stop.offset src := by
  by_cases inside : stop.line < (Text.lines src).length
  · exact spotsOrdered ordered inside
  · rw [offsetPast (Nat.le_of_not_lt inside)]
    exact offsetBounded start src

theorem offsetBijective (src : List Char) :
    Set.BijOn (fun spot : Spot => spot.offset src) {spot | spot.Inside src} {n | n ≤ src.length} := by
  refine ⟨fun spot _ => offsetBounded spot src, ?_, ?_⟩
  · intro first inside second inside' same
    obtain ⟨before, rest, cut, place, size⟩ := clampedBehind first src
    obtain ⟨before', rest', cut', place', size'⟩ := clampedBehind second src
    have parts := List.append_inj (cut.symm.trans cut') (size.symm.trans (same.trans size'))
    rw [← insideClamped inside, ← insideClamped inside', place, place', parts.1]
  · intro n within
    have inside := behindInside (src.take n) (src.drop n)
    have offset := behindOffset (src.take n) (src.drop n)
    rw [List.take_append_drop] at inside offset
    exact ⟨.behind (src.take n), inside, offset.trans (List.length_take_of_le within)⟩

theorem behindShown (before rest : List Point) :
    (Spot.behind (shown before)).offset (shown (before ++ rest)) = before.length := by
  have parts : shown (before ++ rest) = shown before ++ shown rest := List.map_append
  rw [parts, behindOffset, List.length_map]

/- A text cut in three at the places that two ends of a range are clamped to. -/
structure Parted (src : List Point) (start stop : Spot) (pre mid post : List Point) : Prop where
  text : src = pre ++ (mid ++ post)
  starts : .behind (shown pre) = start.clamped (shown src)
  stops : .behind (shown (pre ++ mid)) = stop.clamped (shown src)

section Parted
variable {src pre mid post : List Point} {start stop : Spot} (parted : Parted src start stop pre mid post)
include parted

theorem Parted.startOffset : start.offset (shown src) = pre.length := by
  rw [← clampedOffset, ← parted.starts, parted.text, behindShown]

theorem Parted.stopOffset : stop.offset (shown src) = pre.length + mid.length := by
  rw [← clampedOffset, ← parted.stops, parted.text, ← List.append_assoc, behindShown, List.length_append]

theorem Parted.unique {pre' mid' post' : List Point} (other : Parted src start stop pre' mid' post') :
    pre' = pre ∧ mid' = mid ∧ post' = post := by
  have first := other.startOffset.symm.trans parted.startOffset
  have second := other.stopOffset.symm.trans parted.stopOffset
  obtain ⟨front, tail⟩ := List.append_inj (other.text.symm.trans parted.text) first
  exact ⟨front, List.append_inj tail (by omega)⟩

theorem Parted.apply (text : Text) :
    Change.apply src (.part start stop text) = pre ++ text.points ++ post := by
  have before : src.take pre.length = pre := by rw [parted.text, List.take_left]
  have behind : src.drop (pre.length + mid.length) = post := by
    rw [parted.text, ← List.append_assoc, ← List.length_append, List.drop_left]
  rw [Change.apply, parted.startOffset, parted.stopOffset, before, behind]

end Parted

/- The part of a text in front of a place. -/
theorem clampedTake (spot : Spot) (src : List Point) :
    .behind (shown (src.take (spot.offset (shown src)))) = spot.clamped (shown src) := by
  obtain ⟨before, rest, cut, place, size⟩ := clampedBehind spot (shown src)
  have taken : shown (src.take before.length) = (shown src).take before.length := List.map_take
  rw [place, size, taken, cut, List.take_left]

theorem partedExists {src : List Point} {start stop : Spot}
    (ordered : start.position.precedes stop.position = true) : ∃ pre mid post, Parted src start stop pre mid post := by
  obtain ⟨mid, cut⟩ : src.take (start.offset (shown src)) <+: src.take (stop.offset (shown src)) :=
    List.take_prefix_take_left (offsetOrdered ordered)
  refine ⟨_, mid, src.drop (stop.offset (shown src)), ?_, clampedTake start src, ?_⟩
  · rw [← List.append_assoc, cut, List.take_append_drop]
  · rw [cut]
    exact clampedTake stop src

/- What the offsets of a text are to be, for every line and character. -/
structure Offsets (src : Text) (offset : Spot → Nat) : Prop where
  found : ∀ spot, Edit.offset? src.shown.toList spot.line spot.character = some (offset spot : Int)
  bounded : ∀ spot, offset spot ≤ src.points.length
  ordered : ∀ start stop, start.position.precedes stop.position = true → offset start ≤ offset stop
  past : ∀ spot, (Text.lines (shown src.points)).length ≤ spot.line → offset spot = src.points.length
  onLine : ∀ spot row, (Text.lines (shown src.points))[spot.line]? = some row →
    ∃ above below, Row (shown src.points) spot.line above row below ∧
      offset spot = above.length + min spot.character row.length
  onto : Set.BijOn offset {spot | spot.Inside (shown src.points)} {n | n ≤ src.points.length}
  parts : ∀ start stop, start.position.precedes stop.position = true →
    ∃ pre mid post, Parted src.points start stop pre mid post ∧
      (∀ pre' mid' post', Parted src.points start stop pre' mid' post' → pre' = pre ∧ mid' = mid ∧ post' = post) ∧
      offset start = pre.length ∧ offset stop = pre.length + mid.length ∧
      ∀ value text, Sent value (.part start stop text) →
        Edit.apply (.text src) value = .ok (.text (.ofPoints (pre ++ text.points ++ post)))

theorem offsetsClamped (src : Text) : Offsets src fun spot => spot.offset (shown src.points) := by
  have size : (shown src.points).length = src.points.length := List.length_map _
  refine {
    found := fun spot => Text.shownPoints src ▸ spotOffset spot (shown src.points)
    bounded := fun spot => size ▸ offsetBounded spot (shown src.points)
    ordered := fun _ _ => offsetOrdered
    past := fun spot beyond => size ▸ offsetPast beyond
    onLine := fun spot row found => ?_
    onto := size ▸ offsetBijective (shown src.points)
    parts := fun start stop ordered => ?_ }
  · obtain ⟨above, below, lies⟩ := rowExists found
    exact ⟨above, below, lies, lies.offset⟩
  · obtain ⟨pre, mid, post, parted⟩ := partedExists ordered
    refine ⟨pre, mid, post, parted, fun _ _ _ => parted.unique, parted.startOffset, parted.stopOffset, ?_⟩
    intro value text sent
    rw [applySent sent, parted.apply]

/- From past the end of the first line to past the last line, over an empty one; the text begins with half of
a pair. -/
def farText : Text := .ofPoints (.ofUnit 0xD800 :: "b\n\ncd".toList.map .char)

theorem farRangeReplaced :
    Parted farText.points ⟨0, 7⟩ ⟨9, 1⟩ [.ofUnit 0xD800, .char 'b'] ("\n\ncd".toList.map .char) [] ∧
    Edit.apply (.text farText) (part ⟨0, 7⟩ ⟨9, 1⟩ "x").toJson =
      .ok (.text (.ofPoints [.ofUnit 0xD800, .char 'b', .char 'x'])) := by
  have parted : Parted farText.points ⟨0, 7⟩ ⟨9, 1⟩ [.ofUnit 0xD800, .char 'b'] ("\n\ncd".toList.map .char) [] :=
    ⟨rfl, rfl, rfl⟩
  obtain ⟨pre, mid, post, _, unique, _, _, edits⟩ := (offsetsClamped farText).parts ⟨0, 7⟩ ⟨9, 1⟩ (by decide)
  obtain ⟨rfl, rfl, rfl⟩ := unique _ _ _ parted
  exact ⟨parted, edits _ "x" (toJsonSent _)⟩

end LanguageService.Change
