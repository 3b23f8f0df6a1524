import LanguageService.Json.Printer
import LanguageService.Proofs.Text.Points

/-! Which values can be written. Printing keeps every half of a pair and makes none, so a value has bytes
when all texts and names in it are plain. -/
namespace LanguageService.Json
open Text (Point)

mutual
def isScalar : Json → Bool
  | .text s => s.isPlain
  | .list items => itemsScalar items
  | .object members => membersScalar members
  | _ => true

def itemsScalar : List Json → Bool
  | [] => true
  | v :: rest => isScalar v && itemsScalar rest

def membersScalar : List (Text × Json) → Bool
  | [] => true
  | (name, v) :: rest => name.isPlain && isScalar v && membersScalar rest
end

theorem halvesChars (cs : List Char) : (chars cs).any Point.isHalf = false := by
  simp [chars]

theorem halvesEscaped (point : Point) : (escapedPoint point).any Point.isHalf = point.isHalf := by
  cases point with
  | char c => exact halvesChars (escapedChar c)
  | half n => rfl

theorem halvesString (s : Text) : (stringPoints s).any Point.isHalf = !s.isPlain := by
  rw [← s.halved]
  simp [stringPoints, List.any_flatMap, halvesEscaped]

mutual
theorem halvesRendered : ∀ v : Json, (renderPoints v).any Point.isHalf = !isScalar v
  | .null => rfl
  | .bool b => halvesChars _
  | .int n => halvesChars _
  | .real x => halvesChars _
  | .text s => halvesString s
  | .list items => by simp [renderPoints, isScalar, halvesItems items]
  | .object members => by simp [renderPoints, isScalar, halvesMembers members]

theorem halvesItems : ∀ items : List Json, (renderItems items).any Point.isHalf = !itemsScalar items
  | [] => rfl
  | [v] => by simp [renderItems, itemsScalar, halvesRendered v]
  | v :: w :: rest => by
    rw [renderItems, itemsScalar, List.any_append, List.any_append, halvesRendered v, halvesChars,
      halvesItems (w :: rest), Bool.or_false, Bool.not_and]

theorem halvesMembers : ∀ members : List (Text × Json),
    (renderMembers members).any Point.isHalf = !membersScalar members
  | [] => rfl
  | [(name, v)] => by simp [renderMembers, membersScalar, halvesString, halvesChars, halvesRendered v]
  | (name, v) :: m :: rest => by
    rw [renderMembers, membersScalar, List.any_append, List.any_append, List.any_append, List.any_append,
      halvesString, halvesRendered v, halvesChars, halvesChars, halvesMembers (m :: rest), Bool.or_false,
      Bool.or_false, Bool.not_and, Bool.not_and]
end

theorem writableIff {v : Json} : v.render.unencodable? = none ↔ v.isScalar = true := by
  rw [render, Text.unencodableNone, halvesRendered, Bool.not_eq_false']

theorem unwritable {v : Json} (rough : v.isScalar = false) :
    v.render.unencodable? = some (.ofPoints v.renderPoints) := by
  have halved : v.renderPoints.any Point.isHalf = true := by rw [halvesRendered, rough, Bool.not_false]
  rw [render, Text.ofPointsRough halved, Text.unencodable?]

theorem itemsScalarIff {items : List Json} : itemsScalar items = true ↔ ∀ v ∈ items, v.isScalar = true := by
  induction items with
  | nil => simp [itemsScalar]
  | cons v rest ih => simp [itemsScalar, ih]

theorem membersScalarIff {members : List (Text × Json)} :
    membersScalar members = true ↔ ∀ m ∈ members, m.1.isPlain = true ∧ m.2.isScalar = true := by
  induction members with
  | nil => simp [membersScalar]
  | cons m rest ih => simp [membersScalar, ih]

end LanguageService.Json
