import LanguageService.Text.Basic

/-! Texts and their points. A text is its points, and it is plain when none of them is half of a pair. -/
namespace LanguageService.Text

theorem halvesPlain (s : String) : (plain s).points.any Point.isHalf = false := by
  simp [points]

theorem halved (t : Text) : t.points.any Point.isHalf = !t.isPlain := by
  cases t with
  | plain s => exact halvesPlain s
  | rough points halved => exact halved

theorem plainText {t : Text} (whole : t.isPlain = true) : ∃ s, t = plain s := by
  cases t with
  | plain s => exact ⟨s, rfl⟩
  | rough points halved => cases whole

theorem ofPointsRough {points : List Point} (halved : points.any Point.isHalf = true) :
    ofPoints points = rough points halved := dif_pos halved

theorem ofPointsPlain {points : List Point} (whole : points.any Point.isHalf = false) :
    ofPoints points = plain (String.ofList (points.map Point.shown)) := dif_neg (by simp [whole])

theorem unencodableNone {points : List Point} :
    (ofPoints points).unencodable? = none ↔ points.any Point.isHalf = false := by
  cases halved : points.any Point.isHalf with
  | true => simp [ofPointsRough halved, unencodable?]
  | false => simp [ofPointsPlain halved, unencodable?]

theorem pointsOfPoints (points : List Point) : (ofPoints points).points = points := by
  cases halved : points.any Point.isHalf with
  | true => rw [ofPointsRough halved]; rfl
  | false =>
    have whole : ∀ point ∈ points, Point.char point.shown = point := by
      intro point held
      cases point with
      | char c => rfl
      | half n => exact absurd rfl (List.any_eq_false.mp halved _ held)
    rw [ofPointsPlain halved, Text.points, String.toList_ofList, List.map_map]
    exact List.map_congr_left whole |>.trans (List.map_id points)

theorem ofPointsPoints (t : Text) : ofPoints t.points = t := by
  cases t with
  | plain s => rw [points, ofCharsPlain, String.ofList_toList]
  | rough points halved => exact ofPointsRough halved

@[simp] theorem pointsAppend (s t : Text) : (s ++ t).points = s.points ++ t.points := by
  match s, t with
  | plain s, plain t => simp [points, String.toList_append]
  | plain s, rough points halved => exact pointsOfPoints _
  | rough points halved, t => exact pointsOfPoints _

theorem shownPoints (t : Text) : t.shown.toList = t.points.map Point.shown := by
  cases t with
  | plain s => simp [shown, points, Function.comp_def]
  | rough points halved => exact String.toList_ofList

end LanguageService.Text
