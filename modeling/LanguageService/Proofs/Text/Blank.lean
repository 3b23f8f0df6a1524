import LanguageService.Text.Character

/-! Dropping what stands at both ends of a text. -/
namespace LanguageService.Text

theorem dropFront {p : Char → Bool} {front rest : List Char} (before : ∀ c ∈ front, p c = true)
    (first : ∀ c, rest.head? = some c → p c = false) : (front ++ rest).dropWhile p = rest := by
  rw [List.dropWhile_append_of_pos before]
  cases rest with
  | nil => rfl
  | cons c rest => exact List.dropWhile_cons_of_neg (by simp [first c rfl])

theorem takeFront {p : Char → Bool} {front rest : List Char} (before : ∀ c ∈ front, p c = true)
    (first : ∀ c, rest.head? = some c → p c = false) : (front ++ rest).takeWhile p = front := by
  rw [List.takeWhile_append_of_pos before]
  cases rest with
  | nil => simp
  | cons c rest => simp [first c rfl]

theorem strip (p : Char → Bool) (front core back : List Char) (before : ∀ c ∈ front, p c = true)
    (filled : core ≠ []) (first : ∀ c, core.head? = some c → p c = false)
    (last : ∀ c, core.getLast? = some c → p c = false) (behind : ∀ c ∈ back, p c = true) :
    (((front ++ (core ++ back)).dropWhile p).reverse.dropWhile p).reverse = core := by
  have starts : ∀ c, (core ++ back).head? = some c → p c = false := by
    obtain ⟨c, more, rfl⟩ := List.exists_cons_of_ne_nil filled
    exact first
  rw [dropFront before starts, List.reverse_append,
    dropFront (by simpa using behind) (by simpa using last), List.reverse_reverse]

theorem trimEnds (front core back : List Char) (before : ∀ c ∈ front, isBlank c = true)
    (filled : core ≠ []) (first : ∀ c, core.head? = some c → isBlank c = false)
    (last : ∀ c, core.getLast? = some c → isBlank c = false) (behind : ∀ c ∈ back, isBlank c = true) :
    trim (front ++ (core ++ back)) = core :=
  strip isBlank front core back before filled first last behind

def Blank (cs : List Char) : Prop := ∀ c ∈ cs, isBlank c = true

instance (cs : List Char) : Decidable (Blank cs) :=
  decidable_of_iff (cs.all isBlank = true) List.all_eq_true

theorem trimBlank {cs : List Char} (blank : Blank cs) : trim cs = [] := by
  have front : (cs ++ []).dropWhile isBlank = [] := dropFront blank (by simp)
  rw [List.append_nil] at front
  rw [trim, front]
  rfl

theorem blankTail (cs : List Char) : ∃ kept tail, cs = kept ++ tail ∧ Blank tail ∧
    kept = (cs.reverse.dropWhile isBlank).reverse ∧ ∀ c, kept.getLast? = some c → isBlank c = false := by
  have cut := congrArg List.reverse (List.takeWhile_append_dropWhile (p := isBlank) (l := cs.reverse))
  rw [List.reverse_append, List.reverse_reverse] at cut
  refine ⟨_, (cs.reverse.takeWhile isBlank).reverse, cut.symm, ?_, rfl, ?_⟩
  · intro c member
    exact List.all_eq_true.mp List.all_takeWhile c (List.mem_reverse.mp member)
  · intro c last
    rw [List.getLast?_reverse] at last
    have stops := List.head?_dropWhile_not isBlank cs.reverse
    rw [last] at stops
    simpa using stops

/- What is dropped at both ends is blank. -/
theorem trimCut (cs : List Char) : ∃ front back, cs = front ++ (trim cs ++ back) ∧ Blank front ∧ Blank back := by
  have front := List.takeWhile_append_dropWhile (p := isBlank) (l := cs)
  obtain ⟨kept, tail, cut, behind, shape, _⟩ := blankTail (cs.dropWhile isBlank)
  refine ⟨cs.takeWhile isBlank, tail, ?_, List.all_eq_true.mp List.all_takeWhile, behind⟩
  rw [trim, ← shape, ← cut, front]

theorem trimNil {cs : List Char} : trim cs = [] ↔ Blank cs := by
  refine ⟨fun none => ?_, trimBlank⟩
  obtain ⟨front, back, cut, before, behind⟩ := trimCut cs
  rw [cut, none]
  exact List.forall_mem_append.mpr ⟨before, behind⟩

theorem trimTail (cs : List Char) {tail : List Char} (blank : Blank tail) : trim (cs ++ tail) = trim cs := by
  rw [trim, trim, List.dropWhile_append]
  split
  · rename_i none
    have left := trimBlank blank
    rw [trim] at left
    rw [left, List.isEmpty_iff.mp none]
    rfl
  · rw [List.reverse_append, List.dropWhile_append_of_pos]
    intro c member
    exact blank c (List.mem_reverse.mp member)

end LanguageService.Text
