import LanguageService.Text.Lines

/-! The parts of a text between separators. -/
namespace LanguageService.Text
variable {separator : Char}

theorem splitFilled (separator : Char) (cs : List Char) : split separator cs ≠ [] := by
  fun_cases split separator cs <;> simp

theorem splitSeparator (separator : Char) (above below : List Char) :
    split separator (above ++ separator :: below) = split separator above ++ split separator below := by
  induction above with
  | nil => simp [split]
  | cons c rest ih =>
    by_cases ends : c = separator
    · simp [split, ends, ih]
    · cases parts : split separator rest with
      | nil => exact absurd parts (splitFilled separator rest)
      | cons part others => simp [split, ends, ih, parts]

theorem splitWhole {part : List Char} (whole : separator ∉ part) : split separator part = [part] := by
  induction part with
  | nil => rfl
  | cons c rest ih =>
    obtain ⟨goes, whole⟩ := List.ne_and_not_mem_of_not_mem_cons whole
    rw [split, if_neg (Ne.symm goes), ih whole]

theorem splitParts {cs part : List Char} (member : part ∈ split separator cs) : separator ∉ part := by
  induction cs generalizing part with
  | nil => simp_all [split]
  | cons c rest ih =>
    by_cases ends : c = separator
    · rw [split, if_pos ends] at member
      rcases List.mem_cons.mp member with rfl | inside
      · exact List.not_mem_nil
      · exact ih inside
    · cases parts : split separator rest with
      | nil => exact absurd parts (splitFilled separator rest)
      | cons first others =>
        rw [parts] at ih
        rw [split, if_neg ends, parts] at member
        rcases List.mem_cons.mp member with rfl | inside
        · have before := ih List.mem_cons_self
          simp [before, Ne.symm ends]
        · exact ih (List.mem_cons_of_mem first inside)

end LanguageService.Text
