import LanguageService.Number.Integer
import LanguageService.Proofs.Text.Blank

/-! The decimal text of a number: it is made of digits, only that of zero starts with a zero, and
every reader of numerals reads it back. -/
namespace LanguageService.Number

theorem digitCode {c : Char} (digit : c.isDigit = true) : 48 ≤ c.toNat ∧ c.toNat ≤ 57 := by
  simpa [Char.isDigit, UInt32.le_iff_toNat_le] using digit

theorem naturalDigits (n : Nat) : ∀ c ∈ naturalText n, c.isDigit = true :=
  fun _ => Nat.isDigit_of_mem_toDigits (by decide) (by decide)

theorem naturalFilled (n : Nat) : naturalText n ≠ [] := Nat.toDigits_ne_nil

theorem naturalValue (n : Nat) : ofDigits (naturalText n) = n := by
  have read := Nat.ofDigitChars_ten_toDigits (n := n)
  rw [Nat.ofDigitChars_eq_foldl] at read
  simpa only [ofDigits, digitValue, naturalText, Nat.mul_comm] using read

theorem naturalLeads (n : Nat) (positive : 0 < n) : (naturalText n).head? ≠ some '0' := by
  induction n using Nat.strongRecOn with
  | ind n ih =>
    rw [naturalText, Nat.toDigits_eq_if (by decide)]
    split
    · rename_i small
      have digits : ∀ d < 10, 0 < d → some (Nat.digitChar d) ≠ some '0' := by decide
      exact digits n small positive
    · have shorter := ih (n / 10) (by omega) (by omega)
      obtain ⟨c, rest, same⟩ := List.exists_cons_of_ne_nil (naturalFilled (n / 10))
      rw [same] at shorter
      rw [← naturalText, same]
      exact shorter

theorem naturalZero : naturalText 0 = ['0'] := Nat.toDigits_zero 10

theorem decimalDigit {c : Char} (digit : c.isDigit = true) :
    Text.decimalValue? c = some (digitValue c) := by
  have code := digitCode digit
  have found : Text.zeros.find? (fun z => z ≤ c.toNat && c.toNat < z + 10) = some 0x30 := by
    unfold Text.zeros
    refine List.find?_cons_of_pos ?_
    simp only [Bool.and_eq_true, decide_eq_true_eq]
    omega
  rw [Text.decimalValue?, found]
  rfl

theorem digitRunDigits {digits : List Char} (all : ∀ c ∈ digits, c.isDigit = true) (filled : digits ≠ []) :
    digitRun? digits = some (digits.map digitValue) := by
  induction digits with
  | nil => exact absurd rfl filled
  | cons c rest ih =>
    obtain ⟨first, others⟩ := List.forall_mem_cons.mp all
    cases rest with
    | nil => rw [digitRun?, decimalDigit first]; rfl
    | cons d rest =>
      have plain : d ≠ '_' := by
        rintro rfl
        exact absurd (others _ List.mem_cons_self) (by decide)
      have tail := ih others (by simp)
      rw [digitRun?]
      · rw [decimalDigit first, tail]
        rfl
      · simp
      · rintro more same
        exact plain (List.cons.inj same).1

theorem blankDigit {c : Char} (digit : c.isDigit = true) : Text.isBlank c = false := by
  have code := digitCode digit
  simp only [Text.isBlank]
  grind

theorem marginDigit {c : Char} (digit : c.isDigit = true) : isMargin c = false := by
  rw [isMargin, blankDigit digit, Bool.false_and]

theorem signDigits {digits : List Char} (all : ∀ c ∈ digits, c.isDigit = true) :
    sign digits = (false, digits) := by
  cases digits with
  | nil => rfl
  | cons c rest =>
    have first := all c List.mem_cons_self
    unfold sign
    split
    · rename_i same
      cases same
      exact absurd first (by decide)
    · rename_i same
      cases same
      exact absurd first (by decide)
    · rfl

theorem integerDigits {digits : List Char} (all : ∀ c ∈ digits, c.isDigit = true) (filled : digits ≠ []) :
    integer? digits = some (ofDigits digits : Int) := by
  have bare : withoutMargins digits = digits := by
    have kept := Text.strip isMargin [] digits [] (by simp)
      filled (fun c head => marginDigit (all c (List.mem_of_head? head)))
      (fun c last => marginDigit (all c (List.mem_of_getLast? last))) (by simp)
    rwa [List.append_nil] at kept
  simp only [integer?, bare, signDigits all, digitRunDigits all filled, Option.map_some, List.foldl_map,
    Double.signed]
  rfl

end LanguageService.Number
