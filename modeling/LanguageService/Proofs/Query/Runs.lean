import LanguageService.Proofs.Language.Grammar

/-! Runs of word characters on a line. The word at a cursor is the run that the cursor is in or right behind;
there is one exactly where a word character stands at the cursor or just before it, and then it is the only
run that reaches the cursor. -/
namespace LanguageService.Token

/- The word characters at the end of a text, which a word behind it goes on with. -/
def front (left : List Char) : List Char := left.rtakeWhile isWordChar

theorem frontChars (left : List Char) : ∀ c ∈ front left, isWordChar c = true :=
  fun _ => List.mem_rtakeWhile_imp

theorem frontCut (left : List Char) :
    ∃ before, left = before ++ front left ∧ ∀ c, before.getLast? = some c → isWordChar c = false := by
  induction left using List.reverseRecOn with
  | nil => exact ⟨[], rfl, by simp⟩
  | append_singleton left d ih =>
    obtain ⟨before, cut, stops⟩ := ih
    cases char : isWordChar d with
    | true =>
      refine ⟨before, ?_, stops⟩
      rw [front, List.rtakeWhile_concat_pos _ _ _ char, ← front, ← List.append_assoc, ← cut]
    | false =>
      refine ⟨left ++ [d], ?_, by simp [char]⟩
      rw [front, List.rtakeWhile_concat_neg _ _ _ (by simp [char]), List.append_nil]

end LanguageService.Token

namespace LanguageService.Word
open Token (isWordChar Next front)

def isWordAt (row : List Char) (i : Int) : Bool := 0 ≤ i && row[i.toNat]?.any isWordChar

structure Run (line : List Char) (start stop : Int) : Prop where
  filled : start < stop
  chars : ∀ i, start ≤ i → i < stop → isWordAt line i = true
  before : isWordAt line (start - 1) = false
  behind : isWordAt line stop = false

def Reaches (start stop character : Int) : Prop := start ≤ character ∧ character ≤ stop

theorem wordAtBefore (left rest : List Char) :
    isWordAt (left ++ rest) (left.length - 1) = left.getLast?.any isWordChar := by
  cases left with
  | nil => rfl
  | cons c left =>
    have last : ((c :: left).length - 1 : Int) = (left.length : Nat) := by simp
    rw [last, isWordAt, Int.toNat_natCast, List.getElem?_append_left (by simp), List.getLast?_eq_getElem?]
    simp

theorem wordAtBehind (left rest : List Char) (k : Nat) :
    isWordAt (left ++ rest) (left.length + k : Nat) = rest[k]?.any isWordChar := by
  rw [isWordAt, Int.toNat_natCast, List.getElem?_append_right (Nat.le_add_right _ _), Nat.add_sub_cancel_left,
    decide_eq_true (Int.natCast_nonneg _), Bool.true_and]

theorem Run.touches {line : List Char} {start stop character : Int} (run : Run line start stop)
    (reaches : Reaches start stop character) :
    isWordAt line character = true ∨ isWordAt line (character - 1) = true := by
  obtain ⟨least, most⟩ := reaches
  have filled := run.filled
  by_cases inside : character < stop
  · exact .inl (run.chars character least inside)
  · exact .inr (run.chars (character - 1) (by omega) (by omega))

theorem runUnique {line : List Char} {start stop start' stop' character : Int} (run : Run line start stop)
    (reaches : Reaches start stop character) (run' : Run line start' stop')
    (reaches' : Reaches start' stop' character) : start = start' ∧ stop = stop' := by
  -- where one of them started or stopped inside the other, a word character would stand just outside it
  have later {a b c d : Int} (one : Run line a b) (first : Reaches a b character) (two : Run line c d)
      (second : Reaches c d character) : ¬ a < c ∧ ¬ b < d := by
    obtain ⟨_, reach⟩ := first
    obtain ⟨reach', _⟩ := second
    refine ⟨fun less => ?_, fun less => ?_⟩
    · have inside := one.chars (c - 1) (by omega) (by omega)
      exact Bool.false_ne_true (two.before.symm.trans inside)
    · have inside := two.chars b (by omega) (by omega)
      exact Bool.false_ne_true (one.behind.symm.trans inside)
  have forth := later run reaches run' reaches'
  have back := later run' reaches' run reaches
  omega

/- A line cut around an offset: the word characters that the offset is among or next to, all of them. -/
structure Around (line : List Char) (i : Nat) (left word right : List Char) : Prop where
  text : line = left ++ (word ++ right)
  start : left.length ≤ i
  stop : i ≤ left.length + word.length
  before : ∀ c, left.getLast? = some c → isWordChar c = false
  chars : ∀ c ∈ word, isWordChar c = true
  behind : Next (isWordChar · = false) right

theorem aroundExists {line : List Char} {i : Nat} (inside : i ≤ line.length) :
    ∃ left word right, Around line i left word right := by
  obtain ⟨left, cut, stops⟩ := Token.frontCut (line.take i)
  obtain ⟨run, right, ahead, all, ends⟩ := Token.runCut isWordChar (line.drop i)
  have size : i = left.length + (front (line.take i)).length := by
    rw [← List.length_append, ← cut, List.length_take_of_le inside]
  refine ⟨left, front (line.take i) ++ run, right, ?_, by omega, ?_, stops, ?_, ends⟩
  · rw [List.append_assoc, ← ahead, ← List.append_assoc, ← cut, List.take_append_drop]
  · rw [List.length_append]
    omega
  · exact List.forall_mem_append.mpr ⟨Token.frontChars _, all⟩

section Around
variable {line left word right : List Char} {i : Nat} (around : Around line i left word right)
include around

/- The search goes back to the start of the word and on to its end. -/
theorem Around.bounds (inside : i < line.length) :
    bounds? line i = if word = [] then none else some (left.length, left.length + word.length) := by
  obtain ⟨rfl, start, stop, before, chars, behind⟩ := around
  obtain ⟨k, rfl⟩ : ∃ k, i = left.length + k := ⟨i - left.length, by omega⟩
  have within : k ≤ word.length := by omega
  have bounded : ¬ (((left.length + k : Nat) : Int) < 0 ∨
      ((left ++ (word ++ right)).length : Int) ≤ (left.length + k : Nat)) := by omega
  have back : ((left ++ (word ++ right)).take (left.length + k)).reverse.takeWhile isWordChar =
      (word.take k).reverse := by
    rw [List.take_length_add_append, List.take_append_of_le_length within, List.reverse_append]
    refine Text.takeFront (fun c member => ?_) (fun c head => before c (by simpa using head))
    exact chars c (List.mem_of_mem_take (List.mem_reverse.mp member))
  have ahead : ((left ++ (word ++ right)).drop (left.length + k)).takeWhile isWordChar = word.drop k := by
    rw [List.drop_length_add_append, List.drop_append_of_le_length within]
    exact Text.takeFront (fun c member => chars c (List.mem_of_mem_drop member)) behind
  have first : left.length + k - min k word.length = left.length := by omega
  have last : left.length + k + (word.length - k) = left.length + word.length := by omega
  have same : (left.length = left.length + word.length) = (word = []) := by
    rw [← List.length_eq_zero_iff, Nat.left_eq_add]
  simp only [bounds?, if_neg bounded, Int.toNat_natCast, back, ahead, List.length_reverse, List.length_take,
    List.length_drop, first, last, same]

theorem Around.run (filled : word ≠ []) : Run line left.length (left.length + word.length : Nat) := by
  obtain ⟨rfl, _, _, before, chars, behind⟩ := around
  refine ⟨?_, fun j least most => ?_, ?_, ?_⟩
  · have size := List.length_pos_iff.mpr filled
    omega
  · obtain ⟨k, rfl⟩ : ∃ k : Nat, j = (left.length + k : Nat) := ⟨(j - left.length).toNat, by omega⟩
    have within : k < word.length := by omega
    rw [wordAtBehind, List.getElem?_append_left within, List.getElem?_eq_getElem within]
    exact chars _ (List.getElem_mem within)
  · rw [wordAtBefore, Option.any_eq_false]
    simpa using before
  · rw [wordAtBehind, List.getElem?_append_right (Nat.le_refl _), Nat.sub_self, ← List.head?_eq_getElem?,
      Option.any_eq_false]
    intro c head
    simp [behind c head]

theorem Around.reaches : Reaches left.length (left.length + word.length : Nat) i :=
  ⟨Int.ofNat_le.mpr around.start, Int.ofNat_le.mpr around.stop⟩

theorem Around.filled : word ≠ [] ↔ isWordAt line i = true ∨ isWordAt line (i - 1) = true := by
  constructor
  · intro filled
    exact (around.run filled).touches around.reaches
  · rintro here rfl
    obtain ⟨rfl, start, stop, before, _, behind⟩ := around
    obtain rfl : i = left.length := by simpa using Nat.le_antisymm stop start
    have ahead := wordAtBehind left right 0
    rw [Nat.add_zero] at ahead
    rw [List.nil_append, ahead, wordAtBefore, ← List.head?_eq_getElem?, Option.any_eq_true, Option.any_eq_true]
      at here
    rcases here with ⟨c, head, char⟩ | ⟨c, last, char⟩
    · exact Bool.false_ne_true ((behind c head).symm.trans char)
    · exact Bool.false_ne_true ((before c last).symm.trans char)

end Around

theorem boundsWithin {line : List Char} {character : Int} (found : (bounds? line character).isSome = true) :
    0 ≤ character ∧ character < line.length := by
  by_contra outside
  have none : bounds? line character = none := if_pos (by omega)
  rw [none] at found
  cases found

theorem cursorAround {line : List Char} {character : Int} (inside : 0 ≤ character ∧ character < line.length) :
    ∃ i : Nat, character = i ∧ i < line.length ∧ ∃ left word right, Around line i left word right := by
  obtain ⟨i, rfl⟩ : ∃ i : Nat, character = i := ⟨character.toNat, by omega⟩
  exact ⟨i, rfl, by omega, aroundExists (by omega)⟩

theorem boundsSome {line : List Char} {character : Int} :
    (bounds? line character).isSome = true ↔ (0 ≤ character ∧ character < line.length) ∧
      (isWordAt line character = true ∨ isWordAt line (character - 1) = true) := by
  refine (and_iff_right_of_imp boundsWithin).symm.trans (and_congr_right fun inside => ?_)
  obtain ⟨i, rfl, short, left, word, right, around⟩ := cursorAround inside
  rw [around.bounds short, ← around.filled]
  split <;> simp_all

theorem boundsIff {line : List Char} {character : Int} {start stop : Nat} :
    bounds? line character = some (start, stop) ↔
      (0 ≤ character ∧ character < line.length) ∧ Run line start stop ∧ Reaches start stop character := by
  constructor
  · intro found
    have inside := boundsWithin (Option.isSome_of_eq_some found)
    obtain ⟨i, rfl, short, left, word, right, around⟩ := cursorAround inside
    rw [around.bounds short] at found
    split at found
    · cases found
    · rename_i filled
      cases found
      exact ⟨inside, around.run filled, around.reaches⟩
  · rintro ⟨inside, run, reaches⟩
    obtain ⟨i, rfl, short, left, word, right, around⟩ := cursorAround inside
    have filled := around.filled.mpr (run.touches reaches)
    obtain ⟨first, last⟩ := runUnique run reaches (around.run filled) around.reaches
    rw [around.bounds short, if_neg filled, Int.ofNat_inj.mp first, Int.ofNat_inj.mp last]

theorem Run.short {line : List Char} {start stop : Int} (run : Run line start stop) : stop ≤ line.length := by
  have filled := run.filled
  have last := run.chars (stop - 1) (by omega) (by omega)
  rw [isWordAt, Bool.and_eq_true, Option.any_eq_true] at last
  obtain ⟨_, c, found, _⟩ := last
  have within := (List.getElem?_eq_some_iff.mp found).1
  omega

theorem boundsExact (line : List Char) :
    (∀ character, (bounds? line character).isSome = true ↔ (0 ≤ character ∧ character < line.length) ∧
      (isWordAt line character = true ∨ isWordAt line (character - 1) = true)) ∧
    (∀ character start stop, bounds? line character = some (start, stop) →
      Run line start stop ∧ Reaches start stop character ∧
      ∀ start' stop', Run line start' stop' → Reaches start' stop' character → start' = start ∧ stop' = stop) ∧
    ∀ start stop : Nat, Run line start stop → ∀ character : Int, start ≤ character → character < stop →
      bounds? line character = some (start, stop) := by
  refine ⟨fun character => boundsSome, fun character start stop found => ?_, ?_⟩
  · obtain ⟨_, run, reaches⟩ := boundsIff.mp found
    exact ⟨run, reaches, fun _ _ run' reaches' => runUnique run' reaches' run reaches⟩
  · intro start stop run character least most
    have short := run.short
    exact boundsIff.mpr ⟨⟨by omega, by omega⟩, run, least, Int.le_of_lt most⟩

/- A run with an underscore and a digit in it, between a letter of another script and a sign. -/
def mixedLine : List Char := "é_a1-".toList

theorem mixedRun :
    Run mixedLine 1 4 ∧ (bounds? mixedLine 4).isSome = true ∧ bounds? mixedLine 4 = some (1, 4) ∧
    bounds? mixedLine 2 = some (1, 4) ∧ (bounds? mixedLine 0).isSome = false := by
  obtain ⟨some, found, same⟩ := boundsExact mixedLine
  have behind : bounds? mixedLine 4 = .some (1, 4) := by decide
  have run := (found 4 1 4 behind).1
  refine ⟨run, (some 4).mpr (by decide), behind, same 1 4 run 2 (by decide) (by decide), ?_⟩
  exact Bool.eq_false_iff.mpr fun start => absurd ((some 0).mp start) (by decide)

end LanguageService.Word
