import LanguageService.Proofs.Number.Decimal
import LanguageService.Wire.Frame

/-! Header lines, told by what they are made of: a name, a colon and a value, with blanks around them.
The name of the length is known in any case of its letters, and lines under other names are passed
over. A block of lines announces the length that one of them gives, wherever that line stands. -/
namespace LanguageService.Frame
open Text (Blank)
open Text.Utf8 (decodeAscii)

/- A line under the name of the length, and what follows the name. -/
def Titled (line rest : List Char) : Prop :=
  ∃ front name back, line = front ++ (name ++ (back ++ rest)) ∧ Blank front ∧ Blank back ∧
    name.map Char.toLower = lengthName

def Announces (n : Nat) (line : List Char) : Prop :=
  ∃ gap digits back, Titled line (':' :: (gap ++ (digits ++ back))) ∧ Blank gap ∧ Blank back ∧
    digits ≠ [] ∧ (∀ c ∈ digits, c.isDigit = true) ∧ Number.ofDigits digits = n

structure Foreign (line : List Char) : Prop where
  filled : ¬ Blank line
  bare : ¬ Titled line []
  named : ∀ value, ¬ Titled line (':' :: value)

theorem lowerBlank {c : Char} (blank : Text.isBlank c = true) : c.toLower = c := by
  refine dif_neg ?_
  rintro ⟨least, most⟩
  rw [ge_iff_le, UInt32.le_iff_toNat_le] at least
  rw [UInt32.le_iff_toNat_le] at most
  have code : c.val.toNat = c.toNat := rfl
  have first : 'A'.val.toNat = 65 := rfl
  have last : 'Z'.val.toNat = 90 := rfl
  simp only [Text.isBlank] at blank
  grind

theorem nameChars {name : List Char} (lower : name.map Char.toLower = lengthName) :
    name ≠ [] ∧ ∀ c ∈ name, Text.isBlank c = false ∧ (c != ':') = true := by
  have visible : ∀ c ∈ lengthName, Text.isBlank c = false := by
    simpa using (by decide : lengthName.all (!Text.isBlank ·) = true)
  refine ⟨?_, fun c member => ?_⟩
  · rintro rfl
    cases lower
  · have inside : c.toLower ∈ lengthName := lower ▸ List.mem_map_of_mem member
    constructor
    · cases blank : Text.isBlank c with
      | false => rfl
      | true =>
        rw [lowerBlank blank] at inside
        exact absurd blank (by rw [visible c inside]; exact Bool.false_ne_true)
    · refine bne_iff_ne.mpr ?_
      rintro rfl
      exact absurd inside (by decide)

theorem blankColon {cs : List Char} (blank : Blank cs) : ∀ c ∈ cs, (c != ':') = true := by
  intro c member
  refine bne_iff_ne.mpr ?_
  rintro rfl
  exact absurd (blank _ member) (by decide)

theorem trimName {name front back : List Char} (lower : name.map Char.toLower = lengthName)
    (before : Blank front) (behind : Blank back) : Text.trim (front ++ (name ++ back)) = name := by
  obtain ⟨filled, chars⟩ := nameChars lower
  exact Text.trimEnds front name back before filled (fun c head => (chars c (List.mem_of_head? head)).1)
    (fun c last => (chars c (List.mem_of_getLast? last)).1) behind

theorem knownName {name back : List Char} (lower : name.map Char.toLower = lengthName) (behind : Blank back) :
    isLengthName (name ++ back) = true := by
  have bare := trimName lower (by decide : Blank []) behind
  rw [List.nil_append] at bare
  rw [isLengthName, bare, lower]
  exact beq_self_eq_true lengthName

theorem titledBare {text : List Char} (titled : Titled text []) :
    isLengthName (headerParts (Text.trim text)).1 = true := by
  obtain ⟨front, name, back, rfl, before, behind, lower⟩ := titled
  have chars : ∀ c ∈ name, (c != ':') = true := fun c member => ((nameChars lower).2 c member).2
  have label : (name ++ []).takeWhile (· != ':') = name := Text.takeFront chars (by simp)
  have known := knownName lower (by decide : Blank [])
  rw [List.append_nil] at label known
  rw [List.append_nil, trimName lower before behind, headerParts, label]
  exact known

/- The blanks at the end of a line are gone from what stands behind the colon. -/
theorem titledParts {text value : List Char} (titled : Titled text (':' :: value)) :
    ∃ label kept tail, headerParts (Text.trim text) = (label, kept) ∧ isLengthName label = true ∧
      value = kept ++ tail ∧ Blank tail := by
  obtain ⟨front, name, middle, rfl, before, between, lower⟩ := titled
  obtain ⟨named, chars⟩ := nameChars lower
  obtain ⟨kept, tail, rfl, behind, _, ends⟩ := Text.blankTail value
  have header : Text.trim (front ++ (name ++ (middle ++ ':' :: (kept ++ tail)))) =
      name ++ (middle ++ ':' :: kept) := by
    have split : name ++ (middle ++ ':' :: (kept ++ tail)) = (name ++ (middle ++ ':' :: kept)) ++ tail := by simp
    rw [split]
    refine Text.trimEnds _ _ _ before (by simp) (fun c head => ?_) (fun c last => ?_) behind
    · obtain ⟨d, more, rfl⟩ := List.exists_cons_of_ne_nil named
      exact (chars c (List.mem_of_head? head)).1
    · rw [← List.append_assoc, List.getLast?_append, List.getLast?_cons, Option.some_or] at last
      cases final : kept.getLast? with
      | none =>
        rw [final] at last
        cases last
        decide
      | some d =>
        rw [final] at last
        cases last
        exact ends d final
  have inside : ∀ c ∈ name ++ middle, (c != ':') = true :=
    List.forall_mem_append.mpr ⟨fun c member => (chars c member).2, blankColon between⟩
  have stops : ∀ c, (':' :: kept).head? = some c → (c != ':') = false := by
    rintro _ ⟨⟩
    rfl
  refine ⟨name ++ middle, kept, tail, ?_, knownName lower between, rfl, behind⟩
  rw [header, ← List.append_assoc, headerParts, Text.takeFront inside stops, Text.dropFront inside stops]
  rfl

theorem knownFilled {text : List Char} (known : isLengthName (headerParts text).1 = true) :
    text.isEmpty = false := by
  refine List.isEmpty_eq_false_iff.mpr ?_
  rintro rfl
  exact absurd known (by decide)

theorem lineAnnounces {n : Nat} {bytes : List UInt8} (announces : Announces n (decodeAscii bytes)) :
    line bytes = .length n := by
  obtain ⟨gap, digits, back, titled, gapped, behind, filled, all, value⟩ := announces
  obtain ⟨label, kept, tail, parts, known, cut, blank⟩ := titledParts titled
  have number : Text.trim kept = digits := by
    have visible {c : Char} (member : c ∈ digits) := Number.blankDigit (all c member)
    rw [← Text.trimTail kept blank, ← cut]
    exact Text.trimEnds gap digits back gapped filled (fun c head => visible (List.mem_of_head? head))
      (fun c last => visible (List.mem_of_getLast? last)) behind
  have written : (Text.trim (decodeAscii bytes)).isEmpty = false :=
    knownFilled (by rw [parts]; exact known)
  simp only [line, parts, written, known, number, Number.integerDigits all filled, value,
    Bool.false_eq_true, if_false, if_true]

theorem lineBlank {bytes : List UInt8} (blank : Blank (decodeAscii bytes)) : line bytes = .blank := by
  simp only [line, Text.trimBlank blank, List.isEmpty_nil, if_true]

/- A line that the reader takes for the length's is under its name, with a colon or nothing behind it. -/
theorem knownTitled {text : List Char} (known : isLengthName (headerParts (Text.trim text)).1 = true) :
    Titled text [] ∨ ∃ value, Titled text (':' :: value) := by
  obtain ⟨front, back, outer, before, behind⟩ := Text.trimCut text
  generalize Text.trim text = header at known outer
  obtain ⟨margin, edge, inner, left, right⟩ := Text.trimCut (headerParts header).1
  have lower := eq_of_beq known
  have around : Blank (front ++ margin) := List.forall_mem_append.mpr ⟨before, left⟩
  have cut := List.takeWhile_append_dropWhile (p := (· != ':')) (l := header)
  have whole : text = (front ++ margin) ++ (Text.trim (headerParts header).1 ++
      (edge ++ (header.dropWhile (· != ':') ++ back))) := by
    calc text
      _ = front ++ (((headerParts header).1 ++ header.dropWhile (· != ':')) ++ back) := by
        rw [headerParts, cut, outer]
      _ = front ++ (((margin ++ (Text.trim (headerParts header).1 ++ edge)) ++
            header.dropWhile (· != ':')) ++ back) := by rw [← inner]
      _ = _ := by simp
  cases tail : header.dropWhile (· != ':') with
  | nil =>
    -- no colon: the blanks behind the name run on to the end of the line
    refine Or.inl ⟨_, _, edge ++ back, ?_, around, List.forall_mem_append.mpr ⟨right, behind⟩, lower⟩
    rw [whole, tail, List.nil_append, List.append_nil]
  | cons c value =>
    have colon : c = ':' := by
      have stops := List.head?_dropWhile_not (· != ':') header
      rw [tail] at stops
      simpa using stops
    refine Or.inr ⟨value ++ back, _, _, edge, ?_, around, right, lower⟩
    rw [whole, tail, colon, List.cons_append]

theorem lineOther {bytes : List UInt8} : line bytes = .other ↔ Foreign (decodeAscii bytes) := by
  have known : isLengthName (headerParts (Text.trim (decodeAscii bytes))).1 = true ↔
      Titled (decodeAscii bytes) [] ∨ ∃ value, Titled (decodeAscii bytes) (':' :: value) := by
    refine ⟨knownTitled, ?_⟩
    rintro (bare | ⟨value, named⟩)
    · exact titledBare bare
    · obtain ⟨label, kept, tail, parts, known, _⟩ := titledParts named
      rw [parts]
      exact known
  simp only [line, List.isEmpty_iff, Text.trimNil]
  constructor
  · intro other
    split at other
    · cases other
    · rename_i filled
      split at other
      · split at other <;> cases other
      · rename_i unknown
        rw [known, not_or, not_exists] at unknown
        exact ⟨filled, unknown.1, unknown.2⟩
  · intro foreign
    have unknown : ¬ isLengthName (headerParts (Text.trim (decodeAscii bytes))).1 = true := by
      rw [known, not_or, not_exists]
      exact ⟨foreign.bare, foreign.named⟩
    rw [if_neg foreign.filled, if_neg unknown]

theorem cutLineFeed {bytes : List UInt8} (whole : 10 ∉ bytes) (rest : List UInt8) :
    cutLine (bytes ++ 10 :: rest) = (bytes ++ [10], rest) := by
  induction bytes with
  | nil => rfl
  | cons b bytes ih =>
    rw [List.mem_cons, not_or] at whole
    rw [List.cons_append, cutLine, if_neg (Ne.symm whole.1), ih whole.2]
    rfl

/- The bytes of one line, with the line feed that ends it. -/
def Row (bytes : List UInt8) : Prop := ∃ front, bytes = front ++ [10] ∧ 10 ∉ front

/- The first line of what is left, with the line feed that ends it; the last line may lack one. -/
def Leads (row rest : List UInt8) : Prop := Row row ∨ row ≠ [] ∧ 10 ∉ row ∧ rest = []

theorem cutLineOpen {row : List UInt8} (whole : 10 ∉ row) : cutLine row = (row, []) := by
  induction row with
  | nil => rfl
  | cons b row ih =>
    rw [List.mem_cons, not_or] at whole
    rw [cutLine, if_neg (Ne.symm whole.1), ih whole.2]

theorem cutLineLeads {input : List UInt8} (filled : input ≠ []) :
    (cutLine input).1 ++ (cutLine input).2 = input ∧ Leads (cutLine input).1 (cutLine input).2 := by
  by_cases fed : 10 ∈ input
  · obtain ⟨front, back, rfl, first⟩ := List.eq_append_cons_of_mem fed
    rw [cutLineFeed first]
    exact ⟨by simp, .inl ⟨front, rfl, first⟩⟩
  · rw [cutLineOpen fed]
    exact ⟨by simp, .inr ⟨filled, fed, rfl⟩⟩

theorem leadsCut {row rest : List UInt8} (leads : Leads row rest) :
    row ++ rest ≠ [] ∧ cutLine (row ++ rest) = (row, rest) := by
  rcases leads with ⟨front, rfl, fed⟩ | ⟨filled, fed, rfl⟩
  · rw [List.append_assoc, List.singleton_append]
    exact ⟨by simp, cutLineFeed fed rest⟩
  · rw [List.append_nil]
    exact ⟨filled, cutLineOpen fed⟩

theorem headersLeads {row rest : List UInt8} (leads : Leads row rest) (announced : Option Int) :
    headers announced (row ++ rest) = match line row with
      | .blank => ((announced.map Header.length).getD missingLength, rest)
      | .length n => headers (some n) rest
      | .invalidLength header => (invalidLength header, rest)
      | .other => headers announced rest := by
  obtain ⟨filled, cut⟩ := leadsCut leads
  obtain ⟨b, more, same⟩ := List.exists_cons_of_ne_nil filled
  rw [same] at cut ⊢
  have opened := headers.eq_def announced (b :: more)
  simp only [cut] at opened
  exact opened

def Others (rows : List (List UInt8)) : Prop := ∀ row ∈ rows, Row row ∧ Foreign (decodeAscii row)

theorem headersOthers {rows : List (List UInt8)} (others : Others rows) (announced : Option Int)
    (rest : List UInt8) : headers announced (rows.flatten ++ rest) = headers announced rest := by
  induction rows with
  | nil => rfl
  | cons row rows ih =>
    obtain ⟨⟨whole, foreign⟩, later⟩ := List.forall_mem_cons.mp others
    rw [List.flatten_cons, List.append_assoc, headersLeads (.inl whole), lineOther.mpr foreign]
    exact ih later

/- A block of headers: one line announces the length, among lines under other names, and a blank line
ends it. -/
def Heads (n : Nat) (block : List UInt8) : Prop :=
  ∃ above title below last, block = above.flatten ++ (title ++ (below.flatten ++ last)) ∧
    Others above ∧ (Row title ∧ Announces n (decodeAscii title)) ∧ Others below ∧
    Row last ∧ Blank (decodeAscii last)

theorem headersBlock {n : Nat} {block : List UInt8} (heads : Heads n block) (rest : List UInt8) :
    headers none (block ++ rest) = (.length n, rest) := by
  obtain ⟨above, title, below, last, rfl, before, ⟨row, announces⟩, behind, ended, blank⟩ := heads
  simp only [List.append_assoc]
  rw [headersOthers before, headersLeads (.inl row), lineAnnounces announces]
  simp only
  rw [headersOthers behind, headersLeads (.inl ended), lineBlank blank]
  rfl

end LanguageService.Frame
