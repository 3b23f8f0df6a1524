import LanguageService.Proofs.Text.Points
import LanguageService.Proofs.Text.Utf8
import LanguageService.Source.Uri

/-! Spellings of file locations. Each character of a path is written as it is or by escapes of all of its bytes,
and all spellings of a path are read as that path. Where the path names a drive the slash before it goes. -/
namespace LanguageService.Text

namespace Utf8

theorem decodeLenientEncoded (cs : List Char) : decodeLenient (encodeChars cs) = cs := by
  rw [decodeLenient, piecesEncoded, List.map_map]
  exact List.map_id'' (fun _ => rfl) cs

end Utf8

namespace Percent

def lowerDigits : List Char := "0123456789abcdef".toList

def upperDigits : List Char := "0123456789ABCDEF".toList

/- A digit for a value, in either case. -/
def Digit (n : Nat) (c : Char) : Prop := lowerDigits[n]? = some c ∨ upperDigits[n]? = some c

inductive Escapes : List UInt8 → List Char → Prop where
  | nil : Escapes [] []
  | cons {b bytes high low rest} (first : Digit (b.toNat / 16) high) (second : Digit (b.toNat % 16) low)
      (tail : Escapes bytes rest) : Escapes (b :: bytes) ('%' :: high :: low :: rest)

/- A percent sign never stands for itself. -/
inductive Spells : List Char → List Char → Prop where
  | nil : Spells [] []
  | literal {c text spelling} (plain : c ≠ '%') (tail : Spells text spelling) :
      Spells (c :: text) (c :: spelling)
  | escaped {c escape text spelling} (whole : Escapes (String.utf8EncodeChar c) escape)
      (tail : Spells text spelling) : Spells (c :: text) (escape ++ spelling)

theorem digitValue {n : Nat} {c : Char} (digit : Digit n c) : hexValue? c = some n := by
  have small : n < 16 := by
    rcases digit with found | found <;> exact (List.getElem?_eq_some_iff.mp found).1
  have values : ∀ n < 16, (lowerDigits[n]?.all fun c => hexValue? c == some n) = true ∧
      (upperDigits[n]?.all fun c => hexValue? c == some n) = true := by decide
  obtain ⟨lower, upper⟩ := values n small
  rcases digit with found | found
  · simpa [found] using lower
  · simpa [found] using upper

theorem bytesEscape {b : UInt8} {high low : Char} (first : Digit (b.toNat / 16) high)
    (second : Digit (b.toNat % 16) low) (rest : List Char) :
    bytes ('%' :: high :: low :: rest) = b :: bytes rest := by
  have value : b.toNat / 16 * 16 + b.toNat % 16 = b.toNat := by omega
  simp only [bytes, digitValue first, digitValue second, value, UInt8.ofNat_toNat]

theorem bytesEscapes {bs : List UInt8} {escape : List Char} (escapes : Escapes bs escape) (rest : List Char) :
    bytes (escape ++ rest) = bs ++ bytes rest := by
  induction escapes with
  | nil => rfl
  | cons first second tail ih =>
    rw [List.cons_append, List.cons_append, List.cons_append, bytesEscape first second, ih, List.cons_append]

theorem bytesLiteral {c : Char} (plain : c ≠ '%') (rest : List Char) :
    bytes (c :: rest) = String.utf8EncodeChar c ++ bytes rest := by
  rw [bytes]
  intro high low tail escape
  exact absurd escape plain

theorem bytesSpelled {text spelling : List Char} (spelled : Spells text spelling) :
    bytes spelling = Utf8.encodeChars text := by
  induction spelled with
  | nil => rfl
  | @literal c text spelling plain tail ih =>
    rw [bytesLiteral plain, ih, Utf8.encodeChars, Utf8.encodeChars, List.flatMap_cons]
  | @escaped c escape text spelling whole tail ih =>
    rw [bytesEscapes whole, ih, Utf8.encodeChars, Utf8.encodeChars, List.flatMap_cons]

theorem decodeSpelled {text spelling : List Char} (spelled : Spells text spelling) : decode spelling = text := by
  rw [decode, bytesSpelled spelled, Utf8.decodeLenientEncoded]

/- Half of a pair has no bytes to escape, and only ever stands for itself. -/
inductive SpellsPoints : List Point → List Point → Prop where
  | chars {text spelling} (spelled : Spells text spelling) :
      SpellsPoints (text.map .char) (spelling.map .char)
  | half {text spelling points rest} (spelled : Spells text spelling) (n : Fin 0x800)
      (tail : SpellsPoints points rest) :
      SpellsPoints (text.map .char ++ .half n :: points) (spelling.map .char ++ .half n :: rest)

theorem decodePointsRun (run cs : List Char) (rest : List Point) :
    decodePoints run (cs.map .char ++ rest) = decodePoints (run ++ cs) rest := by
  induction cs generalizing run with
  | nil => rw [List.map_nil, List.nil_append, List.append_nil]
  | cons c cs ih => rw [List.map_cons, List.cons_append, decodePoints, ih, List.append_assoc, List.singleton_append]

theorem decodePointsChars (cs : List Char) : decodePoints [] (cs.map .char) = (decode cs).map .char := by
  have whole := decodePointsRun [] cs []
  rwa [List.append_nil, List.nil_append] at whole

theorem decodePointsSpelled {text spelling : List Point} (spelled : SpellsPoints text spelling) :
    decodePoints [] spelling = text := by
  induction spelled with
  | chars spelled => rw [decodePointsChars, decodeSpelled spelled]
  | half spelled n tail ih =>
    rw [decodePointsRun, List.nil_append, decodePoints, decodeSpelled spelled, ih]

end Percent
end LanguageService.Text

namespace LanguageService.Uri
open Text (Point)
open Text.Percent (Spells SpellsPoints Escapes Digit)

theorem dropDriveChars (path : List Char) :
    dropDriveSlash (.char '/') (.char ':') (path.map Point.char) = (dropDriveSlash '/' ':' path).map Point.char := by
  match path with
  | [] | [_] | [_, _] => rfl
  | first :: drive :: third :: rest =>
    simp only [List.map_cons, dropDriveSlash, Point.char.injEq]
    split <;> rfl

theorem pathFile (t : Text) :
    path ("file://" ++ t) =
      .ofPoints (dropDriveSlash (.char '/') (.char ':') (Text.Percent.decodePoints [] t.points)) := by
  have schemed {α : Type} [BEq α] [LawfulBEq α] (scheme rest : List α) : scheme.isPrefixOf (scheme ++ rest) = true :=
    List.isPrefixOf_iff_prefix.mpr (List.prefix_append scheme rest)
  cases t with
  | plain s =>
    have whole : ("file://" ++ s).toList = fileScheme ++ s.toList := String.toList_append
    rw [Text.appendPlain, path, toPath, whole, if_pos (schemed _ _), List.drop_left, Text.points,
      Text.Percent.decodePointsChars, dropDriveChars, Text.ofCharsPlain]
  | rough points halved =>
    have joined : Text.plain "file://" ++ Text.rough points halved =
        .ofPoints (fileScheme.map Point.char ++ points) := rfl
    have rough : (fileScheme.map Point.char ++ points).any Point.isHalf = true := by
      rw [List.any_append, halved, Bool.or_true]
    have size : fileScheme.length = (fileScheme.map Point.char).length := (List.length_map _).symm
    rw [joined, Text.ofPointsRough rough, path, if_pos (schemed _ _), size, List.drop_left, Text.points]

theorem dropDriveNone {path : List Point} (drive : path[2]? ≠ some (.char ':')) :
    dropDriveSlash (.char '/') (.char ':') path = path := by
  unfold dropDriveSlash
  split
  · rw [if_neg fun named => drive (congrArg some named.2)]
  · rfl

theorem spelledPathRead {text spelling : Text} (spelled : SpellsPoints text.points spelling.points) :
    (text.points[2]? ≠ some (.char ':') → path ("file://" ++ spelling) = text) ∧
    ∀ drive rest, text.points = .char '/' :: drive :: .char ':' :: rest →
      path ("file://" ++ spelling) = .ofPoints (drive :: .char ':' :: rest) := by
  rw [pathFile, Text.Percent.decodePointsSpelled spelled]
  refine ⟨fun plain => ?_, fun drive rest named => ?_⟩
  · rw [dropDriveNone plain, Text.ofPointsPoints]
  · rw [named, dropDriveSlash, if_pos ⟨rfl, rfl⟩]

/- A percent sign and a letter of two bytes in escapes of both cases, next to letters that stand for themselves. -/
def mixedPath : String := "/é%ü"

def mixedSpelling : String := "/%c3%A9%25ü"

/- A drive whose colon is escaped. -/
def drivePath : String := "/c:/a"

def driveSpelling : String := "/c%3a/%61"

theorem mixedSpelled : Spells mixedPath.toList mixedSpelling.toList := by
  have letter : Escapes (String.utf8EncodeChar 'é') ['%', 'c', '3', '%', 'A', '9'] :=
    .cons (.inl rfl) (.inl rfl) (.cons (.inr rfl) (.inr rfl) .nil)
  have sign : Escapes (String.utf8EncodeChar '%') ['%', '2', '5'] := .cons (.inl rfl) (.inl rfl) .nil
  exact .literal (by decide) (.escaped letter (.escaped sign (.literal (by decide) .nil)))

theorem driveSpelled : Spells drivePath.toList driveSpelling.toList := by
  have colon : Escapes (String.utf8EncodeChar ':') ['%', '3', 'a'] := .cons (.inl rfl) (.inl rfl) .nil
  have letter : Escapes (String.utf8EncodeChar 'a') ['%', '6', '1'] := .cons (.inl rfl) (.inl rfl) .nil
  exact .literal (by decide) (.literal (by decide)
    (.escaped colon (.literal (by decide) (.escaped letter .nil))))

/- The same path with half of a pair behind it. -/
def halvedPath : Text := .ofPoints (mixedPath.toList.map .char ++ [.half 0])

def halvedSpelling : Text := .ofPoints (mixedSpelling.toList.map .char ++ [.half 0])

theorem halvedSpelled : SpellsPoints halvedPath.points halvedSpelling.points := by
  rw [halvedPath, halvedSpelling, Text.pointsOfPoints, Text.pointsOfPoints]
  exact .half mixedSpelled 0 (.chars .nil)

theorem escapedPathsRead :
    SpellsPoints (Text.plain mixedPath).points (Text.plain mixedSpelling).points ∧
    mixedPath.toList[2]? ≠ some ':' ∧ path ("file://" ++ mixedSpelling) = "/é%ü" ∧
    SpellsPoints halvedPath.points halvedSpelling.points ∧ path ("file://" ++ halvedSpelling) = halvedPath ∧
    SpellsPoints (Text.plain drivePath).points (Text.plain driveSpelling).points ∧
    path ("file://" ++ driveSpelling) = "c:/a" := by
  have mixed : SpellsPoints (Text.plain mixedPath).points (Text.plain mixedSpelling).points := .chars mixedSpelled
  have drive : SpellsPoints (Text.plain drivePath).points (Text.plain driveSpelling).points := .chars driveSpelled
  refine ⟨mixed, by decide, (spelledPathRead mixed).1 (by decide), halvedSpelled,
    (spelledPathRead halvedSpelled).1 (by decide), drive, ?_⟩
  exact (spelledPathRead drive).2 (.char 'c') ("/a".toList.map .char) rfl

end LanguageService.Uri
