import LanguageService.Proofs.Language.Declarations
import LanguageService.Proofs.Query.Runs
import LanguageService.Query.Answer

/-! Declaration sites, asked about. The word around any character of a declared name is that name, so a
question asked there is about the symbol itself. -/
namespace LanguageService

namespace Word
open Token (isWordChar Next)

/- From any of its characters on, a word is followed to both its ends. -/
theorem boundsInside {left word right : List Char} (before : ∀ c, left.getLast? = some c → isWordChar c = false)
    (chars : ∀ c ∈ word, isWordChar c = true) (behind : Next (isWordChar · = false) right) {k : Nat}
    (inside : k < word.length) :
    bounds? (left ++ (word ++ right)) (left.length + k : Nat) = some (left.length, left.length + word.length) := by
  have around : Around (left ++ (word ++ right)) (left.length + k) left word right :=
    ⟨rfl, Nat.le_add_right _ _, Nat.add_le_add_left (Nat.le_of_lt inside) _, before, chars, behind⟩
  have filled : word ≠ [] := List.ne_nil_of_length_pos (by omega)
  have short : left.length + k < (left ++ (word ++ right)).length := by
    simp only [List.length_append]
    omega
  rw [around.bounds short, if_neg filled]

theorem likeNumber (n m : Int) : (Coordinate.number n).like m = .number m := by
  unfold Coordinate.like
  split
  · rename_i same
    exact congrArg Coordinate.number same
  · rfl

theorem findInside {left word right : List Char} (before : ∀ c, left.getLast? = some c → isWordChar c = false)
    (chars : ∀ c ∈ word, isWordChar c = true) (behind : Next (isWordChar · = false) right) {k : Nat}
    (inside : k < word.length) :
    find (.text (String.ofList (left ++ (word ++ right)))) (.int (Place.line left)) (.int (Place.column left + k : Nat)) =
      .ok (some ⟨String.ofList word, .number (Place.line left), .number (Place.column left),
        .number (Place.column left + word.length : Nat)⟩) := by
  have bounds := boundsInside (fun c last => before c (Place.rowLast last)) chars
    (Token.nextTaken behind (· != '\n')) inside
  have taken : ((Place.row left ++ (word ++ right.takeWhile (· != '\n'))).drop (Place.row left).length).take
      ((Place.row left).length + word.length - (Place.row left).length) = word := by
    rw [List.drop_left, Nat.add_sub_cancel_left, List.take_left]
  have spot : onLine? (Place.row left ++ (word ++ right.takeWhile (· != '\n'))) (.number (Place.line left))
      (.number (Place.column left + k : Nat)) =
        some ⟨String.ofList word, .number (Place.line left), .number (Place.column left),
          .number (Place.column left + word.length : Nat)⟩ := by
    unfold onLine?
    rw [Coordinate.value, Place.column, bounds]
    simp only [Option.pure_def, Option.bind_eq_bind, Option.bind_some, taken, likeNumber]
  have found := findSent (String.ofList (left ++ (word ++ right))) (.number (Place.line left))
    (.number (Place.column left + k : Nat))
  rw [Text.shown, String.toList_ofList, at?, Coordinate.value, Place.lineAround left (Token.wordRow chars)] at found
  exact found.trans (congrArg Except.ok spot)

theorem siteFind {src left gap right : List Char} {keyword name : Token}
    (site : Token.Site src left gap right keyword name) {character : Int}
    (behind : name.start.character ≤ character) (before : character < name.stop.character) :
    find (.text (String.ofList src)) (.int name.start.line) (.int character) =
      .ok (some ⟨name.text, .number name.start.line, .number name.start.character,
        .number name.stop.character⟩) := by
  have blank : ∀ c, (left ++ (keyword.text.toList ++ gap)).getLast? = some c → isWordChar c = false := by
    obtain ⟨d, last, blank⟩ := site.spaced
    intro c final
    rw [← List.append_assoc, List.getLast?_append, last, Option.some_or] at final
    cases final
    exact Token.blankWord blank
  have text : String.ofList src = String.ofList ((left ++ (keyword.text.toList ++ gap)) ++ (name.text.toList ++ right)) := by
    rw [site.text]
    simp only [List.append_assoc]
  rw [site.stopsName] at before ⊢
  obtain ⟨k, rfl⟩ : ∃ k : Nat, character = name.start.character + k :=
    ⟨(character - name.start.character).toNat, by omega⟩
  have inside : k < name.text.toList.length := by
    rw [String.length_toList]
    simpa using before
  have found := findInside blank site.word.chars site.longest inside
  rw [← text, String.ofList_toList, String.length_toList] at found
  rw [site.startsName]
  simpa only [Place.ofText, Int.natCast_add] using found

end Word

namespace Query
open Token (Wordlike)

/- The line of a place has this text from there on. -/
def Shows (src : List Char) (p : Position) (text : String) : Prop :=
  ∃ row, ∃ column : Nat, Word.line? src p.line = some row ∧ p.character = column ∧
    (row.drop column).take text.length = text.toList

theorem showsText (left : List Char) {text : String} (whole : '\n' ∉ text.toList) (right : List Char) :
    Shows (left ++ (text.toList ++ right)) (Place.ofText left) text := by
  refine ⟨_, _, Place.lineAround left whole right, rfl, ?_⟩
  rw [Place.column, List.drop_left, ← String.length_toList, List.take_left]

theorem definitionKnown {index : Index} {key : Key} {uri : Json} {word : Word} {s : Symbol}
    (known : symbol? index key word.text = some s) :
    definition? index key uri word = some (Reply.location uri (Reply.range s.range)) := by
  rw [definition?, known]
  rfl

theorem hoverKnown {index : Index} {key : Key} {word : Word} {s : Symbol}
    (known : symbol? index key word.text = some s) (free : Vocabulary.isKeyword word.text = false) :
    hover? index key word = some (Reply.hover
      (.text (if Vocabulary.isBuiltin word.text then Vocabulary.builtinDescription word.text
        else "**" ++ s.name ++ "** - " ++ s.display)) (some word.range)) := by
  rw [hover?, describe?, free, if_neg Bool.false_ne_true, known]
  split <;> rfl

theorem declaratorRow (d : Declarator) : (d.keyword, d.kind, d.display) ∈
    [("function", .function, "function"), ("let", .binding, "variable"), ("struct", .structLike, "struct"),
      ("data", .structLike, "data")] := by
  cases d <;> decide

theorem storedSymbol {index : Index} {key : Key} {uri : Json} {tokens : List Token} {s : Symbol}
    (stored : s ∈ (index.analyse key uri tokens).1.symbols key) :
    symbol? (index.analyse key uri tokens).1 key s.name = some s ∧ Outline.Declares tokens s := by
  have filed : (index.analyse key uri tokens).1.outline? key = some (Outline.ofTokens tokens) := by
    rw [Index.analyse, Index.outline?, Index.file, Table.getInsert, if_pos rfl]
    rfl
  have sound := Outline.ofTokensSound tokens
  rw [Index.symbols, filed] at stored
  obtain ⟨⟨name, _⟩, entry, rfl⟩ := List.mem_map.mp stored
  have held := Table.entryGet sound.distinct entry
  obtain ⟨rfl, declares⟩ := sound.declared _ _ held
  refine ⟨?_, declares⟩
  rw [symbol?, filed]
  exact held

theorem sitesResolve (lead : CommentLead) (src : String) (index : Index) (key : Key) (uri : Json)
    (s : Symbol) (stored : s ∈ (index.analyse key uri (Token.ofSource lead src)).1.symbols key) :
    s.range.contains s.selection = true ∧
    (Shows src.toList s.selection.start s.name ∧ s.selection.stop =
      ⟨s.selection.start.line, s.selection.start.character + s.name.length⟩) ∧
    (Wordlike s.name.toList ∧ Vocabulary.isKeyword s.name = false) ∧
    (∃ keyword, Shows src.toList s.range.start keyword ∧ (keyword, s.kind, s.display) ∈
      [("function", .function, "function"), ("let", .binding, "variable"), ("struct", .structLike, "struct"),
        ("data", .structLike, "data")]) ∧
    ∀ character, s.selection.start.character ≤ character → character < s.selection.stop.character →
      ∃ word, Word.find (.text src) (.int s.selection.start.line) (.int character) = .ok (some word) ∧
        definition? (index.analyse key uri (Token.ofSource lead src)).1 key uri word =
          some (Reply.location uri (Reply.range s.range)) ∧
        hover? (index.analyse key uri (Token.ofSource lead src)).1 key word =
          some (Reply.hover (.text (if Vocabulary.isBuiltin s.name then Vocabulary.builtinDescription s.name
            else "**" ++ s.name ++ "** - " ++ s.display)) (some (Reply.range s.selection))) := by
  obtain ⟨known, declares⟩ := storedSymbol stored
  obtain @⟨before, after, keyword, name, d, tokens, keyed, named⟩ := declares
  simp only [Token.isKeyword, Bool.and_eq_true, beq_iff_eq, Token.isIdentifier] at keyed named
  obtain ⟨left, gap, right, site⟩ := Token.siteExists tokens keyed.1 named
  have row : '\n' ∉ d.keyword.toList := keyed.2 ▸ site.reserved.row
  have keyText : src.toList = left ++ (d.keyword.toList ++ (gap ++ (name.text.toList ++ right))) :=
    keyed.2 ▸ site.text
  have nameText : src.toList = (left ++ (keyword.text.toList ++ gap)) ++ (name.text.toList ++ right) := by
    rw [site.text]
    simp only [List.append_assoc]
  refine ⟨site.contains, ⟨?_, site.stopsName⟩, ⟨site.word, site.free⟩, ⟨d.keyword, ?_, declaratorRow d⟩, ?_⟩
  · show Shows src.toList name.start name.text
    rw [nameText, site.startsName]
    exact showsText _ site.word.row right
  · show Shows src.toList keyword.start d.keyword
    rw [keyText, site.start]
    exact showsText left row _
  · intro character behind before
    have found := Word.siteFind site behind before
    rw [String.ofList_toList] at found
    refine ⟨_, found, ?_, ?_⟩
    · exact definitionKnown known
    · exact hoverKnown known site.free

/- The keyword and the name of a built-in function, with a comment and a line end between them. -/
def siteSource : String := "1data --x\r\n  range = 1"

def siteSymbol : Symbol := ⟨"range", .data, ⟨⟨0, 1⟩, ⟨1, 7⟩⟩, ⟨⟨1, 2⟩, ⟨1, 7⟩⟩⟩

def siteIndex : Index := (Index.analyse ∅ (.text "a") (.text "a") (Token.ofSource .dashes siteSource)).1

theorem commentedSiteResolves :
    siteSymbol ∈ siteIndex.symbols (.text "a") ∧ siteSymbol.range.contains siteSymbol.selection = true ∧
    ∃ word, Word.find (.text siteSource) (.int 1) (.int 6) = .ok (some word) ∧
      definition? siteIndex (.text "a") (.text "a") word =
        some (Reply.location (.text "a") (Reply.range siteSymbol.range)) ∧
      hover? siteIndex (.text "a") word =
        some (Reply.hover (.text "**range()** - Built-in function") (some (Reply.range siteSymbol.selection))) := by
  have stored : siteSymbol ∈ siteIndex.symbols (.text "a") := by decide +kernel
  obtain ⟨contains, _, _, _, resolves⟩ := sitesResolve .dashes siteSource ∅ _ _ siteSymbol stored
  exact ⟨stored, contains, resolves 6 (by decide) (by decide)⟩

end Query
end LanguageService
