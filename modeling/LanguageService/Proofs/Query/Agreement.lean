import LanguageService.Proofs.Query.Sites
import LanguageService.Proofs.Session.Apart
import Mathlib.Data.List.Forall2

/-! The four questions about a document agree. All of them are answered from one outline: a name has a definition
exactly where it is in the outline, what has a definition can be described, and the outline is what completion
adds to the words that can be typed everywhere. -/
namespace LanguageService.Query

/- Indexes as analyses leave them. -/
inductive Built : Index → Prop where
  | empty : Built ∅
  | analysed {index} (built : Built index) (key : Key) (uri : Json) (lead : CommentLead) (src : String) :
      Built (index.analyse key uri (Token.ofSource lead src)).1

theorem builtSound {index : Index} (built : Built index) {key : Key} {outline : Outline}
    (held : index.outline? key = some outline) : ∃ tokens, Outline.Sound tokens outline := by
  induction built with
  | empty => cases held
  | analysed built other uri lead src ih =>
    rw [Index.analyse, Index.outlineFile] at held
    split at held
    · cases held
      exact ⟨_, Outline.ofTokensSound _⟩
    · exact ih held

theorem symbolIff {index : Index} (built : Built index) {key : Key} {name : String} {s : Symbol} :
    symbol? index key name = some s ↔ s ∈ index.symbols key ∧ s.name = name := by
  unfold symbol? Index.symbols
  cases held : index.outline? key with
  | none => simp
  | some outline =>
    obtain ⟨tokens, sound⟩ := builtSound built held
    constructor
    · intro found
      exact ⟨List.mem_map.mpr ⟨_, Table.getEntry found, rfl⟩, (sound.declared name s found).1⟩
    · rintro ⟨member, rfl⟩
      obtain ⟨⟨under, _⟩, entry, rfl⟩ := List.mem_map.mp member
      have found := Table.entryGet sound.distinct entry
      exact (sound.declared under _ found).1 ▸ found

/- An entry of an outline is about a name. -/
def Names (entry : Json) (name : String) : Prop := entry.subscript "name" = .ok (.text name)

def Listed (index : Index) (key : Key) (name : String) : Prop := ∃ entry ∈ outline index key, Names entry name

theorem namesEntry {s : Symbol} {name : String} : Names (outlineEntry s) name ↔ s.name = name := by
  show (Except.ok (Json.text s.name) : Except Fault Json) = .ok (.text name) ↔ _
  simp

theorem listedIff {index : Index} (built : Built index) {key : Key} {name : String} :
    Listed index key name ↔ ∃ s, symbol? index key name = some s := by
  simp only [Listed, outline, List.mem_map, exists_exists_and_eq_and, namesEntry, symbolIff built]

theorem entryOnly {index : Index} (built : Built index) {key : Key} {s : Symbol}
    (known : symbol? index key s.name = some s) {entry : Json} (listed : entry ∈ outline index key)
    (named : Names entry s.name) : entry = outlineEntry s := by
  obtain ⟨other, member, rfl⟩ := List.mem_map.mp listed
  have same := (symbolIff built).mpr ⟨member, namesEntry.mp named⟩
  rw [known] at same
  rw [Option.some.inj same]

/- A completion item for an outline entry. The kinds are numbered apart in the two. -/
structure Matches (entry item : Json) : Prop where
  label : ∃ name, entry.subscript "name" = .ok name ∧ item.subscript "label" = .ok name
  detail : ∃ name display, Names entry name ∧ entry.subscript "detail" = .ok (.text display) ∧
    item.subscript "detail" = .ok (.text (display ++ ": " ++ name))
  kind : ∃ listed offered, entry.subscript "kind" = .ok (.int listed) ∧ item.subscript "kind" = .ok (.int offered) ∧
    (listed, offered) ∈ [(12, 3), (13, 6), (23, 7)]

theorem symbolMatches (s : Symbol) : Matches (outlineEntry s) (symbolItem s) := by
  refine ⟨⟨_, rfl, rfl⟩, ⟨_, _, rfl, rfl, rfl⟩, ⟨_, _, rfl, rfl, ?_⟩⟩
  cases s.kind <;> decide

theorem completionMatches (index : Index) (key : Key) :
    ∃ items, completion index key = fixedItems ++ items ∧ List.Forall₂ Matches (outline index key) items := by
  refine ⟨_, rfl, ?_⟩
  rw [outline, List.forall₂_map_left_iff, List.forall₂_map_right_iff, List.forall₂_same]
  exact fun s _ => symbolMatches s

theorem fixedLabels : fixedItems.map (·.subscript "label") =
    (Vocabulary.keywords ++ Vocabulary.builtins ++ Vocabulary.modules).map fun word => .ok (.text word) := by
  simp only [fixedItems, List.map_append, List.map_map]
  rfl

theorem foundPlace {src : List Char} {line character : Int} {word : Word}
    (found : Word.at? src (.number line) (.number character) = some word) :
    ∃ start stop : Nat, word.range = Reply.range ⟨⟨line, start⟩, ⟨line, stop⟩⟩ ∧
      start ≤ character ∧ character ≤ stop := by
  obtain ⟨row, _, found⟩ := Option.bind_eq_some_iff.mp found
  obtain ⟨⟨start, stop⟩, bounds, found⟩ := Option.bind_eq_some_iff.mp found
  cases Option.some.inj found
  obtain ⟨_, _, reaches⟩ := Word.boundsIff.mp bounds
  refine ⟨start, stop, ?_, reaches⟩
  simp only [Word.range, Word.likeNumber]
  rfl

theorem definitionIff {index : Index} (built : Built index) {key : Key} {uri : Json} {word : Word} :
    (definition? index key uri word).isSome = true ↔ Listed index key word.text := by
  rw [definition?, Option.isSome_map, Option.isSome_iff_exists, listedIff built]

theorem hoverIff {index : Index} (built : Built index) {key : Key} {word : Word} :
    (hover? index key word).isSome = true ↔ Vocabulary.isKeyword word.text = true ∨
      Vocabulary.isBuiltin word.text = true ∨ Listed index key word.text := by
  rw [hover?, Option.isSome_map, describe?, listedIff built, ← Option.isSome_iff_exists]
  split
  · simp [*]
  split
  · simp [*]
  · simp [*]

theorem askedIff {found : Option Word} {answer : Word → Option Json} :
    (found.bind answer).isSome = true ↔ ∃ word, found = some word ∧ (answer word).isSome = true := by
  cases found <;> simp

/- What the questions at a place say, by the word that was found there. -/
structure Agreement (index : Index) (key : Key) (uri : Json) (line character : Int) (found : Option Word) : Prop where
  defined : (found.bind (definition? index key uri)).isSome = true ↔
    ∃ word, found = some word ∧ Listed index key word.text
  located : ∀ word location, found = some word → definition? index key uri word = some location →
    ∃ entry range, (∀ other, other ∈ outline index key ∧ Names other word.text ↔ other = entry) ∧
      entry.subscript "range" = .ok range ∧ location = Reply.location uri range ∧
      ∃ contents start stop,
        hover? index key word = some (Reply.hover contents (some (Reply.range ⟨⟨line, start⟩, ⟨line, stop⟩⟩))) ∧
        start ≤ character ∧ character ≤ stop
  described : (found.bind (hover? index key)).isSome = true ↔ ∃ word, found = some word ∧
    (Vocabulary.isKeyword word.text = true ∨ Vocabulary.isBuiltin word.text = true ∨ Listed index key word.text)

theorem agreement {index : Index} (built : Built index) (key : Key) (uri : Json) (src : List Char)
    (line character : Int) :
    Agreement index key uri line character (Word.at? src (.number line) (.number character)) := by
  refine ⟨?_, ?_, ?_⟩
  · simp only [askedIff, definitionIff built]
  · intro word location found defined
    obtain ⟨s, known, rfl⟩ := Option.map_eq_some_iff.mp defined
    obtain ⟨member, named⟩ := (symbolIff built).mp known
    obtain ⟨start, stop, placed, reaches⟩ := foundPlace found
    refine ⟨outlineEntry s, Reply.range s.range, fun other => ⟨?_, ?_⟩, rfl, rfl, ?_⟩
    · rintro ⟨listed, about⟩
      rw [← named] at known about
      exact entryOnly built known listed about
    · rintro rfl
      exact ⟨List.mem_map.mpr ⟨s, member, rfl⟩, namesEntry.mpr named⟩
    · have shown : (hover? index key word).isSome = true :=
        (hoverIff built).mpr (.inr (.inr ((listedIff built).mpr ⟨s, known⟩)))
      obtain ⟨answer, hovers⟩ := Option.isSome_iff_exists.mp shown
      obtain ⟨contents, _, rfl⟩ := Option.map_eq_some_iff.mp hovers
      rw [placed] at hovers
      exact ⟨.text contents, start, stop, hovers, reaches⟩
  · simp only [askedIff, hoverIff built]

theorem questionsAgree {index : Index} (built : Built index) (key : Key) (uri : Json) :
    (∀ (text : String) (line character : Int), ∃ found, Word.find (.text text) (.int line) (.int character) = .ok found ∧
      Agreement index key uri line character found) ∧
    (∃ items, completion index key = fixedItems ++ items ∧ List.Forall₂ Matches (outline index key) items) ∧
    (fixedItems.map (·.subscript "label") =
      (Vocabulary.keywords ++ Vocabulary.builtins ++ Vocabulary.modules).map fun word => .ok (.text word)) ∧
    ∀ link message, Session.Asks message → (Session.step link message).2.host.index = link.host.index := by
  refine ⟨fun text line character => ?_, completionMatches index key, fixedLabels, fun link message asks => ?_⟩
  · exact ⟨_, Word.findSent text (.number line) (.number character),
      agreement built key uri text.toList line character⟩
  · obtain ⟨response, lines, stepped⟩ := Session.stepQuestion asks link
    rw [stepped]
    rfl

/- A document that was analysed twice, and a text in which its name is a word again. -/
def builtIndex : Index :=
  ((Index.analyse ∅ (.text "a") (.text "a") (Token.ofSource .percent "let id = 1")).1.analyse (.text "a") (.text "a")
    (Token.ofSource .dashes "function f")).1

theorem builtAgrees :
    Built builtIndex ∧ Listed builtIndex (.text "a") "f" ∧
    (∃ word, Word.find (.text "id f.") (.int 0) (.int 4) = .ok (some word) ∧
      definition? builtIndex (.text "a") (.text "a") word =
        some (Reply.location (.text "a") (Reply.range ⟨⟨0, 0⟩, ⟨0, 10⟩⟩))) ∧
    (∃ items, completion builtIndex (.text "a") = fixedItems ++ items ∧
      List.Forall₂ Matches (outline builtIndex (.text "a")) items) ∧
    Session.Asks [("id", .int 1), ("method", .text "textDocument/hover")] := by
  have built : Built builtIndex := .analysed (.analysed .empty _ _ _ _) _ _ _ _
  have word : Word.find (.text "id f.") (.int 0) (.int 4) = .ok (some ⟨"f", .number 0, .number 3, .number 4⟩) := rfl
  obtain ⟨places, completed, _, _⟩ := questionsAgree built (.text "a") (.text "a")
  obtain ⟨found, search, agrees⟩ := places "id f." 0 4
  obtain rfl := Option.some_inj.mp (congrArg Except.toOption (word.symm.trans search))
  have known : symbol? builtIndex (.text "a") "f" =
      some ⟨"f", .function, ⟨⟨0, 0⟩, ⟨0, 10⟩⟩, ⟨⟨0, 9⟩, ⟨0, 10⟩⟩⟩ := by decide +kernel
  have defines : definition? builtIndex (.text "a") (.text "a") ⟨"f", .number 0, .number 3, .number 4⟩ = _ :=
    definitionKnown known
  obtain ⟨_, same, listed⟩ := agrees.defined.mp (Option.isSome_of_eq_some defines)
  cases same
  exact ⟨built, listed, ⟨_, word, defines⟩, completed, ⟨_, by decide, rfl, rfl⟩⟩

end LanguageService.Query
