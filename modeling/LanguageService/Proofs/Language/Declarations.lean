import LanguageService.Language.Outline
import LanguageService.Proofs.Language.Words
import LanguageService.Proofs.Table

/-! Declarations. A symbol of an outline was declared by two neighbouring tokens, a keyword and an
identifier, and stands under its own name. Between the two the text has a gap that ends with a blank, for
else the keyword would have gone on into the name. -/
namespace LanguageService

namespace Outline

/- What two neighbours of a token list declare. -/
inductive Declares (tokens : List Token) : Symbol → Prop where
  | site {before after : List Token} {keyword name : Token} {d : Declarator} :
    tokens = before ++ keyword :: name :: after → keyword.isKeyword d.keyword = true →
    name.isIdentifier = true → Declares tokens (symbol d keyword name)

structure Sound (tokens : List Token) (o : Outline) : Prop where
  distinct : o.symbols.keys.Nodup
  declared : ∀ name s, o.lookup? name = some s → s.name = name ∧ Declares tokens s

theorem declareSound {tokens : List Token} {o : Outline} {s : Symbol} (sound : Sound tokens o)
    (declares : Declares tokens s) : Sound tokens (o.declare s) := by
  refine ⟨Table.nodupInsert sound.distinct s.name s, fun name found held => ?_⟩
  rw [lookup?, declare, Table.getInsert] at held
  split at held
  · rename_i same
    cases held
    exact ⟨same.symm, declares⟩
  · exact sound.declared name found held

theorem readSound {before rest : List Token} {t : Token} {o : Outline}
    (sound : Sound (before ++ t :: rest) o) : Sound (before ++ t :: rest) (o.read t rest).1 := by
  unfold read
  split
  · split
    · split
      · split
        · exact ⟨sound.distinct, sound.declared⟩
        · exact sound
      · exact sound
    · exact sound
  · split
    · rename_i d name after declarator
      split
      · rename_i named
        have keyword : t.isKeyword d.keyword = true := by
          simpa using List.find?_some declarator
        exact declareSound sound (.site rfl keyword named)
      · exact sound
    · exact sound

theorem collectSound {tokens : List Token} (before rest : List Token) (o : Outline)
    (split : tokens = before ++ rest) (sound : Sound tokens o) : Sound tokens (o.collect rest) := by
  fun_induction collect o rest generalizing before with
  | case1 => exact sound
  | case2 o t rest next more taken ih =>
    subst split
    have kept := readSound sound
    rw [taken] at kept
    -- the tokens that the read took now stand before the rest
    refine ih (before ++ t :: rest.take more) ?_ kept
    simp

theorem ofTokensSound (tokens : List Token) : Sound tokens (ofTokens tokens) :=
  collectSound [] tokens {} rfl ⟨List.nodup_nil, by simp [lookup?, Table.get?, EmptyCollection.emptyCollection]⟩

end Outline

namespace Token

/- Behind a comment a gap goes on at least to the line feed. -/
theorem gapEnds {lead gap c rest} (skipped : Gap lead gap (c :: rest)) (visible : Text.isBlank c = false) :
    ∀ d, gap.getLast? = some d → Text.isBlank d = true := by
  generalize behind : c :: rest = after at skipped
  induction skipped with
  | nil => simp
  | @blank b gap _ skipped tail ih =>
    intro d last
    cases gap with
    | nil => cases last; exact skipped
    | cons e gap => exact ih behind d (by simpa using last)
  | @comment body gap _ row stops tail ih =>
    intro d last
    cases gap with
    | nil =>
      have feed : c = '\n' := stops c (by simp [← behind])
      subst feed
      cases visible
    | cons e gap => exact ih behind d (by simpa using last)

structure Site (src left gap right : List Char) (keyword name : Token) : Prop where
  text : src = left ++ (keyword.text.toList ++ (gap ++ (name.text.toList ++ right)))
  start : keyword.start = Place.ofText left
  range : name.range = ⟨Place.ofText (left ++ (keyword.text.toList ++ gap)),
    Place.ofText (left ++ (keyword.text.toList ++ gap) ++ name.text.toList)⟩
  reserved : Wordlike keyword.text.toList
  spaced : ∃ d, gap.getLast? = some d ∧ Text.isBlank d = true
  word : Wordlike name.text.toList
  free : Vocabulary.isKeyword name.text = false
  longest : Next (isWordChar · = false) right

theorem neighbourSite {lead left first second later last}
    (cut : Cut lead left (first :: second :: later) last) (reserved : first.token.kind = .keyword)
    (free : second.token.kind = .identifier) :
    Site (left ++ joined (first :: second :: later) last) (left ++ first.gap) second.gap (joined later last)
      first.token second.token := by
  cases cut with
  | @cons _ gap spelled lexeme _ _ skipped opens lexed tail =>
  cases tail with
  | @cons _ space word lexeme' _ _ skipped' opens' lexed' tail' =>
  obtain ⟨keyed, stops, wrote, _⟩ := lexesWord lexed (.inl reserved)
  obtain ⟨named, longest, wrote', unreserved⟩ := lexesWord lexed' (.inr free)
  have standing := headStanding left gap opens lexed
  have standing' := headStanding (left ++ gap ++ spelled) space opens' lexed'
  have keyText : (String.ofList lexeme.text).toList = spelled := by rw [wrote, String.toList_ofList]
  have nameText : (String.ofList lexeme'.text).toList = word := by rw [wrote', String.toList_ofList]
  have spaced : ∃ d, space.getLast? = some d ∧ Text.isBlank d = true := by
    obtain ⟨c, run, rfl, starts, _⟩ := named
    cases final : space.getLast? with
    | some d => exact ⟨d, rfl, gapEnds skipped' (opens'.1 c rfl) d final⟩
    | none =>
      -- without a gap the keyword would have gone on into the name
      obtain rfl := List.getLast?_eq_none_iff.mp final
      have more : isWordChar c = false := stops c (by simp [joinedCons])
      rw [isWordChar, starts, Bool.true_or] at more
      cases more
  refine ⟨?_, standing.start, ?_, ?_, spaced, ?_, ?_, longest⟩
  · simp only [joinedCons, Lexeme.token, keyText, nameText, List.append_assoc]
  · rw [Token.range, standing'.start, standing'.stop]
    simp only [Lexeme.token, keyText, nameText, List.append_assoc]
  · simpa only [Lexeme.token, keyText] using keyed
  · simpa only [Lexeme.token, nameText] using named
  · simpa only [Lexeme.token, wrote'] using unreserved free

theorem siteExists {lead : CommentLead} {src : String} {before after : List Token} {keyword name : Token}
    (tokens : ofSource lead src = before ++ keyword :: name :: after) (reserved : keyword.kind = .keyword)
    (free : name.kind = .identifier) : ∃ left gap right, Site src.toList left gap right keyword name := by
  obtain ⟨pieces, last, text, cut, found⟩ := cutTokens lead src
  obtain ⟨earlier, _, rfl, _, both⟩ := List.map_eq_append_iff.mp (found.trans tokens)
  obtain ⟨first, _, rfl, rfl, one⟩ := List.map_eq_cons_iff.mp both
  obtain ⟨second, later, rfl, rfl, _⟩ := List.map_eq_cons_iff.mp one
  have site := neighbourSite (cutSplit cut) reserved free
  rw [List.nil_append, ← joinedAppend, text] at site
  exact ⟨_, _, _, site⟩

end Token

namespace Token.Site

variable {src left gap right : List Char} {keyword name : Token} (site : Site src left gap right keyword name)
include site

theorem startsName : name.start = Place.ofText (left ++ (keyword.text.toList ++ gap)) :=
  congrArg Range.start site.range

theorem stopsName : name.stop = ⟨name.start.line, name.start.character + name.text.length⟩ := by
  have stop : name.stop = Place.ofText (left ++ (keyword.text.toList ++ gap) ++ name.text.toList) :=
    congrArg Range.stop site.range
  rw [stop, site.startsName, Place.ofTextAppend site.word.row, String.length_toList]

theorem contains : Range.contains ⟨keyword.start, name.stop⟩ name.range = true := by
  have ordered := Place.precedesAppend left (keyword.text.toList ++ gap)
  have same : name.stop.precedes name.stop = true := by
    rw [Place.precedesIff]
    omega
  rw [Range.contains, site.start, Bool.and_eq_true]
  exact ⟨by rw [site.range]; exact ordered, same⟩

end Token.Site
end LanguageService
