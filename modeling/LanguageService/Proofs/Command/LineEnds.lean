import LanguageService.Proofs.Command.Check
import LanguageService.Proofs.Language.Locality
import LanguageService.Proofs.Session.Publishing

/-! Line ends. A carriage return before a line feed adds nothing to a text: tokens, outline and findings are
those of the text without it. So a file that is read with its line ends made alike has the findings that a
session publishes for the text as it stands in the file. -/
namespace LanguageService

namespace Text

/- Each carriage return that has a line feed behind it is left out. -/
def bareFeeds : List Char → List Char
  | [] => []
  | '\r' :: '\n' :: rest => '\n' :: bareFeeds rest
  | c :: rest => c :: bareFeeds rest

def ReturnsPaired (src : List Char) : Prop := ∀ i < src.length, src[i]? = some '\r' → src[i + 1]? = some '\n'

instance (src : List Char) : Decidable (ReturnsPaired src) :=
  inferInstanceAs (Decidable (∀ i < src.length, src[i]? = some '\r' → src[i + 1]? = some '\n'))

theorem ReturnsPaired.behind {c : Char} {rest : List Char} (paired : ReturnsPaired (c :: rest)) :
    ReturnsPaired rest := by
  intro i inside found
  exact paired (i + 1) (by simpa using inside) found

theorem unifyPaired {src : List Char} (paired : ReturnsPaired src) : unifyLineEnds src = bareFeeds src := by
  fun_induction bareFeeds src with
  | case1 => rfl
  | case2 rest ih => rw [unifyLineEnds, ih paired.behind.behind]
  | case3 c rest other ih =>
    have plain : c ≠ '\r' := by
      rintro rfl
      have feed : rest[0]? = some '\n' := paired 0 (by simp) rfl
      cases rest with
      | nil => cases feed
      | cons d below =>
        cases feed
        exact other below rfl rfl
    rw [unifyLineEnds, ih paired.behind]
    · exact fun below same => absurd same plain
    · exact plain

end Text

namespace Token

theorem gapReturn {lead gap} (skipped : Gap lead gap []) : Gap lead (gap ++ ['\r']) [] := by
  generalize last : ([] : List Char) = rest at skipped
  induction skipped with
  | nil =>
    subst last
    exact .blank (by decide) .nil
  | blank skipped tail ih => exact .blank skipped (ih last)
  | @comment body gap rest row stops tail ih =>
    subst last
    cases gap with
    | nil =>
      -- a comment that the text ends in takes the carriage return as well
      have comment : Gap lead (lead.chars ++ (body ++ ['\r']) ++ []) [] :=
        .comment (by simpa using row) (by simp [Next]) .nil
      simpa using comment
    | cons c gap =>
      rw [List.append_assoc]
      exact .comment row (fun d head => stops d head) (ih rfl)

theorem joinedReturn (pieces : List Piece) (last : List Char) :
    joined pieces (last ++ ['\r']) = joined pieces last ++ ['\r'] := by
  simp [joined]

theorem cutReturn {lead before pieces last} (cut : Cut lead before pieces last) :
    Cut lead before pieces (last ++ ['\r']) := by
  induction cut with
  | nil skipped => exact .nil (gapReturn skipped)
  | @cons before gap spelled found pieces last skipped opens lexed tail ih =>
    obtain ⟨c, more, same, _⟩ := lexemeOfLexes lexed
    have line : isLineEnd '\r' = true := by decide
    have starts := opensEnd opens (by simp [same]) line []
    rw [List.append_assoc, ← joinedReturn] at starts
    have lexes := lexesStops (stopsEnd line _ []) lexed
    rw [← joinedReturn] at lexes
    refine .cons (gapStops (fun feed d head => feed d ?_) skipped) starts lexes ih
    simpa [same] using head

theorem scanReturn (lead : CommentLead) (src : List Char) : scan lead 0 0 (src ++ ['\r']) = scan lead 0 0 src := by
  obtain ⟨pieces, last, rfl, cut⟩ := cutExists lead [] src
  rw [← joinedReturn]
  exact (scanCut (cutReturn cut)).trans (scanCut cut).symm

theorem scanBare (lead : CommentLead) (above src : List Char) :
    scan lead 0 0 (above ++ Text.bareFeeds src) = scan lead 0 0 (above ++ src) := by
  fun_induction Text.bareFeeds src generalizing above with
  | case1 => rfl
  | case2 rest ih =>
    have text : above ++ '\r' :: '\n' :: rest = above ++ ['\r'] ++ '\n' :: rest := by simp
    have rows : (above ++ ['\r']).count '\n' = above.count '\n' := by simp
    have later : scan lead 0 0 (Text.bareFeeds rest) = scan lead 0 0 rest := ih []
    rw [text, scanBelow, scanBelow, scanReturn, rows, later]
  | case3 c rest other ih => simpa using ih (above ++ [c])

theorem ofSourceBare (lead : CommentLead) (src : String) :
    ofSource lead (String.ofList (Text.bareFeeds src.toList)) = ofSource lead src := by
  rw [ofSource, String.toList_ofList]
  exact scanBare lead [] src.toList

end Token

/- A file with a text in it, as its bytes are written. -/
def Disk.Holds (d : Disk) (path : String) (src : String) : Prop :=
  ∃ bytes, d.read path = .ok bytes ∧ Text.Utf8.decodeChars bytes = .ok src.toList

theorem Disk.readPaired {d : Disk} {path src : String} (holds : d.Holds path src)
    (paired : Text.ReturnsPaired src.toList) :
    d.readText path = .ok (String.ofList (Text.bareFeeds src.toList)) := by
  obtain ⟨bytes, found, text⟩ := holds
  rw [← Text.unifyPaired paired]
  simp [readText, found, text, bind, Except.bind, pure, Except.pure]

namespace Session

/- These are the findings that a text is published with: at once where it is opened, in whatever state, and as
the last word on a document for as long as the document has this text. -/
structure Publishes (lead : CommentLead) (src : String) (found : List Finding) : Prop where
  opened : ∀ link message (uri : String), Notifies message "textDocument/didOpen" → Opening message uri src →
    link.host.settings.lead = lead →
    (step link message).2.sent =
      link.sent ++ [report (.text uri) (if link.host.settings.diagnostics then found else [])]
  kept : ∀ link past (uri : String) b, History link past → link.host.settings.lead = lead →
    link.host.buffers.get? (.text uri) = some b → b.content = .text src →
    lastReport? uri link.sent =
      some (report (.text uri) (if link.host.settings.diagnostics then found else []))

theorem publishes (lead : CommentLead) (src : String) :
    Publishes lead src (Finding.ofTokens (Token.ofSource lead src)) where
  opened link message uri notified opening same := by
    have takes : Session.Takes link.host ("Document opened: " ++ uri) := .inl rfl
    obtain ⟨b, name, content, ran⟩ := didOpenRun opening takes
    rw [runAnalyse name content] at ran
    rw [stepNotified notified rfl ran, name, ← same]
    rfl
  kept link past uri b history same held content := by
    have last := (historyReported history).opened uri b src held content
    rw [last, findings, same]
    rfl

end Session

namespace Command

theorem findingsPaired {disk : Disk} {file src : String} (holds : disk.Holds file src)
    (paired : Text.ReturnsPaired src.toList) (lead : CommentLead) :
    findingsOf disk lead file = Finding.ofTokens (Token.ofSource lead src) := by
  rw [findingsOf, Disk.readPaired holds paired]
  exact congrArg Finding.ofTokens (Token.ofSourceBare lead src)

theorem passesPaired {disk : Disk} {file src : String} (holds : disk.Holds file src)
    (paired : Text.ReturnsPaired src.toList) : Passes disk file := by
  intro fault halts
  cases (Disk.readPaired holds paired).symm.trans (haltsIff.mp halts).1

/- A file that could be read, with these findings in it and nothing else to report. -/
structure Prints (result : Result) (file : String) (found : List Finding) : Prop where
  output : result.output = Text.Utf8.encode (String.join (found.map (told file)))
  errors : result.errors = if found = [] then "" else toString found.length ++ " problem(s) found\n"
  ending : result.ending = .exit (if found = [] then 0 else 1)

theorem checkPaired {disk : Disk} {path : Option String} {choice : Option CommentLead} {settings : Settings}
    (resolved : resolveSettings disk path choice = .ok settings) {file src : String} (holds : disk.Holds file src)
    (paired : Text.ReturnsPaired src.toList) :
    Prints (check disk path choice [file]) file (Finding.ofTokens (Token.ofSource settings.lead src)) := by
  have reported := checkReports resolved (List.forall_mem_singleton.mpr (passesPaired holds paired))
  have found := findingsPaired holds paired settings.lead
  have quiet : complaintsOf disk file = [] := by rw [complaintsOf, Disk.readPaired holds paired]
  have clean : (check disk path choice [file]).ending = .exit 0 ↔
      Finding.ofTokens (Token.ofSource settings.lead src) = [] := by
    simp [reported.clean, Disk.readPaired holds paired, Token.ofSourceBare]
  refine ⟨?_, ?_, ?_⟩
  · simpa [found] using reported.output
  · simpa [found, quiet] using reported.errors
  · split
    · exact clean.mpr ‹_›
    · exact reported.ending.resolve_left fun good => absurd (clean.mp good) ‹_›

theorem lineEndsAlike (lead : CommentLead) (src : String) :
    Token.ofSource lead src = Token.ofSource lead (String.ofList (Text.bareFeeds src.toList)) ∧
    Outline.ofSource lead src = Outline.ofSource lead (String.ofList (Text.bareFeeds src.toList)) ∧
    Finding.ofTokens (Token.ofSource lead src) =
      Finding.ofTokens (Token.ofSource lead (String.ofList (Text.bareFeeds src.toList))) ∧
    (∀ disk path choice settings file, resolveSettings disk path choice = .ok settings → settings.lead = lead →
      disk.Holds file src → Text.ReturnsPaired src.toList →
      Prints (check disk path choice [file]) file (Finding.ofTokens (Token.ofSource lead src))) ∧
    Session.Publishes lead src (Finding.ofTokens (Token.ofSource lead src)) := by
  have tokens := Token.ofSourceBare lead src
  refine ⟨tokens.symm, ?_, ?_, ?_, Session.publishes lead src⟩
  · rw [Outline.ofSource, Outline.ofSource, tokens]
  · rw [tokens]
  · rintro disk path choice settings file resolved rfl holds paired
    exact checkPaired resolved holds paired

/- A literal that its line cuts short, a number without its digits, a comment. -/
def returnsText : String := "let s = \"a\\\r\nlet n = 1.\r\n-- x\r\n"

def returnsDisk : Disk where
  files := ⟨[(["a.ast"], Text.Utf8.encode returnsText)]⟩

def returnsLink : Session.Link :=
  (Session.step Session.freshLink (Session.openingMessage "file:///a.ast" returnsText)).2

def returnsFindings : List Finding :=
  [⟨⟨⟨0, 8⟩, ⟨0, 10⟩⟩, .unterminatedString⟩, ⟨⟨⟨1, 8⟩, ⟨1, 10⟩⟩, .invalidNumber⟩]

theorem returnsAlike :
    resolveSettings returnsDisk none none = .ok {} ∧ returnsDisk.Holds "a.ast" returnsText ∧
    Text.ReturnsPaired returnsText.toList ∧ Session.History returnsLink [Session.freshLink] ∧
    Prints (check returnsDisk none none ["a.ast"]) "a.ast" returnsFindings ∧
    Session.lastReport? "file:///a.ast" returnsLink.sent =
      some (Session.report (.text "file:///a.ast") returnsFindings) := by
  have resolved : resolveSettings returnsDisk none none = .ok {} := rfl
  have holds : returnsDisk.Holds "a.ast" returnsText := ⟨_, rfl, by decide +kernel⟩
  have paired : Text.ReturnsPaired returnsText.toList := by decide
  have found : Finding.ofTokens (Token.ofSource .dashes returnsText) = returnsFindings := by decide +kernel
  obtain ⟨b, content, opened⟩ := Session.openingStep Session.freshLink "file:///a.ast" returnsText
  have settings : returnsLink.host.settings = {} := by
    rw [returnsLink, opened]
    rfl
  have held : returnsLink.host.buffers.get? (.text "file:///a.ast") = some b := by
    rw [returnsLink, opened, Session.filed, Session.stored, Table.getInsert, if_pos rfl]
  have history : Session.History returnsLink [Session.freshLink] :=
    .more (.start {} .none none) (Session.openingAdmitted _ rfl _ _)
  obtain ⟨_, _, _, prints, publishes⟩ := lineEndsAlike .dashes returnsText
  have printed := prints returnsDisk none none {} "a.ast" resolved rfl holds paired
  have last := publishes.kept returnsLink _ "file:///a.ast" b history (by rw [settings]) held content
  rw [settings, found] at last
  rw [found] at printed
  exact ⟨resolved, holds, paired, history, printed, last⟩

end Command
end LanguageService
