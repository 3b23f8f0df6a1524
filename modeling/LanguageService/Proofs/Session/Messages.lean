import LanguageService.Proofs.Source.Place
import LanguageService.Proofs.Text.Points
import LanguageService.Session.Serve

/-! Messages about documents, read as data: which document they name, and what they say about
its text. A change of a text is sent as a whole text, or as a range with a text for it. -/
namespace LanguageService.Session

abbrev Message := List (Text × Json)

def Notifies (message : Message) (name : Text) : Prop :=
  message.lookup (.plain "method") = some (.text name) ∧ ((message.lookup (.plain "id")).getD .null).isNull = true

def Requests (message : Message) (name : Text) : Prop :=
  message.lookup (.plain "method") = some (.text name) ∧ ((message.lookup (.plain "id")).getD .null).isNull = false

structure Names (message : Message) (uri : Text) (members document : List (Text × Json)) :
    Prop where
  given : message.lookup (.plain "params") = some (.object members)
  entry : members.lookup (.plain "textDocument") = some (.object document)
  name : document.lookup (.plain "uri") = some (.text uri)

def Opening (message : Message) (uri text : Text) : Prop :=
  ∃ members document, Names message uri members document ∧ document.lookup (.plain "text") = some (.text text)

def Changing (message : Message) (uri : Text) (changes : List Json) : Prop :=
  ∃ members document, Names message uri members document ∧
    (members.lookup (.plain "contentChanges")).getD (.list []) = .list changes

def Closing (message : Message) (uri : Text) : Prop :=
  ∃ members document, Names message uri members document

def Saving (message : Message) (uri : Text) (text : Option Text) : Prop :=
  ∃ members document, Names message uri members document ∧
    (members.lookup (.plain "text")).getD .null = (text.map Json.text).getD .null

def openingMessage (uri text : Text) : Message :=
  [("method", .text "textDocument/didOpen"),
    ("params", .object [("textDocument", .object [("uri", .text uri), ("text", .text text)])])]

def closingMessage (uri : Text) : Message :=
  [("method", .text "textDocument/didClose"),
    ("params", .object [("textDocument", .object [("uri", .text uri)])])]

theorem openingOpens (uri text : Text) : Opening (openingMessage uri text) uri text :=
  ⟨_, _, ⟨rfl, rfl, rfl⟩, rfl⟩

theorem closingCloses (uri : Text) : Closing (closingMessage uri) uri :=
  ⟨_, _, rfl, rfl, rfl⟩

theorem Names.parameters {message uri members document} (names : Names message uri members document) :
    Host.parameters message = .object members := by
  have filled : members ≠ [] := by rintro rfl; cases names.entry
  simp [Host.parameters, names.given, Json.isTruthy, filled]

theorem Names.found {message uri members document} (names : Names message uri members document) :
    Session.document (.object members) = .ok (.object document) := by
  simp [Session.document, Json.memberD, names.entry]

theorem Names.located {message uri members document} (names : Names message uri members document) :
    documentUri (.object members) = .ok (.text uri) := by
  simp [documentUri, names.found, Json.memberD, names.name, bind, Except.bind]

end LanguageService.Session

namespace LanguageService
open Text (Point)

structure Change.Spot where
  line : Nat
  character : Nat

inductive Change where
  | whole (text : Text)
  | part (start stop : Change.Spot) (text : Text)

namespace Change

def Spot.Sent (place : Json) (spot : Spot) : Prop :=
  ∃ members, place = .object members ∧ members.lookup (.plain "line") = some (.int spot.line) ∧
    members.lookup (.plain "character") = some (.int spot.character)

/-- A change as it is sent; a range that is null counts as none. -/
inductive Sent : Json → Change → Prop where
  | whole {members text} (given : members.lookup (.plain "text") = some (.text text))
      (all : (members.lookup (.plain "range")).getD .null = .null) : Sent (.object members) (.whole text)
  | part {members range head tail start stop text} (given : members.lookup (.plain "text") = some (.text text))
      (within : members.lookup (.plain "range") = some (.object range))
      (first : range.lookup (.plain "start") = some head) (last : range.lookup (.plain "end") = some tail)
      (starts : Spot.Sent head start) (stops : Spot.Sent tail stop) :
      Sent (.object members) (.part start stop text)

def Spot.toJson (spot : Spot) : Json :=
  .object [("line", .int spot.line), ("character", .int spot.character)]

def toJson : Change → Json
  | whole text => .object [("text", .text text)]
  | part start stop text =>
    .object [("range", .object [("start", start.toJson), ("end", stop.toJson)]), ("text", .text text)]

theorem toJsonSent (change : Change) : Sent change.toJson change := by
  cases change with
  | whole text => exact .whole rfl rfl
  | part start stop text => exact .part rfl rfl rfl rfl ⟨_, rfl, rfl, rfl⟩ ⟨_, rfl, rfl, rfl⟩

/-- Where a place is in a text: past the end of a line it is the end of the line, and past the
last line the end of the text. -/
def Spot.offset (spot : Spot) (src : List Char) : Nat :=
  let lines := Text.lines src
  if lines.length ≤ spot.line then src.length
  else Edit.lineStart lines spot.line + min spot.character (lines.getD spot.line []).length

/- A text as its places are counted. -/
abbrev shown (src : List Point) : List Char := src.map Point.shown

def apply (src : List Point) : Change → List Point
  | whole text => text.points
  | part start stop text => src.take (start.offset (shown src)) ++ text.points ++ src.drop (stop.offset (shown src))

theorem spotOffset (spot : Spot) (src : List Char) :
    Edit.offset? src spot.line spot.character = some (spot.offset src : Int) := by
  unfold Edit.offset? Spot.offset
  by_cases past : (Text.lines src).length ≤ spot.line
  · simp [past]
  · have within : ¬ ((Text.lines src).length : Int) ≤ spot.line := by omega
    simp only [within, past, if_false, Place.lineIndexNatural (Nat.lt_of_not_le past),
      Option.map_some, Edit.column]
    congr 1
    omega

theorem endOffsetSent {place : Json} {spot : Spot} (sent : Spot.Sent place spot) (s : Text) :
    Edit.endOffset (.text s) place = .ok (.exact (spot.offset (shown s.points))) := by
  obtain ⟨members, rfl, line, character⟩ := sent
  simp [Edit.endOffset, Json.subscript, line, character, Edit.offsetOf, Edit.textOffset,
    Json.integer?, Text.shownPoints, spotOffset, bind, Except.bind]

theorem spliceNatural {α : Type} (src : List α) (start stop : Nat) (text : List α) :
    Edit.splice src start stop text = src.take start ++ text ++ src.drop stop := by
  have natural (n : Nat) : ¬ (n : Int) < 0 := by omega
  simp only [Edit.splice, Edit.before, Edit.after, natural, if_false, Int.toNat_natCast]

theorem applySent {value : Json} {change : Change} (sent : Sent value change) (s : Text) :
    Edit.apply (.text s) value = .ok (.text (.ofPoints (change.apply s.points))) := by
  cases sent with
  | whole given all =>
    simp [Edit.apply, Json.member, Json.memberD, given, all, Json.isNull, apply, Text.ofPointsPoints, bind,
      Except.bind, pure, Except.pure]
  | part given within first last starts stops =>
    simp [Edit.apply, Json.member, Json.memberD, given, within, Json.isNull, Json.subscript, first,
      last, endOffsetSent starts, endOffsetSent stops, Edit.replace, spliceNatural,
      apply, bind, Except.bind]

theorem applyPlain {value : Json} {start stop : Spot} {text : String} (sent : Sent value (.part start stop text))
    (s : String) : Edit.apply (.text s) value = .ok (.text (String.ofList
      (s.toList.take (start.offset s.toList) ++ text.toList ++ s.toList.drop (stop.offset s.toList)))) := by
  have whole : shown (s.toList.map .char) = s.toList := by simp [Function.comp_def]
  rw [applySent sent, apply, Text.points, whole, ← Text.ofCharsPlain]
  simp only [Text.points, List.map_append, List.map_take, List.map_drop]

inductive Changed : List Point → List Json → List Point → Prop where
  | nil {src} : Changed src [] src
  | cons {src value change rest out} (sent : Sent value change)
      (tail : Changed (change.apply src) rest out) : Changed src (value :: rest) out

theorem changedExists {values : List Json} (sent : ∀ value ∈ values, ∃ change, Sent value change)
    (src : List Point) : ∃ out, Changed src values out := by
  induction values generalizing src with
  | nil => exact ⟨src, .nil⟩
  | cons value rest ih =>
    obtain ⟨change, first⟩ := sent value List.mem_cons_self
    obtain ⟨out, tail⟩ := ih (fun v member => sent v (List.mem_cons_of_mem _ member)) (change.apply src)
    exact ⟨out, .cons first tail⟩

end Change
end LanguageService
