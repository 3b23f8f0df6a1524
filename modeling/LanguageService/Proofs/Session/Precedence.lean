import LanguageService.Command.Run
import LanguageService.Proofs.Session.LogFile

/-! Which settings a session begins with. What the client asks for comes before what the settings file says, and
that before the defaults, for each setting by itself; a source with something wrong in it is left out, and the
other one counts all the same. -/
namespace LanguageService.Session
open LanguageService.Act (Within)
open LanguageService.Settings (Options offered resolved sound fileValue?)

theorem fileSettingsNamed {s : Session} {path : String} (given : s.settingsPath = some path) (named : path ≠ "") :
    fileSettings s = .ok (some (Settings.load s.disk path)) := by
  simp [fileSettings, given, Option.filter, named]

theorem announceUntouched : Within Untouched announce :=
  untouchedRules.bind untouchedRules.openLogHolds fun _ =>
    untouchedRules.session (fun _ _ => rfl) fun _ => untouchedRules.note _

theorem loadResolves {options : Json} {link : Link} {path : String} (given : link.host.settingsPath = some path)
    (named : path ≠ "") (fresh : link.host.settings = {}) :
    ((loadSettings options).exec link).2.host.settings =
      resolved [offered (some options), offered (fileValue? link.host.disk path)] := by
  obtain ⟨base, chosen, _, ran⟩ := loadRun options (fileSettingsNamed given named)
  have file : chosenSettings {} (some (Settings.load link.host.disk path)) =
      resolved [offered (fileValue? link.host.disk path)] := by
    rw [← Settings.loadResolved]
    cases Settings.load link.host.disk path <;> rfl
  rw [ran, (announceUntouched base).settings, chosen, fresh, file, Settings.overriddenResolved]

/- The settings that two sources come to, and when each of them counts. -/
structure Precedence (options : Json) (disk : Disk) (path : String) (settings : Settings) : Prop where
  settled : settings = resolved [offered (some options), offered (fileValue? disk path)]
  accepted : ∀ held : Settings, (∃ s, held.updated options = .ok s) ↔
    options.isTruthy = false ∨ ∃ members, options = .object members ∧ sound members = true
  loaded : (∃ s, Settings.load disk path = .ok s) ↔
    ∃ members, fileValue? disk path = some (.object members) ∧ sound members = true

theorem settingsPrecede (disk : Disk) (sink : Sink) {path : String} (named : path ≠ "") {message : Message}
    {root options : Json} (requested : Requests message "initialize")
    (read : introduced (Host.parameters message) = .ok (root, options)) :
    let fresh := Command.newLink disk sink (some path)
    Takes fresh.host (rootLine root) →
    Precedence options (introducing root fresh).host.disk path (step fresh message).2.host.settings ∧
      (sink = .none → (introducing root fresh).host.disk = disk) := by
  intro fresh takes
  refine ⟨⟨?_, fun held => Settings.updatedIff held options, Settings.loadIff _ path⟩, ?_⟩
  · obtain ⟨workspaceFolders, registersConfiguration, ran⟩ := setUpRun read takes
    obtain ⟨disk, log, same⟩ := introducingHost root fresh
    refine requestKeeps (P := fun link => link.host.settings = _) (fun line link kept => ?_) requested rfl ?_
    · obtain ⟨_, _, told⟩ := toldHost line link
      rw [told]
      exact kept
    · rw [ran, same]
      exact loadResolves rfl named rfl
  · rintro rfl
    exact toldUnfiled (rootLine root) rfl

/- A settings file, and clients with other options. -/
def settingsDisk : Disk where
  files := ⟨[(["s.json"], Text.Utf8.encode "\x7b\"commentLead\": \"%\", \"diagnostics\": false\x7d")]⟩

def beginning (options : Options) : Message :=
  [("jsonrpc", .text "2.0"), ("id", .int 1), ("method", .text "initialize"),
    ("params", .object [("initializationOptions", .object options)])]

def begun (options : Options) : Link :=
  (step (Command.newLink settingsDisk .none (some "s.json")) (beginning options)).2

/- One client is heard, and one with an unknown comment lead is not. -/
theorem clientsPrecede :
    Requests (beginning [("diagnostics", .bool true)]) "initialize" ∧
    introduced (Host.parameters (beginning [("diagnostics", .bool true)])) =
      .ok (.null, .object [("diagnostics", .bool true)]) ∧
    (begun [("diagnostics", .bool true)]).host.settings = { lead := .percent, diagnostics := true } ∧
    (begun [("diagnostics", .bool true), ("commentLead", .text "#")]).host.settings =
      { lead := .percent, diagnostics := false } := by
  have named : "s.json" ≠ "" := by decide
  have heard : Requests (beginning [("diagnostics", .bool true)]) "initialize" := ⟨rfl, rfl⟩
  have unheard : Requests (beginning [("diagnostics", .bool true), ("commentLead", .text "#")]) "initialize" :=
    ⟨rfl, rfl⟩
  refine ⟨heard, rfl, ?_, ?_⟩
  · exact (settingsPrecede settingsDisk .none named heard rfl (.inr rfl)).1.settled.trans (by decide +kernel)
  · exact (settingsPrecede settingsDisk .none named unheard rfl (.inr rfl)).1.settled.trans (by decide +kernel)

end LanguageService.Session
