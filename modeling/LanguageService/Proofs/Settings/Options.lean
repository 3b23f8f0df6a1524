import LanguageService.Settings.File

/-! What settings come to. A source offers all of its options or none: a known option with a wrong value makes
the whole of it count for nothing. Each setting is decided by the first source that holds its option. -/
namespace LanguageService.Settings

abbrev Options := List (Text × Json)

def leadOf? : Json → Option CommentLead
  | .text "--" => some .dashes
  | .text "%" => some .percent
  | _ => none

def logFileOf? : Json → Option (Option Text)
  | .null => some none
  | .text "" => some none
  | .text path => some (some path)
  | _ => none

def diagnosticsOf? : Json → Option Bool
  | .bool b => some b
  | _ => none

/- A reader of an option that knows its values by a meaning, whatever it says about others. -/
def Reads {α : Type} (read : Json → Except Fault α) (meaning : Json → Option α) : Prop :=
  ∀ v, (read v).toOption = meaning v

theorem leadReads : Reads readLead leadOf? := by
  intro v
  cases v with
  | text s =>
    cases s with
    | plain s =>
      by_cases dashes : s = "--"
      · rw [dashes]
        rfl
      by_cases percent : s = "%"
      · rw [percent]
        rfl
      simp [readLead, leadOf?, CommentLead.ofText?, CommentLead.all, CommentLead.text, dashes, percent,
        Ne.symm dashes, Ne.symm percent, Except.toOption]
    | rough points halved => rfl
  | _ => rfl

theorem logFileReads : Reads readLogFile logFileOf? := by
  intro v
  cases v with
  | text s =>
    by_cases empty : s = .plain "" <;> simp [readLogFile, logFileOf?, empty, Except.toOption]
  | _ => rfl

theorem diagnosticsReads : Reads readDiagnostics diagnosticsOf? := by
  intro v
  cases v <;> rfl

/- An option is not given, or its value has a meaning. -/
def fits {α : Type} (meaning : Json → Option α) (name : Text) (options : Options) : Bool :=
  (options.lookup name).all fun v => (meaning v).isSome

def sound (options : Options) : Bool :=
  fits leadOf? "commentLead" options && fits logFileOf? "logFile" options &&
    fits diagnosticsOf? "diagnostics" options

/- The options that a source brings in: those of an object with nothing wrong in it. -/
def offered : Option Json → Options
  | some (.object options) => if sound options then options else []
  | _ => []

/- What the first source that holds an option says about it. -/
def decided {α : Type} (meaning : Json → Option α) (name : Text) (default : α) (sources : List Options) : α :=
  ((sources.findSome? fun options => options.lookup name).bind meaning).getD default

def resolved (sources : List Options) : Settings where
  lead := decided leadOf? "commentLead" .dashes sources
  logFile := decided logFileOf? "logFile" none sources
  diagnostics := decided diagnosticsOf? "diagnostics" true sources

section option
variable {α : Type} {read : Json → Except Fault α} {meaning : Json → Option α}

theorem optionFits (reads : Reads read meaning) (name : Text) (options : Options) (held : α) :
    (∃ a, option options name held read = .ok a) ↔ fits meaning name options = true := by
  cases found : options.lookup name with
  | none => simp [option, fits, found]
  | some v =>
    simp only [option, fits, found, Option.all_some, ← reads v]
    cases read v <;> simp [Except.toOption]

theorem optionDecides (reads : Reads read meaning) {name : Text} {options : Options} {default a : α}
    {sources : List Options}
    (taken : option options name (decided meaning name default sources) read = .ok a) :
    a = decided meaning name default (options :: sources) := by
  cases found : options.lookup name with
  | none =>
    simp only [option, found, Except.ok.injEq] at taken
    simp [← taken, decided, found]
  | some v =>
    simp only [option, found] at taken
    have meant := reads v
    rw [taken] at meant
    simp [decided, found, ← meant, Except.toOption]

end option

theorem appliedIff {held s : Settings} {options : Options} :
    held.applied options = .ok s ↔
      option options "commentLead" held.lead readLead = .ok s.lead ∧
      option options "logFile" held.logFile readLogFile = .ok s.logFile ∧
      option options "diagnostics" held.diagnostics readDiagnostics = .ok s.diagnostics := by
  obtain ⟨lead, logFile, diagnostics⟩ := s
  unfold applied
  cases option options "commentLead" held.lead readLead <;>
    cases option options "logFile" held.logFile readLogFile <;>
    cases option options "diagnostics" held.diagnostics readDiagnostics <;>
    simp [bind, Except.bind, pure, Except.pure]

theorem appliedSound (held : Settings) (options : Options) :
    (∃ s, held.applied options = .ok s) ↔ sound options = true := by
  simp only [sound, Bool.and_eq_true, ← optionFits leadReads _ _ held.lead,
    ← optionFits logFileReads _ _ held.logFile, ← optionFits diagnosticsReads _ _ held.diagnostics]
  constructor
  · rintro ⟨s, taken⟩
    obtain ⟨lead, logFile, diagnostics⟩ := appliedIff.mp taken
    exact ⟨⟨⟨_, lead⟩, ⟨_, logFile⟩⟩, ⟨_, diagnostics⟩⟩
  · rintro ⟨⟨⟨lead, first⟩, ⟨logFile, second⟩⟩, ⟨diagnostics, third⟩⟩
    exact ⟨⟨lead, logFile, diagnostics⟩, appliedIff.mpr ⟨first, second, third⟩⟩

theorem appliedResolved {sources : List Options} {options : Options} {s : Settings}
    (taken : (resolved sources).applied options = .ok s) : s = resolved (options :: sources) := by
  obtain ⟨lead, logFile, diagnostics⟩ := appliedIff.mp taken
  rw [resolved, ← optionDecides leadReads lead, ← optionDecides logFileReads logFile,
    ← optionDecides diagnosticsReads diagnostics]

theorem resolvedNothing (sources : List Options) : resolved ([] :: sources) = resolved sources := rfl

/- The settings with what a client asks for, or as they were if it cannot be had. -/
def overridden (held : Settings) (options : Json) : Settings := (held.updated options).toOption.getD held

theorem overriddenOk {held s : Settings} {options : Json} (accepted : held.updated options = .ok s) :
    held.overridden options = s := by
  rw [overridden, accepted]
  rfl

theorem updatedObject (held : Settings) (options : Options) :
    held.updated (.object options) = held.applied options := by
  cases options with
  | nil => rfl
  | cons first rest => rfl

theorem updatedOther (held : Settings) {options : Json} (other : ∀ members, options ≠ .object members) :
    held.updated options = if options.isTruthy then .error (.notObject options.kind) else .ok held := by
  unfold updated
  cases truthy : options.isTruthy with
  | false => rfl
  | true =>
    cases options with
    | object members => exact absurd rfl (other members)
    | _ => rfl

theorem updatedIff (held : Settings) (options : Json) :
    (∃ s, held.updated options = .ok s) ↔
      options.isTruthy = false ∨ ∃ members, options = .object members ∧ sound members = true := by
  cases options with
  | object members =>
    rw [updatedObject, appliedSound]
    cases members <;> simp [Json.isTruthy, sound, fits]
  | _ =>
    rw [updatedOther held fun _ same => by cases same]
    split <;> simp_all

theorem overriddenSound (sources : List Options) {members : Options} (checked : sound members = true) :
    (resolved sources).overridden (.object members) = resolved (members :: sources) := by
  obtain ⟨s, taken⟩ := (appliedSound (resolved sources) members).mpr checked
  rw [overriddenOk ((updatedObject _ _).trans taken)]
  exact appliedResolved taken

theorem overriddenUnsound (held : Settings) {members : Options} (wrong : sound members = false) :
    held.overridden (.object members) = held := by
  rw [overridden, updatedObject]
  cases taken : held.applied members with
  | error fault => rfl
  | ok s =>
    rw [(appliedSound held members).mp ⟨s, taken⟩] at wrong
    cases wrong

theorem overriddenOther (held : Settings) {options : Json} (other : ∀ members, options ≠ .object members) :
    held.overridden options = held := by
  rw [overridden, updatedOther held other]
  cases options.isTruthy <;> rfl

/- One more source, from a client. -/
theorem overriddenResolved (sources : List Options) (options : Json) :
    (resolved sources).overridden options = resolved (offered (some options) :: sources) := by
  cases options with
  | object members =>
    cases checked : sound members with
    | true => rw [overriddenSound sources checked, offered, if_pos checked]
    | false => rw [overriddenUnsound _ checked, offered, checked, if_neg Bool.false_ne_true, resolvedNothing]
  | _ => exact overriddenOther _ fun _ same => by cases same

/- What stands in a file, if that can be read and is JSON. -/
def fileValue? (disk : Disk) (path : String) : Option Json :=
  (disk.readText path).toOption.bind fun content => (Json.parse content).toOption

/- The settings that such a value gives, if any. -/
def settingsOf? : Option Json → Option Settings
  | some (.object members) => (updated {} (.object members)).toOption
  | _ => none

theorem loadOption (disk : Disk) (path : String) :
    (load disk path).toOption = settingsOf? (fileValue? disk path) := by
  unfold load fileValue?
  cases disk.readText path with
  | error fault => rfl
  | ok content =>
    have kept : (Except.ok content : Except Disk.Fault String).mapError LoadFault.disk = .ok content := rfl
    simp only [kept, bind, Except.bind, Except.toOption, Option.bind_some]
    cases Json.parse content with
    | error fault => rfl
    | ok v =>
      cases v with
      | object members =>
        change ((updated {} (.object members)).mapError (LoadFault.rejected path)).toOption =
          (updated {} (.object members)).toOption
        cases updated {} (.object members) <;> rfl
      | _ => rfl

theorem loadIff (disk : Disk) (path : String) :
    (∃ s, load disk path = .ok s) ↔
      ∃ members, fileValue? disk path = some (.object members) ∧ sound members = true := by
  have ok {ε α : Type} (x : Except ε α) : (∃ a, x = .ok a) ↔ x.toOption.isSome = true := by
    cases x <;> simp [Except.toOption]
  rw [ok, loadOption]
  generalize fileValue? disk path = value
  rcases value with _ | value
  · simp [settingsOf?]
  cases value with
  | object members =>
    rw [settingsOf?, ← ok, updatedObject, appliedSound]
    simp
  | _ => simp [settingsOf?]

theorem loadResolved (disk : Disk) (path : String) :
    (load disk path).toOption.getD {} = resolved [offered (fileValue? disk path)] := by
  rw [loadOption]
  generalize fileValue? disk path = value
  rcases value with _ | value
  · rfl
  cases value with
  | object members => exact overriddenResolved [] (.object members)
  | _ => rfl

end LanguageService.Settings
