import LanguageService.Fault
import LanguageService.Proofs.Settings.Options
import LanguageService.Proofs.Table

/-! Options applied one after another. Two updates are one update with both objects merged, the later one before
the earlier, and an update looks at nothing but the known options, in whatever order they stand. -/
namespace LanguageService.Settings

/- An option with a value that it cannot have. -/
inductive Wrong (options : Options) : Prop where
  | lead {given} (held : options.lookup (.plain "commentLead") = some given)
      (dashes : given ≠ .text "--") (percent : given ≠ .text "%")
  | logFile {given} (held : options.lookup (.plain "logFile") = some given)
      (null : given ≠ .null) (text : ∀ path, given ≠ .text path)
  | diagnostics {given} (held : options.lookup (.plain "diagnostics") = some given) (flag : ∀ b, given ≠ .bool b)

theorem leadNone {v : Json} : leadOf? v = none ↔ v ≠ .text "--" ∧ v ≠ .text "%" := by
  unfold leadOf?
  split <;> simp_all

theorem logFileNone {v : Json} : logFileOf? v = none ↔ v ≠ .null ∧ ∀ path, v ≠ .text path := by
  unfold logFileOf?
  split <;> simp_all

theorem diagnosticsNone {v : Json} : diagnosticsOf? v = none ↔ ∀ b, v ≠ .bool b := by
  unfold diagnosticsOf?
  split <;> simp_all

theorem fitsFalse {α : Type} {meaning : Json → Option α} {name : Text} {options : Options} :
    fits meaning name options = false ↔ ∃ given, options.lookup name = some given ∧ meaning given = none := by
  rw [fits]
  cases options.lookup name <;> simp

theorem wrongIff {options : Options} : Wrong options ↔ sound options = false := by
  simp only [sound, Bool.and_eq_false_iff, fitsFalse, leadNone, logFileNone, diagnosticsNone]
  constructor
  · rintro (⟨held, dashes, percent⟩ | ⟨held, null, text⟩ | ⟨held, flag⟩)
    · exact .inl (.inl ⟨_, held, dashes, percent⟩)
    · exact .inl (.inr ⟨_, held, null, text⟩)
    · exact .inr ⟨_, held, flag⟩
  · rintro ((⟨given, held, dashes, percent⟩ | ⟨given, held, null, text⟩) | ⟨given, held, flag⟩)
    · exact .lead held dashes percent
    · exact .logFile held null text
    · exact .diagnostics held flag

theorem refusedIff (held : Settings) (v : Json) :
    (∃ fault, held.updated v = .error fault) ↔
      v.isTruthy = true ∧ ((∀ options, v ≠ .object options) ∨ ∃ options, v = .object options ∧ Wrong options) := by
  have either : (∃ fault, held.updated v = .error fault) ↔ ¬ ∃ s, held.updated v = .ok s := by
    cases held.updated v <;> simp
  rw [either, updatedIff, not_or, Bool.not_eq_false]
  refine and_congr_right fun truthy => ?_
  cases v with
  | object options => simp [wrongIff]
  | _ => simp

/- The options that a value holds; only an object holds any. -/
def given : Json → Options
  | .object options => options
  | _ => []

def names (options : Options) : List Text := options.map Prod.fst

theorem lookupAbsent {options : Options} {name : Text} (absent : name ∉ names options) :
    options.lookup name = none := by
  rw [List.lookup_eq_none_iff]
  rintro ⟨other, v⟩ member
  exact bne_iff_ne.mpr fun same => absent (List.mem_map.mpr ⟨_, member, same.symm⟩)

def changed (held : Settings) (options : Options) : Settings where
  lead := decided leadOf? "commentLead" held.lead [options]
  logFile := decided logFileOf? "logFile" held.logFile [options]
  diagnostics := decided diagnosticsOf? "diagnostics" held.diagnostics [options]

section option
variable {α : Type} {read : Json → Except Fault α} {meaning : Json → Option α} {name : Text} {held x : α}
  {first second both : Options}

theorem optionChanged (reads : Reads read meaning) (taken : option first name held read = .ok x) :
    x = decided meaning name held [first] :=
  optionDecides reads taken

theorem decidedKept (changes : decided meaning name held [first] ≠ held) : name ∈ names first := by
  by_contra absent
  exact changes (by simp [decided, lookupAbsent absent])

/- What the later object holds is read from it, and the rest was read before. -/
theorem optionMerged (merges : both.lookup name = (second.lookup name).or (first.lookup name))
    (taken : option first name held read = .ok x) : option second name x read = option both name held read := by
  cases found : second.lookup name with
  | none =>
    rw [found, Option.none_or] at merges
    rw [option, option, found, merges]
    exact taken.symm
  | some v =>
    rw [found, Option.some_or] at merges
    rw [option, option, found, merges]

end option

theorem appliedChanged {held s : Settings} {options : Options} (taken : held.applied options = .ok s) :
    s = held.changed options := by
  obtain ⟨lead, logFile, diagnostics⟩ := appliedIff.mp taken
  rw [changed, ← optionChanged leadReads lead, ← optionChanged logFileReads logFile,
    ← optionChanged diagnosticsReads diagnostics]

theorem updatedChanged {held s : Settings} {v : Json} (taken : held.updated v = .ok s) :
    s = held.changed (given v) := by
  cases v with
  | object options => exact appliedChanged ((updatedObject held options).symm.trans taken)
  | _ =>
    rw [updatedOther held fun _ same => by cases same] at taken
    split at taken
    · cases taken
    · cases taken
      rfl

theorem appliedMerged {held s : Settings} {first second both : Options}
    (merges : ∀ name, both.lookup name = (second.lookup name).or (first.lookup name))
    (taken : held.applied first = .ok s) : s.applied second = held.applied both := by
  obtain ⟨lead, logFile, diagnostics⟩ := appliedIff.mp taken
  rw [applied, applied, optionMerged (merges _) lead, optionMerged (merges _) logFile,
    optionMerged (merges _) diagnostics]

/- An object written over another one, name by name. -/
def merged (first second : Options) : Options :=
  second.foldl (fun sofar option => Json.assign sofar option.1 option.2) first

theorem assignPlace (options : Options) (name : Text) (v : Json) :
    Json.assign options name v = Table.place name v options := by
  induction options with
  | nil => rfl
  | cons option rest ih =>
    obtain ⟨other, old⟩ := option
    rw [Json.assign, Table.place, ih]
    split
    · rename_i same
      rw [same]
    · rfl

theorem lookupMerged (first : Options) {second : Options} (distinct : (names second).Nodup) (name : Text) :
    (merged first second).lookup name = (second.lookup name).or (first.lookup name) := by
  induction second generalizing first with
  | nil => rfl
  | cons option rest ih =>
    obtain ⟨other, v⟩ := option
    obtain ⟨fresh, distinct⟩ := List.nodup_cons.mp distinct
    rw [merged, List.foldl_cons, ← merged, ih _ distinct, assignPlace, Table.lookupPlace, Table.lookupCons]
    split
    · rename_i same
      rw [same, lookupAbsent fresh, Option.none_or, Option.some_or]
    · rfl

theorem updatedMerged {held s : Settings} {first second : Options} (distinct : (names second).Nodup)
    (taken : held.updated (.object first) = .ok s) :
    s.updated (.object second) = held.updated (.object (merged first second)) := by
  rw [updatedObject] at taken ⊢
  rw [updatedObject]
  exact appliedMerged (lookupMerged first distinct) taken

def known : List Text := ["commentLead", "logFile", "diagnostics"]

/- Objects with the same known options, in any order and with anything else beside them. -/
def Alike (first second : Options) : Prop :=
  ∀ name ∈ known, ∀ v, (name, v) ∈ first ↔ (name, v) ∈ second

theorem lookupMember {options : Options} (distinct : (names options).Nodup) {name : Text} {v : Json} :
    options.lookup name = some v ↔ (name, v) ∈ options :=
  ⟨fun found => Table.getEntry (t := ⟨options⟩) found, fun member => Table.entryGet (t := ⟨options⟩) distinct member⟩

theorem updatedAlike (held : Settings) {first second : Options} (distinct : (names first).Nodup)
    (distinct' : (names second).Nodup) (alike : Alike first second) :
    held.updated (.object first) = held.updated (.object second) := by
  have same (name : Text) (listed : name ∈ known) : first.lookup name = second.lookup name := by
    refine Option.ext fun v => ?_
    rw [lookupMember distinct, lookupMember distinct']
    exact alike name listed v
  rw [updatedObject, updatedObject, applied, applied]
  simp only [option, same "commentLead" (by decide), same "logFile" (by decide),
    same "diagnostics" (by decide)]

theorem acceptedAlways {held other : Settings} {v : Json} (taken : ∃ s, held.updated v = .ok s) :
    ∃ s, other.updated v = .ok s :=
  (updatedIff other v).mpr ((updatedIff held v).mp taken)

structure Accepted (held : Settings) (v : Json) (s : Settings) : Prop where
  supported : s.lead.text ∈ ["--", "%"]
  settled : s = held.changed (given v)
  lead : s.lead ≠ held.lead → .plain "commentLead" ∈ names (given v)
  logFile : s.logFile ≠ held.logFile → .plain "logFile" ∈ names (given v)
  diagnostics : s.diagnostics ≠ held.diagnostics → .plain "diagnostics" ∈ names (given v)

theorem updatedAccepted {held s : Settings} {v : Json} (taken : held.updated v = .ok s) : Accepted held v s := by
  have settled := updatedChanged taken
  refine ⟨by cases s.lead <;> decide, settled, ?_, ?_, ?_⟩
  all_goals
    rw [settled]
    exact decidedKept

theorem leadAccepted (lead : CommentLead) : CommentLead.ofJson (.text lead.text) = .ok lead := by
  cases lead <;> rfl

theorem updatesCompose (held : Settings) :
    (∀ v, (∃ fault, held.updated v = .error fault) ↔
      v.isTruthy = true ∧ ((∀ options, v ≠ .object options) ∨ ∃ options, v = .object options ∧ Wrong options)) ∧
    (∀ v s, held.updated v = .ok s → Accepted held v s) ∧
    (∀ first second s, (names second).Nodup → held.updated (.object first) = .ok s →
      s.updated (.object second) = held.updated (.object (merged first second)) ∧
      ((∃ t, held.updated (.object second) = .ok t) → ∃ t, s.updated (.object second) = .ok t)) ∧
    (∀ first second, (names first).Nodup → (names second).Nodup → Alike first second →
      held.updated (.object first) = held.updated (.object second)) ∧
    ∀ values : List Json, CommentLead.ofJson (.text (values.foldl overridden held).lead.text) =
      .ok (values.foldl overridden held).lead := by
  refine ⟨refusedIff held, fun v s => updatedAccepted, ?_, ?_, fun values => leadAccepted _⟩
  · intro first second s distinct taken
    exact ⟨updatedMerged distinct taken, acceptedAlways⟩
  · intro first second distinct distinct' alike
    exact updatedAlike held distinct distinct' alike

/- Options in two objects: the later one takes the log file back, and the first has one that is not known. -/
def earlier : Options := [("theme", .int 1), ("commentLead", .text "%"), ("logFile", .text "a.log")]

def later : Options := [("diagnostics", .bool false), ("logFile", .text "")]

theorem laterOptionsWin :
    (names later).Nodup ∧ updated {} (.object earlier) = .ok { lead := .percent, logFile := some "a.log" } ∧
    updated {} (.object (merged earlier later)) = .ok { lead := .percent, diagnostics := false } ∧
    Accepted {} (.object earlier) { lead := .percent, logFile := some "a.log" } ∧
    updated {} (.object earlier.reverse) = updated {} (.object earlier.tail) ∧
    ∃ fault, updated {} (.object [("logFile", .int 0)]) = .error fault := by
  obtain ⟨refused, accepted, composed, alike, _⟩ := updatesCompose {}
  have distinct : (names later).Nodup := by decide
  have taken : updated {} (.object earlier) = .ok { lead := .percent, logFile := some "a.log" } := by rfl
  refine ⟨distinct, taken, (composed earlier later _ distinct taken).1.symm.trans rfl, accepted _ _ taken, ?_, ?_⟩
  · refine alike _ _ (by decide) (by decide) ?_
    intro name listed v
    simp only [known, List.mem_cons, List.not_mem_nil, or_false] at listed
    rcases listed with rfl | rfl | rfl <;> simp [earlier, or_comm]
  · exact (refused _).mpr ⟨rfl, .inr ⟨_, rfl, .logFile rfl (by simp) (by simp)⟩⟩

end LanguageService.Settings
