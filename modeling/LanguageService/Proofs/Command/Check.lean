import LanguageService.Command.Run
import LanguageService.Proofs.Disk.Handles

/-! Checking files. What is printed about a file depends on that file alone, and files that cannot be read
are reported and passed over. Only two kinds of files end the command where they stand: one whose path has a
null byte in it, and one whose bytes are no text. -/
namespace LanguageService

namespace Disk

theorem readNull {d : Disk} {path : String} (null : '\x00' ∈ path.toList) : d.readText path = .error .nullByte := by
  have failed : d.place path = .error .nullByte := resolveNull.mpr null
  simp [readText, read, failed, bind, Except.bind]

theorem readGarbled {d : Disk} {path : String} {bytes : List UInt8} {why : Text.Utf8.Fault}
    (found : d.read path = .ok bytes) (fails : Text.Utf8.decodeChars bytes = .error why) :
    d.readText path = .error (.undecodable why) := by
  simp [readText, found, fails, bind, Except.bind, throw, throwThe, MonadExceptOf.throw]

theorem readFails {d : Disk} {path : String} {fault : Fault} (failed : d.read path = .error fault) :
    fault = .nullByte ∧ '\x00' ∈ path.toList ∨
      fault ∈ [.missing path, .notFolder path, .isFolder path, .nameTooLong path] := by
  rcases bindFails.mp failed with failed | ⟨place, _, failed⟩
  · rcases resolveFails failed with null | listed
    · exact .inl null
    · simp only [List.mem_cons, List.not_mem_nil, or_false] at listed
      rcases listed with rfl | rfl | rfl <;> simp
  · cases place <;> cases failed <;> simp

end Disk

namespace Command

/- What ends the command: a path that cannot be asked for, and bytes that are no text. -/
inductive Halts (disk : Disk) (file : String) : Disk.Fault → Prop where
  | null (inside : '\x00' ∈ file.toList) : Halts disk file .nullByte
  | garbled {bytes why} (read : disk.read file = .ok bytes) (fails : Text.Utf8.decodeChars bytes = .error why) :
      Halts disk file (.undecodable why)

theorem haltsIff {disk : Disk} {file : String} {fault : Disk.Fault} :
    Halts disk file fault ↔ disk.readText file = .error fault ∧ isReported fault = false := by
  constructor
  · intro halts
    cases halts with
    | null inside => exact ⟨Disk.readNull inside, rfl⟩
    | garbled read fails => exact ⟨Disk.readGarbled read fails, rfl⟩
  · rintro ⟨failed, fatal⟩
    rcases bindFails.mp failed with failed | ⟨bytes, read, failed⟩
    · rcases Disk.readFails failed with ⟨rfl, null⟩ | listed
      · exact .null null
      · simp only [List.mem_cons, List.not_mem_nil, or_false] at listed
        rcases listed with rfl | rfl | rfl | rfl <;> cases fatal
    · cases decoded : Text.Utf8.decodeChars bytes with
      | ok cs =>
        simp only [decoded] at failed
        cases failed
      | error why =>
        simp only [decoded] at failed
        cases failed
        exact .garbled read decoded

def findingsOf (disk : Disk) (lead : CommentLead) (file : String) : List Finding :=
  match disk.readText file with
  | .ok src => Finding.ofTokens (Token.ofSource lead src)
  | .error _ => []

def complaintsOf (disk : Disk) (file : String) : List String :=
  match disk.readText file with
  | .ok _ => []
  | .error fault => [unreadable file fault]

/- A finding on a line of its own, with the place counted from one. -/
def told (file : String) (f : Finding) : String :=
  file ++ ":" ++ toString (f.range.start.line + 1) ++ ":" ++ toString (f.range.start.character + 1) ++
    ": error: " ++ f.cause.message ++ "\n"

theorem integerTold (n : Int) : String.ofList (Number.integerText n) = toString n := by
  cases n with
  | ofNat n => rfl
  | negSucc n =>
    have minus : toString (Int.negSucc n) = "-" ++ String.ofList (Nat.toDigits 10 (n + 1)) := rfl
    rw [minus, Number.integerText, if_pos (Int.negSucc_lt_zero n)]
    exact String.toList_injective (by simp [Number.naturalText])

theorem findingTold (file : String) (f : Finding) : findingLine file f = told file f := by
  simp only [findingLine, told, printedPlace, ← integerTold]
  apply String.toList_injective
  simp

/- What checking some files comes to, each of them for itself. -/
def examined (disk : Disk) (lead : CommentLead) (files : List String) : Report where
  output := String.join (files.flatMap fun file => (findingsOf disk lead file).map (told file))
  errors := String.join (files.flatMap (complaintsOf disk))
  found := (files.flatMap (findingsOf disk lead)).length
  failed := files.any fun file => !(complaintsOf disk file).isEmpty

def Report.join (a b : Report) : Report :=
  ⟨a.output ++ b.output, a.errors ++ b.errors, a.found + b.found, a.failed || b.failed⟩

theorem joinAssoc (a b c : Report) : (a.join b).join c = a.join (b.join c) := by
  simp [Report.join, String.append_assoc, Nat.add_assoc, Bool.or_assoc]

theorem joinNothing (disk : Disk) (lead : CommentLead) (r : Report) : r.join (examined disk lead []) = r := by
  simp [Report.join, examined]

theorem nothingJoin (r : Report) : Report.join {} r = r := by
  simp [Report.join]

theorem examinedCons (disk : Disk) (lead : CommentLead) (file : String) (files : List String) :
    examined disk lead (file :: files) = (examined disk lead [file]).join (examined disk lead files) := by
  simp [examined, Report.join]

def Passes (disk : Disk) (file : String) : Prop := ∀ fault, ¬ Halts disk file fault

theorem passesReported {disk : Disk} {file : String} {fault : Disk.Fault} (passes : Passes disk file)
    (failed : disk.readText file = .error fault) : isReported fault = true := by
  cases fatal : isReported fault with
  | true => rfl
  | false => exact absurd (haltsIff.mpr ⟨failed, fatal⟩) (passes fault)

theorem examinedText {disk : Disk} {file src : String} (read : disk.readText file = .ok src) (lead : CommentLead)
    (r : Report) :
    r.join (examined disk lead [file]) = r.add file (Finding.ofTokens (Token.ofSource lead src)) := by
  have lines : findingLine file = told file := funext (findingTold file)
  simp [examined, findingsOf, complaintsOf, read, Report.add, Report.join, lines]

theorem examinedUnread {disk : Disk} {file : String} {fault : Disk.Fault}
    (failed : disk.readText file = .error fault) (lead : CommentLead) (r : Report) :
    r.join (examined disk lead [file]) = r.skip file fault := by
  have silent : findingsOf disk lead file = [] := by rw [findingsOf, failed]
  have complaint : complaintsOf disk file = [unreadable file fault] := by rw [complaintsOf, failed]
  simp [examined, silent, complaint, Report.skip, Report.join]

theorem checkFilesNext {disk : Disk} {file : String} (passes : Passes disk file) (lead : CommentLead) (r : Report)
    (rest : List String) :
    checkFiles disk lead r (file :: rest) = checkFiles disk lead (r.join (examined disk lead [file])) rest := by
  cases read : disk.readText file with
  | ok src => simp only [checkFiles, read, examinedText read]
  | error fault => simp only [checkFiles, read, passesReported passes read, if_true, examinedUnread read]

theorem checkFilesRun {disk : Disk} {done : List String} (passes : ∀ file ∈ done, Passes disk file)
    (lead : CommentLead) (r : Report) (rest : List String) :
    checkFiles disk lead r (done ++ rest) = checkFiles disk lead (r.join (examined disk lead done)) rest := by
  induction done generalizing r with
  | nil => rw [List.nil_append, joinNothing]
  | cons file done ih =>
    obtain ⟨first, later⟩ := List.forall_mem_cons.mp passes
    rw [List.cons_append, checkFilesNext first, ih later, joinAssoc, ← examinedCons]

theorem checkFilesHalt {disk : Disk} {file : String} {fault : Disk.Fault} (halts : Halts disk file fault)
    (lead : CommentLead) (r : Report) (rest : List String) :
    checkFiles disk lead r (file :: rest) = (r, some fault) := by
  obtain ⟨read, fatal⟩ := haltsIff.mp halts
  rw [checkFiles, read]
  simp [fatal]

theorem cleanIff (disk : Disk) (lead : CommentLead) (files : List String) :
    (examined disk lead files).isClean = true ↔
      ∀ file ∈ files, ∃ src, disk.readText file = .ok src ∧ Finding.ofTokens (Token.ofSource lead src) = [] := by
  have single (file : String) : findingsOf disk lead file = [] ∧ complaintsOf disk file = [] ↔
      ∃ src, disk.readText file = .ok src ∧ Finding.ofTokens (Token.ofSource lead src) = [] := by
    unfold findingsOf complaintsOf
    cases disk.readText file <;> simp
  have found : (examined disk lead files).found = 0 ↔ ∀ file ∈ files, findingsOf disk lead file = [] :=
    List.length_eq_zero_iff.trans List.flatMap_eq_nil_iff
  have failed : (examined disk lead files).failed = false ↔ ∀ file ∈ files, complaintsOf disk file = [] := by
    simp [examined]
  simp only [Report.isClean, Bool.and_eq_true, beq_iff_eq, Bool.not_eq_true', found, failed, ← single]
  exact ⟨fun clean file listed => ⟨clean.1 file listed, clean.2 file listed⟩,
    fun clean => ⟨fun file listed => (clean file listed).1, fun file listed => (clean file listed).2⟩⟩

/- The whole report about files that do not end the command. -/
structure Reported (disk : Disk) (lead : CommentLead) (files : List String) (result : Result) : Prop where
  output : result.output =
    Text.Utf8.encode (String.join (files.flatMap fun file => (findingsOf disk lead file).map (told file)))
  errors : result.errors = String.join (files.flatMap (complaintsOf disk)) ++
    (let total := (files.flatMap (findingsOf disk lead)).length
     if total = 0 then "" else toString total ++ " problem(s) found\n")
  ending : result.ending = .exit 0 ∨ result.ending = .exit 1
  clean : result.ending = .exit 0 ↔
    ∀ file ∈ files, ∃ src, disk.readText file = .ok src ∧ Finding.ofTokens (Token.ofSource lead src) = []
  disk : result.disk = disk

theorem checkReports {disk : Disk} {path : Option String} {lead : Option CommentLead} {settings : Settings}
    (resolved : resolveSettings disk path lead = .ok settings) {files : List String}
    (passes : ∀ file ∈ files, Passes disk file) :
    Reported disk settings.lead files (check disk path lead files) := by
  have run := checkFilesRun passes settings.lead {} []
  rw [List.append_nil, nothingJoin, checkFiles] at run
  have clean := cleanIff disk settings.lead files
  simp only [check, resolved, run]
  refine ⟨rfl, rfl, ?_, ?_, rfl⟩
  · cases (examined disk settings.lead files).isClean <;> simp
  · rw [← clean]
    cases (examined disk settings.lead files).isClean <;> simp

theorem checkHalts {disk : Disk} {path : Option String} {lead : Option CommentLead} {settings : Settings}
    (resolved : resolveSettings disk path lead = .ok settings) {done : List String}
    (passes : ∀ file ∈ done, Passes disk file) {file : String} {fault : Disk.Fault} (halts : Halts disk file fault)
    (rest : List String) :
    check disk path lead (done ++ file :: rest) =
      { ending := .crash fault, disk
        output := Text.Utf8.encode (examined disk settings.lead done).output
        errors := (examined disk settings.lead done).errors } := by
  have run := checkFilesRun passes settings.lead {} (file :: rest)
  rw [nothingJoin, checkFilesHalt halts] at run
  simp only [check, resolved, run]

/- The files up to the first one that ends the command, if there is such a file. -/
theorem firstHalt (disk : Disk) (files : List String) :
    (∀ file ∈ files, Passes disk file) ∨
      ∃ done file rest fault, files = done ++ file :: rest ∧ (∀ before ∈ done, Passes disk before) ∧
        Halts disk file fault := by
  induction files with
  | nil => exact .inl fun _ listed => by cases listed
  | cons file files ih =>
    by_cases passes : Passes disk file
    · rcases ih with all | ⟨done, last, rest, fault, rfl, before, halts⟩
      · exact .inl (List.forall_mem_cons.mpr ⟨passes, all⟩)
      · exact .inr ⟨file :: done, last, rest, fault, rfl, List.forall_mem_cons.mpr ⟨passes, before⟩, halts⟩
    · obtain ⟨fault, halts⟩ := Classical.not_forall_not.mp passes
      exact .inr ⟨[], file, files, fault, rfl, fun _ listed => (by cases listed), halts⟩

theorem checkExamines {disk : Disk} {path : Option String} {lead : Option CommentLead} {settings : Settings}
    (resolved : resolveSettings disk path lead = .ok settings) (files : List String) :
    (∀ file ∈ files, Passes disk file) ∧ Reported disk settings.lead files (check disk path lead files) ∨
      ∃ done file rest fault, files = done ++ file :: rest ∧ (∀ before ∈ done, Passes disk before) ∧
        Halts disk file fault ∧
        check disk path lead files =
          { ending := .crash fault, disk
            output := Text.Utf8.encode (examined disk settings.lead done).output
            errors := (examined disk settings.lead done).errors } := by
  rcases firstHalt disk files with passes | ⟨done, file, rest, fault, rfl, passes, halts⟩
  · exact .inl ⟨passes, checkReports resolved passes⟩
  · exact .inr ⟨done, file, rest, fault, rfl, passes, halts, checkHalts resolved passes halts rest⟩

/- Two files with findings in them, one that is no text, and a folder. -/
def sampleDisk : Disk where
  files := ⟨[(["a.ast"], Text.Utf8.encode "let s = \"open\nlet n = 1.2.3\n"), (["b.ast"], [0xff]),
    (["c.ast"], Text.Utf8.encode "let y = 1.\n")]⟩
  folders := [["d"]]

theorem unreadPassedOver :
    resolveSettings sampleDisk none none = .ok {} ∧
    Reported sampleDisk .dashes ["x.ast", "a.ast", "d", "c.ast"]
      (check sampleDisk none none ["x.ast", "a.ast", "d", "c.ast"]) := by
  have ending : (check sampleDisk none none ["x.ast", "a.ast", "d", "c.ast"]).ending = .exit 1 := by decide +kernel
  refine ⟨rfl, ?_⟩
  rcases checkExamines (rfl : resolveSettings sampleDisk none none = .ok {}) ["x.ast", "a.ast", "d", "c.ast"] with
    ⟨_, reported⟩ | ⟨_, _, _, _, _, _, _, same⟩
  · exact reported
  · rw [same] at ending
    cases ending

theorem garbledFileEnds :
    resolveSettings sampleDisk none none = .ok {} ∧ (findingsOf sampleDisk .dashes "c.ast").length = 1 ∧
    (check sampleDisk none none ["b.ast", "c.ast"]).ending =
      .crash (.undecodable { position := 0, bytes := [0xff], reason := .startByte }) ∧
    (check sampleDisk none none ["b.ast", "c.ast"]).output = [] ∧
    (check sampleDisk none none ["b.ast", "c.ast"]).errors = "" := by
  refine ⟨rfl, ?_, ?_, ?_, ?_⟩ <;> decide +kernel

end Command
end LanguageService
