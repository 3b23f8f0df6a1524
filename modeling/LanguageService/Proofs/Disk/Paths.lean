import LanguageService.Disk.Basic
import LanguageService.Proofs.Table
import LanguageService.Proofs.Text.Blank
import LanguageService.Proofs.Text.Lines
import Mathlib.Data.List.DropRight

/-! Paths and their texts. A path without empty names, dots and steps back has one text, and going from its text
to the part before the last slash goes from folder to folder, up to the root and no further. -/
namespace LanguageService.Path

def Proper (name : String) : Prop := isStep name = false ∧ '/' ∉ name.toList

def Normal (names : List String) : Prop := ∀ name ∈ names, Proper name

instance (names : List String) : Decidable (Normal names) :=
  inferInstanceAs (Decidable (∀ name ∈ names, isStep name = false ∧ '/' ∉ name.toList))

/- The text of a path that starts with one slash. -/
def single (names : List String) : String := (Path.mk false names).text

/- Everything before the last name, by the text alone. -/
def dirname (path : String) : String :=
  let head := path.toList.rdropWhile (· != '/')
  String.ofList (if head.all (· == '/') then head else head.rdropWhile (· == '/'))

def join (folder name : String) : String :=
  if folder = "" ∨ folder.toList.getLast? = some '/' then folder ++ name else folder ++ "/" ++ name

/- The folders from one on outwards, as long as there is another one. -/
inductive Climbs : String → List String → Prop where
  | root {folder} (still : dirname folder = folder) : Climbs folder [folder]
  | up {folder chain} (moves : dirname folder ≠ folder) (tail : Climbs (dirname folder) chain) :
      Climbs folder (folder :: chain)

theorem climbsUnique {folder : String} {first second : List String} (climbs : Climbs folder first)
    (climbs' : Climbs folder second) : first = second := by
  induction climbs generalizing second with
  | root still =>
    cases climbs' with
    | root => rfl
    | up moves => exact absurd still moves
  | up moves tail ih =>
    cases climbs' with
    | root still => exact absurd still moves
    | up _ tail' => rw [ih tail']

def spelled (names : List String) : List Char := names.flatMap fun name => '/' :: name.toList

theorem Proper.filled {name : String} (proper : Proper name) : name.toList ≠ [] := by
  intro empty
  have none : name = "" := String.toList_eq_nil_iff.mp empty
  subst none
  cases proper.1

theorem singleSpelled {names : List String} (filled : names ≠ []) : (single names).toList = spelled names := by
  rw [single, text, if_neg Bool.false_ne_true, String.toList_append, String.toList_intercalate]
  induction names with
  | nil => exact absurd rfl filled
  | cons name rest ih =>
    cases rest with
    | nil => simp [spelled]
    | cons second rest =>
      have tail := ih (List.cons_ne_nil second rest)
      simp_all [spelled, List.intercalate_cons_cons]

theorem spelledSnoc (names : List String) (name : String) :
    spelled (names ++ [name]) = spelled names ++ '/' :: name.toList := by
  simp [spelled]

theorem singleSnoc (names : List String) (name : String) :
    (single (names ++ [name])).toList = spelled names ++ '/' :: name.toList :=
  (singleSpelled (by simp)).trans (spelledSnoc names name)

theorem spelledLast {names : List String} (normal : Normal names) (filled : names ≠ []) :
    ∃ c, (spelled names).getLast? = some c ∧ c ≠ '/' := by
  obtain ⟨before, name, rfl⟩ := (List.eq_nil_or_concat' names).resolve_left filled
  have proper := normal name (by simp)
  obtain ⟨c, last⟩ := Option.isSome_iff_exists.mp (List.getLast?_isSome.mpr proper.filled)
  refine ⟨c, ?_, ?_⟩
  · rw [spelledSnoc, List.getLast?_append, List.getLast?_cons, last]
    rfl
  · rintro rfl
    exact proper.2 (List.mem_of_getLast? last)

theorem dropBack {p : Char → Bool} {front back : List Char} (behind : ∀ c ∈ back, p c = true)
    (last : ∀ c, front.getLast? = some c → p c = false) : (front ++ back).rdropWhile p = front := by
  rw [List.rdropWhile, List.reverse_append,
    Text.dropFront (by simpa using behind) (by simpa using last), List.reverse_reverse]

theorem dirnameRoot : dirname "/" = "/" := by decide

theorem dirnameSingle {names : List String} {name : String} (normal : Normal (names ++ [name])) :
    dirname (single (names ++ [name])) = single names := by
  obtain ⟨before, proper⟩ := List.forall_mem_append.mp normal
  have slashes : (spelled names ++ '/' :: name.toList).rdropWhile (· != '/') = spelled names ++ ['/'] := by
    rw [← List.singleton_append, ← List.append_assoc]
    refine dropBack (fun c member => ?_) (by simp)
    simp only [bne_iff_ne, ne_eq]
    rintro rfl
    exact (proper name (by simp)).2 member
  rw [dirname, singleSnoc, slashes]
  by_cases root : names = []
  · subst root
    rfl
  · obtain ⟨c, last, plain⟩ := spelledLast before root
    have inner : ((spelled names ++ ['/']).all (· == '/')) = false := by
      simp only [List.all_eq_false]
      exact ⟨c, List.mem_append_left _ (List.mem_of_getLast? last), by simpa using plain⟩
    have cut : (spelled names ++ ['/']).rdropWhile (· == '/') = spelled names :=
      dropBack (by simp) fun d final => by
        rw [last] at final
        cases final
        simpa using plain
    rw [inner, if_neg Bool.false_ne_true, cut, ← singleSpelled root, String.ofList_toList]

theorem dirnameParent {names : List String} (normal : Normal names) :
    dirname (single names) = single names.dropLast := by
  rcases List.eq_nil_or_concat' names with rfl | ⟨before, name, rfl⟩
  · exact dirnameRoot
  · rw [dirnameSingle normal, List.dropLast_concat]

theorem joinSingle {names : List String} (normal : Normal names) (name : String) :
    join (single names) name = single (names ++ [name]) := by
  apply String.toList_inj.mp
  by_cases root : names = []
  · subst root
    rw [singleSnoc, join, if_pos (by decide), String.toList_append]
    rfl
  · obtain ⟨c, last, plain⟩ := spelledLast normal root
    have inside : ¬ (single names = "" ∨ (single names).toList.getLast? = some '/') := by
      rintro (empty | slash)
      · rw [← singleSpelled root, empty] at last
        cases last
      · rw [singleSpelled root, last] at slash
        exact plain (Option.some.inj slash)
    rw [singleSnoc, join, if_neg inside, String.toList_append, String.toList_append, singleSpelled root]
    simp

/- Reading the text of a normal path gives its names back. -/
theorem splitSpelled {name : String} {names : List String} (normal : Normal (name :: names)) :
    Text.split '/' (name.toList ++ spelled names) = (name :: names).map String.toList := by
  induction names generalizing name with
  | nil =>
    rw [spelled, List.flatMap_nil, List.append_nil]
    exact Text.splitWhole (normal name (by simp)).2
  | cons second rest ih =>
    obtain ⟨proper, normal⟩ := List.forall_mem_cons.mp normal
    rw [spelled, List.flatMap_cons, ← spelled, List.cons_append, Text.splitSeparator, Text.splitWhole proper.2,
      ih normal]
    rfl

theorem followName {segment : String} (goes : isStep segment = false) (names : List String) :
    follow names segment = names ++ [segment] := by
  simp only [isStep, Bool.or_eq_false_iff, beq_eq_false_iff_ne] at goes
  simp [follow, goes]

theorem followNormal {names base : List String} (normal : Normal names) :
    names.foldl follow base = base ++ names := by
  induction names generalizing base with
  | nil => simp
  | cons name rest ih =>
    obtain ⟨proper, normal⟩ := List.forall_mem_cons.mp normal
    rw [List.foldl_cons, followName proper.1, ih normal, List.append_assoc, List.singleton_append]

theorem singleRooted (names : List String) : isAbsolute (single names) = true := by
  cases names with
  | nil => rfl
  | cons name rest =>
    rw [isAbsolute, singleSpelled (List.cons_ne_nil name rest)]
    rfl

theorem segmentsSingle {names : List String} (normal : Normal names) (filled : names ≠ []) :
    segments (single names) = "" :: names := by
  obtain ⟨name, rest, rfl⟩ := List.exists_cons_of_ne_nil filled
  rw [segments, singleSpelled filled, spelled, List.flatMap_cons, ← spelled, List.cons_append]
  have front := Text.splitSeparator '/' [] (name.toList ++ spelled rest)
  rw [List.nil_append] at front
  rw [front, splitSpelled normal]
  simp [Text.split]

theorem absoluteSingle {names : List String} (normal : Normal names) (base : List String) :
    (absolute base (single names)).names = names := by
  cases names with
  | nil => rfl
  | cons name rest =>
    rw [absolute, if_pos (singleRooted _), segmentsSingle normal (by simp), List.foldl_cons]
    exact followNormal normal

theorem singleInjective {first second : List String} (normal : Normal first) (normal' : Normal second)
    (same : single first = single second) : first = second := by
  rw [← absoluteSingle normal [], same, absoluteSingle normal' []]

theorem followKeeps {names : List String} {segment : String} (normal : Normal names)
    (whole : '/' ∉ segment.toList) : Normal (follow names segment) := by
  unfold follow
  split
  · exact normal
  split
  · exact fun name member => normal name (List.dropLast_subset names member)
  · rename_i filled back
    refine List.forall_mem_append.mpr ⟨normal, ?_⟩
    intro name member
    rw [List.mem_singleton.mp member]
    exact ⟨by simp_all [isStep], whole⟩

theorem absoluteNormal {base : List String} (normal : Normal base) (path : String) :
    Normal (absolute base path).names := by
  have parts : ∀ segment ∈ segments path, '/' ∉ segment.toList := by
    intro segment member
    obtain ⟨part, inside, rfl⟩ := List.mem_map.mp member
    rw [String.toList_ofList]
    exact Text.splitParts inside
  have kept (all : List String) (whole : ∀ segment ∈ all, '/' ∉ segment.toList) :
      ∀ names, Normal names → Normal (all.foldl follow names) := by
    induction all with
    | nil => exact fun names normal => normal
    | cons segment rest ih =>
      obtain ⟨first, later⟩ := List.forall_mem_cons.mp whole
      exact fun names normal => ih later _ (followKeeps normal first)
  refine kept _ parts _ ?_
  split
  · exact List.forall_mem_nil _
  · exact normal

theorem absolutePlain {path : String} (plain : isDoubled path = false) (base : List String) :
    absolute base path = ⟨false, (absolute base path).names⟩ := by
  rw [← plain]
  rfl

theorem ancestorsSnoc (names : List String) (name : String) :
    (Path.mk false (names ++ [name])).ancestors =
      Path.mk false (names ++ [name]) :: (Path.mk false names).ancestors := by
  have first : (names ++ [name]).take (names.length + 1 - 0) = names ++ [name] :=
    List.take_of_length_le (by simp)
  have later (n : Nat) : (names ++ [name]).take (names.length + 1 - (n + 1)) = names.take (names.length - n) := by
    rw [Nat.add_sub_add_right, List.take_append_of_le_length (Nat.sub_le _ _)]
  simp only [ancestors, List.length_append, List.length_singleton]
  rw [List.range_succ_eq_map (n := names.length + 1), List.map_cons, List.map_map, first]
  simp only [Function.comp_def, Nat.succ_eq_add_one, later]

theorem climbsSingle {names : List String} (normal : Normal names) :
    Climbs (single names) ((Path.mk false names).ancestors.map text) := by
  induction names using List.reverseRecOn with
  | nil => exact .root dirnameRoot
  | append_singleton names name ih =>
    obtain ⟨before, _⟩ := List.forall_mem_append.mp normal
    rw [ancestorsSnoc, List.map_cons]
    refine .up ?_ ?_
    · rw [dirnameSingle normal]
      intro same
      have shorter := congrArg List.length (singleInjective before normal same)
      simp at shorter
    · rw [dirnameSingle normal]
      exact ih before

theorem ancestorsRoot (names : List String) :
    ((Path.mk false names).ancestors.map text).getLast? = some "/" := by
  simp [ancestors, List.range_succ, text]

theorem ancestorsNormal {names : List String} (normal : Normal names) {folder : Path}
    (around : folder ∈ (Path.mk false names).ancestors) : folder = Path.mk false folder.names ∧ Normal folder.names := by
  obtain ⟨n, _, rfl⟩ := List.mem_map.mp around
  exact ⟨rfl, fun name member => normal name (List.mem_of_mem_take member)⟩

end LanguageService.Path

namespace LanguageService.Disk

/- Files and the current folder are on normal paths. -/
structure Normal (d : Disk) : Prop where
  current : Path.Normal d.current
  files : ∀ names ∈ d.files.keys, Path.Normal names

def isRegular (d : Disk) (path : String) : Bool := d.files.keys.any fun names => Path.single names == path

theorem regularSingle {d : Disk} (normal : d.Normal) {names : List String} (plain : Path.Normal names) :
    d.isRegular (Path.single names) = (d.fileAt? names).isSome := by
  rw [Bool.eq_iff_iff, isRegular, List.any_eq_true, fileAt?, Option.isSome_iff_exists, ← Table.memKeys]
  constructor
  · rintro ⟨other, member, same⟩
    rw [← Path.singleInjective (normal.files other member) plain (beq_iff_eq.mp same)]
    exact member
  · exact fun member => ⟨names, member, beq_self_eq_true _⟩

def Place.names : Place → List String
  | .folder names => names
  | .file names _ => names
  | .vacant names => names

/- The folder that a place is in, or that it is. -/
def Place.around : Place → List String
  | .folder names => names
  | .file names _ => names.dropLast
  | .vacant names => names

/- Whatever a path leads to is where its segments go by themselves. -/
theorem walkNames {d : Disk} {path : String} {place found : Place} {segments : List String}
    (walked : d.walk path place segments = .ok found) : found.names = segments.foldl Path.follow place.names := by
  have enters {names : List String} {segment : String} (goes : ¬ Path.isStep segment = true) (rest : List String) :
      rest.foldl Path.follow (names ++ [segment]) = (segment :: rest).foldl Path.follow names := by
    rw [List.foldl_cons, Path.followName (Bool.eq_false_iff.mpr goes)]
  fun_induction d.walk path place segments with
  | case1 place =>
    cases walked
    rfl
  | case2 => cases walked
  | case3 => cases walked
  | case4 names segment rest step ih => exact ih walked
  | case5 => cases walked
  | case6 names segment rest goes short inner bytes held ih => exact (ih walked).trans (enters goes rest)
  | case7 names segment rest goes short inner held folder ih => exact (ih walked).trans (enters goes rest)
  | case8 names segment rest goes short inner held folder ih => exact (ih walked).trans (enters goes rest)

theorem placeNames {d : Disk} {path : String} {found : Place} (led : d.place path = .ok found) :
    found.names = (Path.absolute d.current path).names := by
  unfold place resolve at led
  split at led
  · cases led
  split at led
  · cases led
  split at led
  · cases led
  · exact walkNames led

theorem walkHeld {d : Disk} {path : String} {place : Place} {segments names : List String} {bytes : List UInt8}
    (known : ∀ names bytes, place = .file names bytes → d.fileAt? names = some bytes)
    (walked : d.walk path place segments = .ok (.file names bytes)) : d.fileAt? names = some bytes := by
  fun_induction d.walk path place segments with
  | case1 place => exact known names bytes (Except.ok.inj walked)
  | case2 => cases walked
  | case3 => cases walked
  | case4 _ _ _ _ ih => exact ih (by rintro _ _ ⟨⟩) walked
  | case5 => cases walked
  | case6 _ _ _ _ _ inner bytes held ih =>
    refine ih ?_ walked
    rintro _ _ ⟨⟩
    exact held
  | case7 _ _ _ _ _ _ _ _ ih => exact ih (by rintro _ _ ⟨⟩) walked
  | case8 _ _ _ _ _ _ _ _ ih => exact ih (by rintro _ _ ⟨⟩) walked

/- Names that lead to a file: none of them and not all of them together are too long, and none before the last
is a file itself. -/
structure Leads (d : Disk) (names : List String) : Prop where
  normal : Path.Normal names
  filled : names ≠ []
  written : '\x00' ∉ (Path.single names).toList
  whole : size (Path.single names) ≤ longestPath
  short : ∀ name ∈ names, size name ≤ longestName
  apart : ∀ above, above <+: names → above ≠ names → d.fileAt? above = none

theorem folderAbove {d : Disk} {names rest : List String} {bytes : List UInt8} (filled : rest ≠ [])
    (held : d.fileAt? (names ++ rest) = some bytes) : d.isFolderAt names = true := by
  have inside : (d.files.keys.any fun file => names.isPrefixOf file && names != file) = true := by
    refine List.any_eq_true.mpr ⟨names ++ rest, Table.memKeys.mpr ⟨bytes, held⟩, ?_⟩
    simp [filled]
  simp [isFolderAt, inside]

theorem walkLeads {d : Disk} {path : String} {names rest : List String} {bytes : List UInt8} (filled : rest ≠ [])
    (normal : Path.Normal rest) (short : ∀ name ∈ rest, size name ≤ longestName)
    (apart : ∀ above, above <+: rest → above ≠ rest → above ≠ [] → d.fileAt? (names ++ above) = none)
    (held : d.fileAt? (names ++ rest) = some bytes) :
    d.walk path (.folder names) rest = .ok (.file (names ++ rest) bytes) := by
  induction rest generalizing names with
  | nil => exact absurd rfl filled
  | cons name rest ih =>
    obtain ⟨proper, normal⟩ := List.forall_mem_cons.mp normal
    obtain ⟨fits, short⟩ := List.forall_mem_cons.mp short
    rw [walk, if_neg (by simp [proper.1]), if_neg (Nat.not_lt.mpr fits)]
    rw [List.append_cons] at held
    cases rest with
    | nil =>
      rw [List.append_nil] at held
      simp only [held, walk]
    | cons next rest =>
      have vacant := apart [name] (by simp) (by simp) (by simp)
      simp only [vacant, folderAbove (by simp) held, if_true]
      rw [ih (by simp) normal short ?_ held, List.append_assoc, List.singleton_append]
      intro above inside other some
      rw [List.append_assoc, List.singleton_append]
      exact apart (name :: above) (List.cons_prefix_cons.mpr ⟨rfl, inside⟩) (by simpa using other) (by simp)

theorem isFileHeld {d : Disk} {names : List String} (normal : Path.Normal names)
    (file : d.isFile (Path.single names) = true) : (d.fileAt? names).isSome = true := by
  unfold isFile at file
  split at file
  · rename_i found bytes led
    have same := placeNames led
    rw [Path.absoluteSingle normal] at same
    have held : d.fileAt? found = some bytes := by
      unfold place resolve at led
      repeat' split at led
      all_goals first | cases led | exact walkHeld (by rintro _ _ ⟨⟩) led
    rw [← same]
    exact Option.isSome_of_eq_some held
  · cases file

theorem placeLeads {d : Disk} {names : List String} (leads : d.Leads names) {bytes : List UInt8}
    (held : d.fileAt? names = some bytes) : d.place (Path.single names) = .ok (.file names bytes) := by
  have filled : Path.single names ≠ "" := by
    intro empty
    have rooted := Path.singleRooted names
    rw [empty] at rooted
    cases rooted
  have root : d.walk (Path.single names) (.folder []) names = .ok (.file ([] ++ names) bytes) :=
    walkLeads leads.filled leads.normal leads.short (fun above inside other _ => leads.apart above inside other) held
  rw [place, resolve, if_neg (by simpa using leads.written), if_neg filled, if_neg (Nat.not_lt.mpr leads.whole),
    Path.segmentsSingle leads.normal leads.filled]
  simp only [Path.singleRooted, if_true]
  rw [walk, if_pos (by decide)]
  exact root

theorem isFileLeads {d : Disk} {names : List String} (leads : d.Leads names)
    (held : (d.fileAt? names).isSome = true) : d.isFile (Path.single names) = true := by
  obtain ⟨bytes, held⟩ := Option.isSome_iff_exists.mp held
  rw [isFile, placeLeads leads held]

end LanguageService.Disk
