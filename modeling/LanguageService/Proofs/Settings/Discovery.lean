import LanguageService.Proofs.Disk.Paths
import LanguageService.Settings.File

/-! The nearest settings file. The search goes from a folder to the one around it until there is none, and takes
the first settings file on its way. -/
namespace LanguageService.Settings
open LanguageService.Path (single dirname join Climbs)

/- The folder that a search starts from, by the texts of the paths. -/
def startFolder (disk : Disk) (start : Option String) : String :=
  match start with
  | none => single disk.current
  | some path =>
    let whole := (Path.absolute disk.current path).text
    if disk.isFile path then dirname whole else whole

/- A folder holds a settings file. -/
def holds (disk : Disk) (folder : String) : Bool := disk.isFile (join folder fileName)

/- What is a settings file here is one of the files of the disk, and each of these is one here that a path can
lead to. -/
structure Regular (disk : Disk) (folder : String) : Prop where
  held : holds disk folder = true → disk.isRegular (join folder fileName) = true
  led : ∀ names, join folder fileName = single names → disk.Leads names →
    holds disk folder = disk.isRegular (join folder fileName)

section start
variable {disk : Disk} (normal : disk.Normal) {start : Option String}
  (plain : ∀ path, start = some path → Path.isDoubled path = false)
include normal plain

theorem startFound :
    ∃ names, Path.Normal names ∧ searchStart disk start = ⟨false, names⟩ ∧ startFolder disk start = single names := by
  cases start with
  | none => exact ⟨disk.current, normal.current, rfl, rfl⟩
  | some path =>
    have names := Path.absoluteNormal normal.current path
    rw [searchStart, startFolder, Path.absolutePlain (plain path rfl)]
    by_cases file : disk.isFile path = true
    · rw [if_pos file, if_pos file]
      exact ⟨_, fun name member => names name (List.dropLast_subset _ member), rfl, Path.dirnameParent names⟩
    · rw [if_neg file, if_neg file]
      exact ⟨_, names, rfl, rfl⟩

/- Where the start is on the disk, the search begins in the folder that it is or is in. -/
theorem startLed {path : String} {place : Disk.Place} (given : start = some path)
    (led : disk.place path = .ok place) : startFolder disk start = single place.around := by
  subst given
  have names := Disk.placeNames led
  rw [startFolder, Path.absolutePlain (plain path rfl), Disk.isFile, led, ← names]
  have proper : Path.Normal place.names := names ▸ Path.absoluteNormal normal.current path
  cases place with
  | file inner bytes => exact Path.dirnameParent proper
  | folder inner => rfl
  | vacant inner => rfl

end start

theorem fileInside {names : List String} (proper : Path.Normal names) {folder : Path}
    (around : folder ∈ Path.ancestors ⟨false, names⟩) :
    Path.Normal (folder.names ++ [fileName]) ∧ (folder.child fileName).text = single (folder.names ++ [fileName]) ∧
      join folder.text fileName = single (folder.names ++ [fileName]) := by
  obtain ⟨one, inner⟩ := Path.ancestorsNormal proper around
  refine ⟨List.forall_mem_append.mpr ⟨inner, (by decide : Path.Normal [fileName])⟩, ?_, ?_⟩
  · rw [one]
    rfl
  · rw [one]
    exact Path.joinSingle inner fileName

theorem findClimbs {disk : Disk} (normal : disk.Normal) {start : Option String}
    (plain : ∀ path, start = some path → Path.isDoubled path = false) :
    ∃ chain, Climbs (startFolder disk start) chain ∧ chain.getLast? = some "/" ∧
      (∀ folder ∈ chain, Regular disk folder) ∧
      find? disk start = (chain.find? (holds disk)).map (join · fileName) := by
  obtain ⟨names, proper, searched, written⟩ := startFound normal plain
  rw [written, find?, searched]
  refine ⟨_, Path.climbsSingle proper, Path.ancestorsRoot names, ?_, ?_⟩
  · intro text listed
    obtain ⟨folder, around, rfl⟩ := List.mem_map.mp listed
    obtain ⟨known, _, file⟩ := fileInside proper around
    have regular := Disk.regularSingle normal known
    refine ⟨?_, ?_⟩
    · rw [holds, file, regular]
      exact Disk.isFileHeld known
    · intro others same leads
      rw [file] at same
      obtain rfl := Path.singleInjective known leads.normal same
      rw [holds, file, regular, Bool.eq_iff_iff]
      exact ⟨Disk.isFileHeld known, Disk.isFileLeads leads⟩
  · have texts : (Path.ancestors ⟨false, names⟩).map (fun folder => (folder.child fileName).text) =
        ((Path.ancestors ⟨false, names⟩).map Path.text).map (join · fileName) := by
      rw [List.map_map]
      refine List.map_congr_left fun folder around => ?_
      obtain ⟨_, child, file⟩ := fileInside proper around
      rw [child, Function.comp_apply, file]
    rw [texts, List.find?_map]
    rfl

/- What a search gives: the folders it passes, in order and up to the root, and the first of them with a settings
file. -/
structure Nearest (disk : Disk) (start : Option String) (chain : List String) : Prop where
  begins : ∀ path place, start = some path → disk.place path = .ok place → startFolder disk start = single place.around
  climbs : ∀ other, Climbs (startFolder disk start) other ↔ other = chain
  root : chain.getLast? = some "/"
  regular : ∀ folder ∈ chain, Regular disk folder
  missing : find? disk start = none ↔ ∀ folder ∈ chain, holds disk folder = false
  found : ∀ path, find? disk start = some path ↔ ∃ inside folder outside, chain = inside ++ folder :: outside ∧
    (∀ deeper ∈ inside, holds disk deeper = false) ∧ holds disk folder = true ∧ path = join folder fileName

theorem nearestFound {disk : Disk} (normal : disk.Normal) {start : Option String}
    (plain : ∀ path, start = some path → Path.isDoubled path = false) : ∃ chain, Nearest disk start chain := by
  obtain ⟨chain, climbs, root, regular, searched⟩ := findClimbs normal plain
  refine ⟨chain, {
    begins := fun path place given led => startLed normal plain given led
    climbs := fun other => ⟨fun also => Path.climbsUnique also climbs, fun same => same ▸ climbs⟩
    root := root
    regular := regular
    missing := ?_
    found := ?_ }⟩
  · rw [searched, Option.map_eq_none_iff, List.find?_eq_none]
    simp
  · intro path
    rw [searched]
    simp only [Option.map_eq_some_iff, List.find?_eq_some_iff_append, Bool.not_eq_true']
    constructor
    · rintro ⟨folder, ⟨held, inside, outside, cut, before⟩, named⟩
      exact ⟨inside, folder, outside, cut, before, held, named.symm⟩
    · rintro ⟨inside, folder, outside, cut, before, held, named⟩
      exact ⟨folder, ⟨held, inside, outside, cut, before⟩, named.symm⟩

/- Two settings files, one above the other, and a search that starts at a file below both of them. -/
def nestedDisk : Disk where
  files := ⟨[([".asteroid-ls.json"], []), (["w", ".asteroid-ls.json"], []), (["w", "a", "x"], [])]⟩
  current := ["w", "b"]

theorem nestedFound :
    nestedDisk.Normal ∧ Path.isDoubled "../a//x" = false ∧ startFolder nestedDisk (some "../a//x") = "/w/a" ∧
    find? nestedDisk (some "../a//x") = some "/w/.asteroid-ls.json" := by
  have normal : nestedDisk.Normal := ⟨by decide, by decide⟩
  have plain : ∀ path, some "../a//x" = some path → Path.isDoubled path = false := by
    rintro path ⟨⟩
    decide
  have start : startFolder nestedDisk (some "../a//x") = "/w/a" := by decide
  obtain ⟨chain, nearest⟩ := nearestFound normal plain
  have climbs : Climbs "/w/a" ["/w/a", "/w", "/"] :=
    .up (by decide) (.up (by decide) (.root (by decide)))
  obtain rfl := (nearest.climbs _).mp (start ▸ climbs)
  refine ⟨normal, by decide, start, (nearest.found _).mpr ⟨["/w/a"], "/w", ["/"], rfl, ?_, ?_, ?_⟩⟩
  all_goals decide

end LanguageService.Settings
