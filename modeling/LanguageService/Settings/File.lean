import LanguageService.Disk.Basic
import LanguageService.Json.Parser
import LanguageService.Settings.Basic
/-! Settings files: a JSON object of options, given by its path or found in a folder or in
the nearest folder around it that holds one. -/
namespace LanguageService.Settings

def fileName : String := ".asteroid-ls.json"

inductive LoadFault where
  | disk (fault : Disk.Fault)
  | malformed (path : String) (fault : Json.ParseFault)
  | notObject (path : String)
  | rejected (path : String) (fault : Fault)

def LoadFault.message : LoadFault → String
  | .disk fault => fault.message
  | .malformed path fault => "Failed to parse " ++ path ++ ": " ++ fault.message
  | .notObject path => path ++ " must contain a JSON object"
  | .rejected path fault => path ++ ": " ++ fault.message

def searchStart (disk : Disk) (start : Option String) : Path :=
  match start with
  | none => ⟨false, disk.current⟩
  | some path =>
    let whole := Path.absolute disk.current path
    if disk.isFile path then whole.parent else whole

def find? (disk : Disk) (start : Option String) : Option String :=
  ((searchStart disk start).ancestors.map fun folder => (folder.child fileName).text).find? disk.isFile

def load (disk : Disk) (path : String) : Except LoadFault Settings := do
  let content ← (disk.readText path).mapError .disk
  match ← (Json.parse content).mapError (.malformed path) with
  | .object members => (updated {} (.object members)).mapError (.rejected path)
  | _ => throw (.notObject path)

def discover (disk : Disk) (start : Option String) : Except LoadFault Settings :=
  match find? disk start with
  | some path => load disk path
  | none => .ok {}

end LanguageService.Settings
