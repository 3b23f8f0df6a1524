import LanguageService.Disk.Path
import LanguageService.Table
import LanguageService.Text.Lines
import LanguageService.Text.Quoted
import LanguageService.Text.Utf8
/-! A file system as a value: its files with their bytes, folders that hold none, and the
folder that relative paths start from. The folders around a file exist with it. Files are
written through handles, and what is done with a handle is kept in order. A write through a handle
that is open is assumed not to fail: there is room on the disk, and the file is not taken away. -/
namespace LanguageService

structure Disk.Handle where
  number : Nat
  names : List String
  deriving DecidableEq, Repr

inductive Disk.Deed where
  | opened (path : String) (handle : Handle)
  | wrote (handle : Handle) (text : String)
  | closed (handle : Handle)
  deriving DecidableEq, Repr

structure Disk where
  files : Table (List String) (List UInt8) := ∅
  folders : List (List String) := []
  current : List String := []
  nextHandle : Nat := 0
  deeds : List Disk.Deed := []

namespace Disk

inductive Fault where
  | nullByte
  | missing (path : String)
  | notFolder (path : String)
  | isFolder (path : String)
  | nameTooLong (path : String)
  | undecodable (fault : Text.Utf8.Fault)
  deriving DecidableEq, Repr

def Fault.message : Fault → String
  | .nullByte => "embedded null byte"
  | .missing path => "[Errno 2] No such file or directory: " ++ Text.quoted path
  | .notFolder path => "[Errno 20] Not a directory: " ++ Text.quoted path
  | .isFolder path => "[Errno 21] Is a directory: " ++ Text.quoted path
  | .nameTooLong path => "[Errno 36] File name too long: " ++ Text.quoted path
  | .undecodable fault => fault.message

/-- What is found under a path. A vacant place is in a folder that exists. -/
inductive Place where
  | folder (names : List String)
  | file (names : List String) (bytes : List UInt8)
  | vacant (names : List String)
  deriving DecidableEq, Repr

def isFolderAt (d : Disk) (names : List String) : Bool :=
  names.isEmpty || d.folders.any names.isPrefixOf ||
  d.files.keys.any fun file => names.isPrefixOf file && names != file

def fileAt? (d : Disk) (names : List String) : Option (List UInt8) := d.files.get? names

def longestName : Nat := 255

def longestPath : Nat := 4095

def size (s : String) : Nat := (Text.Utf8.encode s).length

def walk (d : Disk) (path : String) : Place → List String → Except Fault Place
  | place, [] => .ok place
  | .file _ _, _ :: _ => .error (.notFolder path)
  | .vacant _, _ :: _ => .error (.missing path)
  | .folder names, segment :: rest =>
    if Path.isStep segment then
      walk d path (.folder (Path.follow names segment)) rest
    else if longestName < size segment then .error (.nameTooLong path)
    else
      let inner := names ++ [segment]
      match d.fileAt? inner with
      | some bytes => walk d path (.file inner bytes) rest
      | none =>
        if d.isFolderAt inner then walk d path (.folder inner) rest
        else walk d path (.vacant inner) rest

def resolve (d : Disk) (path : String) (segments : List String) : Except Fault Place :=
  if path.toList.contains '\x00' then .error .nullByte
  else if path = "" then .error (.missing path)
  else if longestPath < size path then .error (.nameTooLong path)
  else
    let start := if Path.isAbsolute path then [] else d.current
    d.walk path (.folder start) segments

def place (d : Disk) (path : String) : Except Fault Place :=
  d.resolve path (Path.segments path)

def isFile (d : Disk) (path : String) : Bool :=
  match d.place path with
  | .ok (.file _ _) => true
  | _ => false

def isFolder (d : Disk) (path : String) : Bool :=
  match d.place path with
  | .ok (.folder _) => true
  | _ => false

def read (d : Disk) (path : String) : Except Fault (List UInt8) := do
  match ← d.place path with
  | .folder _ => throw (.isFolder path)
  | .vacant _ => throw (.missing path)
  | .file _ bytes => pure bytes

def readText (d : Disk) (path : String) : Except Fault String := do
  let bytes ← d.read path
  match Text.Utf8.decodeChars bytes with
  | .ok cs => pure (String.ofList (Text.unifyLineEnds cs))
  | .error fault => throw (.undecodable fault)

def hold (d : Disk) (path : String) (names : List String) (bytes : List UInt8) : Disk × Handle :=
  let handle := ⟨d.nextHandle, names⟩
  ({ d with
      files := d.files.insert names bytes
      nextHandle := d.nextHandle + 1
      deeds := d.deeds ++ [.opened path handle] }, handle)

/-- Opens a file for writing at its end, a new one if there is none. With `clear` its old
content goes. A name with a slash behind it is that of a folder, whether or not there is
one. -/
def openFile (d : Disk) (path : String) (clear : Bool) : Except Fault (Disk × Handle) := do
  match Path.closedName? path with
  | some around =>
    match ← d.resolve path around with
    | .folder _ => throw (.isFolder path)
    | .vacant _ => throw (.missing path)
    | .file _ _ => throw (.notFolder path)
  | none =>
    match ← d.place path with
    | .folder _ => throw (.isFolder path)
    | .vacant names => pure (d.hold path names [])
    | .file names bytes => pure (d.hold path names (if clear then [] else bytes))

def append (d : Disk) (handle : Handle) (text : String) : Disk :=
  let old := (d.fileAt? handle.names).getD []
  { d with
    files := d.files.insert handle.names (old ++ Text.Utf8.encode text)
    deeds := d.deeds ++ [.wrote handle text] }

def close (d : Disk) (handle : Handle) : Disk :=
  { d with deeds := d.deeds ++ [.closed handle] }

end Disk
end LanguageService
