import LanguageService.Text.Utf8
/-! Paths of file locations. In a location `%` and two hexadecimal digits stand for one byte
of the UTF-8 form of the path, every other character for itself. -/
namespace LanguageService.Text.Percent

/-- A percent sign that starts no escape is itself. -/
def bytes : List Char → List UInt8
  | [] => []
  | '%' :: high :: low :: rest =>
    match hexValue? high, hexValue? low with
    | some h, some l => UInt8.ofNat (h * 16 + l) :: bytes rest
    | _, _ => String.utf8EncodeChar '%' ++ bytes (high :: low :: rest)
  | c :: rest => String.utf8EncodeChar c ++ bytes rest

def decode (cs : List Char) : List Char :=
  Utf8.decodeLenient (bytes cs)

/-- The characters between two halves are decoded by themselves; `run` holds those since the
last half. -/
def decodePoints (run : List Char) : List Point → List Point
  | [] => (decode run).map .char
  | .char c :: rest => decodePoints (run ++ [c]) rest
  | .half n :: rest => (decode run).map .char ++ .half n :: decodePoints [] rest

end LanguageService.Text.Percent

namespace LanguageService.Uri

def fileScheme : List Char := "file://".toList

/-- A path that names a drive has no slash before the drive letter. -/
def dropDriveSlash {α : Type} [DecidableEq α] (slash colon : α) : List α → List α
  | first :: drive :: third :: rest =>
    if first = slash ∧ third = colon then drive :: third :: rest
    else first :: drive :: third :: rest
  | path => path

def toPath (uri : String) : String :=
  if fileScheme.isPrefixOf uri.toList then
    String.ofList (dropDriveSlash '/' ':' (Text.Percent.decode (uri.toList.drop fileScheme.length)))
  else uri

def path : Text → Text
  | .plain uri => .plain (toPath uri)
  | .rough points halved =>
    if (fileScheme.map Text.Point.char).isPrefixOf points then
      .ofPoints (dropDriveSlash (.char '/') (.char ':')
        (Text.Percent.decodePoints [] (points.drop fileScheme.length)))
    else .rough points halved

end LanguageService.Uri
