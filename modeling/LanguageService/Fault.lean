import LanguageService.Json.Inspect
import LanguageService.Settings.File
/-! Why handling a message can fail: parameters of the wrong kind, and what the file system
and the settings refuse. -/
namespace LanguageService

inductive Fault where
  | noMember (kind : Json.Kind) (member : String)
  | noKey (key : Json)
  | notSubscriptable (kind : Json.Kind)
  | listIndex (kind : Json.Kind)
  | textIndex (kind : Json.Kind)
  | sliceIndex
  | outOfRange
  | indexSize
  | unordered (sign : String) (left right : Json.Kind)
  | noLength (kind : Json.Kind)
  | notIterable (kind : Json.Kind)
  | notText (kind : Json.Kind)
  | notKey (kind : Json.Kind)
  | notPath (kind : Json.Kind)
  | handleAbove
  | handleBelow
  | notPathName (kind : Json.Kind)
  | notNumeral (text : Text)
  | notNumber (kind : Json.Kind)
  | integerOfNan
  | integerOfInfinity
  | notContainer (kind : Json.Kind)
  | notMatchable (kind : Json.Kind)
  | commentLead (given : Json)
  | disk (fault : Disk.Fault)
  | settings (fault : Settings.LoadFault)
  | options (fault : Settings.Fault)
  | unencodable (fault : Text.Unencodable)

namespace Fault

def longestQuote : Nat := 200

def message : Fault → String
  | noMember kind member => s!"'{kind.name}' object has no attribute '{member}'"
  | noKey key => key.inspect
  | notSubscriptable kind => s!"'{kind.name}' object is not subscriptable"
  | listIndex kind => s!"list indices must be integers or slices, not {kind.name}"
  | textIndex kind => s!"string indices must be integers, not '{kind.name}'"
  | sliceIndex => "slice indices must be integers or None or have an __index__ method"
  | outOfRange => "list index out of range"
  | indexSize => "cannot fit 'int' into an index-sized integer"
  | unordered sign left right =>
    s!"'{sign}' not supported between instances of '{left.name}' and '{right.name}'"
  | noLength kind => s!"object of type '{kind.name}' has no len()"
  | notIterable kind => s!"'{kind.name}' object is not iterable"
  | notText kind => s!"can only concatenate str (not \"{kind.name}\") to str"
  | notKey kind => s!"unhashable type: '{kind.name}'"
  | notPath kind =>
    s!"stat: path should be string, bytes, os.PathLike or integer, not {kind.name}"
  | handleAbove => "fd is greater than maximum"
  | handleBelow => "fd is less than minimum"
  | notPathName kind => s!"expected str, bytes or os.PathLike object, not {kind.name}"
  | notNumeral text =>
    "invalid literal for int() with base 10: " ++
      String.ofList (text.quoted.toList.take longestQuote)
  | notNumber kind =>
    s!"int() argument must be a string, a bytes-like object or a real number, not '{kind.name}'"
  | integerOfNan => "cannot convert float NaN to integer"
  | integerOfInfinity => "cannot convert float infinity to integer"
  | notContainer kind => s!"argument of type '{kind.name}' is not iterable"
  | notMatchable kind => s!"expected string or bytes-like object, got '{kind.name}'"
  | commentLead given =>
    s!"Unsupported comment lead {given.inspect}, expected one of {CommentLead.choices}"
  | disk fault => fault.message
  | settings fault => fault.message
  | options fault => fault.message
  | unencodable fault => fault.message

end Fault

namespace Json

def key (v : Json) : Except Fault Key :=
  match v.key? with
  | some k => .ok k
  | none => .error (.notKey v.kind)

def memberD (v : Json) (name : Text) (absent : Json) : Except Fault Json :=
  match v with
  | object members => .ok ((members.lookup name).getD absent)
  | v => .error (.noMember v.kind "get")

def member (v : Json) (name : Text) : Except Fault Json := v.memberD name null

def subscript (v : Json) (name : Text) : Except Fault Json :=
  match v with
  | object members =>
    match members.lookup name with
    | some found => .ok found
    | none => .error (.noKey (text name))
  | list _ => .error (.listIndex .text)
  | text _ => .error (.textIndex .text)
  | v => .error (.notSubscriptable v.kind)

/-- The parts of a value one by one: the items of a list, the characters of a text and the
names of an object. -/
def elements : Json → Except Fault (List Json)
  | list items => .ok items
  | text s => .ok (s.points.map fun point => text (.ofPoints [point]))
  | object members => .ok (members.map fun (name, _) => text name)
  | v => .error (.notIterable v.kind)

def toInteger : Json → Except Fault Int
  | int n => .ok n
  | bool b => .ok (if b then 1 else 0)
  | real x =>
    match x, x.truncate? with
    | _, some n => .ok n
    | .notANumber, none => .error .integerOfNan
    | _, none => .error .integerOfInfinity
  | text s =>
    match Number.integer? s.shown.toList with
    | some n => .ok n
    | none => .error (.notNumeral s)
  | v => .error (.notNumber v.kind)

def greatestHandle : Int := Int.pow 2 31 - 1

/-- Whether a value can be asked for as a file: a number could only be that of an open
file, and is none. -/
def handleFault? : Json → Option Fault
  | null | text _ | bool _ => none
  | int n =>
    if greatestHandle < n then some .handleAbove
    else if n < -greatestHandle - 1 then some .handleBelow
    else none
  | v => some (.notPath v.kind)

end Json

def CommentLead.ofJson (v : Json) : Except Fault CommentLead :=
  match v with
  | .text (.plain s) =>
    match CommentLead.ofText? s with
    | some lead => .ok lead
    | none => .error (.commentLead v)
  | v => .error (.commentLead v)

end LanguageService
