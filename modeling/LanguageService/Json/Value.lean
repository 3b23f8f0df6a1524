import LanguageService.Number.Double
import LanguageService.Text.Basic
/-! JSON values, and values as keys. Integers and floating-point numbers are apart, integers
have any size, and an object keeps its members in the order in which their names first
appeared. -/
namespace LanguageService

inductive Json where
  | null
  | bool (b : Bool)
  | int (n : Int)
  | real (x : Double)
  | text (s : Text)
  | list (items : List Json)
  | object (members : List (Text × Json))
  deriving Repr, Inhabited

namespace Json

inductive Kind where
  | null
  | bool
  | int
  | real
  | text
  | list
  | object
  deriving DecidableEq, Repr

def Kind.name : Kind → String
  | .null => "NoneType"
  | .bool => "bool"
  | .int => "int"
  | .real => "float"
  | .text => "str"
  | .list => "list"
  | .object => "dict"

def kind : Json → Kind
  | null => .null
  | bool _ => .bool
  | int _ => .int
  | real _ => .real
  | text _ => .text
  | list _ => .list
  | object _ => .object

/-- Empty and zero values, null and false count as nothing given. -/
def isTruthy : Json → Bool
  | null => false
  | bool b => b
  | int n => n != 0
  | real x => !x.isZero
  | text s => s != .plain ""
  | list items => !items.isEmpty
  | object members => !members.isEmpty

def integer? : Json → Option Int
  | int n => some n
  | bool b => some (if b then 1 else 0)
  | _ => none

def isNull : Json → Bool
  | null => true
  | _ => false

/-- Gives a name its value: in the old place if the name is there, else at the end. -/
def assign (members : List (Text × Json)) (name : Text) (value : Json) :
    List (Text × Json) :=
  match members with
  | [] => [(name, value)]
  | (other, old) :: rest =>
    if other = name then (name, value) :: rest else (other, old) :: assign rest name value

end Json

/-- Numbers that are equal are one key, whether written as an integer, with a fraction or as
a truth value. -/
inductive Key where
  | null
  | int (n : Int)
  | real (x : Double)
  | text (s : Text)
  deriving DecidableEq, Repr

def Json.key? : Json → Option Key
  | .null => some .null
  | .bool b => some (.int (if b then 1 else 0))
  | .int n => some (.int n)
  | .real x =>
    match x.toInt? with
    | some n => some (.int n)
    | none => some (.real x)
  | .text s => some (.text s)
  | .list _ => none
  | .object _ => none

end LanguageService
