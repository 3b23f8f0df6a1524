import LanguageService.Json.Value
/-! When two values are equal, and which comes first. Numbers of all kinds compare by their
size, texts by their characters and lists item by item; other values have no order. -/
namespace LanguageService.Json

def numeric? : Json → Option (Int ⊕ Double)
  | .real x => some (.inr x)
  | v => v.integer?.map .inl

def compareNumbers : Int ⊕ Double → Int ⊕ Double → Option Ordering
  | .inl n, .inl m => some (compare n m)
  | .inl n, .inr y => (y.compareInt n).map Ordering.swap
  | .inr x, .inl m => x.compareInt m
  | .inr x, .inr y => x.order y

def equalNumbers (v w : Json) : Bool :=
  match v.numeric?, w.numeric? with
  | some a, some b => compareNumbers a b == some .eq
  | _, _ => false

mutual
/-- Whether two values are equal; the order of an object's members does not count.
Not-a-number is one value, which equals itself. -/
def same : Json → Json → Bool
  | .null, .null => true
  | .text s, .text t => s == t
  | .list items, .list others => sameItems items others
  | .object members, .object others =>
    members.length == others.length && sameMembers members others
  | .real .notANumber, .real .notANumber => true
  | v, w => equalNumbers v w

def sameItems : List Json → List Json → Bool
  | [], [] => true
  | v :: items, w :: others => same v w && sameItems items others
  | _, _ => false

def sameMembers : List (Text × Json) → List (Text × Json) → Bool
  | [], _ => true
  | (name, v) :: members, others =>
    (match others.lookup name with
      | some w => same v w
      | none => false) && sameMembers members others
end

structure Unordered where
  left : Kind
  right : Kind
  deriving DecidableEq, Repr

mutual
def atMost : Json → Json → Except Unordered Bool
  | .text s, .text t => .ok (compare s.codes t.codes).isLE
  | .list items, .list others => atMostItems items others
  | v, w =>
    match v.numeric?, w.numeric? with
    | some a, some b => .ok ((compareNumbers a b).any Ordering.isLE)
    | _, _ => .error ⟨v.kind, w.kind⟩

def atMostItems : List Json → List Json → Except Unordered Bool
  | [], _ => .ok true
  | _ :: _, [] => .ok false
  | v :: items, w :: others => if same v w then atMostItems items others else atMost v w
end

end LanguageService.Json
