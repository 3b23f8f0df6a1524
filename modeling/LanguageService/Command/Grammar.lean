import LanguageService.Text.Character
import LanguageService.Text.Quoted
/-! Command lines. Options may stand anywhere, may be shortened as long as one is meant,
and take their value after an equals sign or as the next argument. What is left over is
collected, and is for the caller to refuse. -/
namespace LanguageService.Command

inductive Effect where
  | help
  | version
  | value (name : String) (choices : List String)
  deriving DecidableEq, Repr

structure Switch where
  names : List String
  effect : Effect
  deriving DecidableEq, Repr

inductive Operand where
  | none
  | one (label : String)
  | many (label : String)
  | command (label : String) (choices : List String)
  deriving DecidableEq, Repr

structure Grammar where
  program : String
  usage : String
  details : String
  version : String
  switches : List Switch
  operand : Operand
  deriving DecidableEq, Repr

structure Halt where
  code : Int
  output : String
  errors : String
  deriving DecidableEq, Repr

/-- What was read. Two dashes as the value of an option take back what it had. -/
structure Parsed where
  values : List (String × Option String) := []
  operands : Option (List String) := none
  extras : List String := []
  deriving DecidableEq, Repr

inductive Mark where
  | operand
  | separator
  | switch (switch : Switch) (name : String) (value : Option String)
  | unknown
  deriving DecidableEq, Repr

namespace Grammar

def refuse {α : Type} (g : Grammar) (message : String) : Except Halt α :=
  .error ⟨2, "", g.usage ++ g.program ++ ": error: " ++ message ++ "\n"⟩

def refuseArgument {α : Type} (g : Grammar) (label message : String) : Except Halt α :=
  g.refuse ("argument " ++ label ++ ": " ++ message)

def named (g : Grammar) : List (String × Switch) :=
  g.switches.flatMap fun s => s.names.map (·, s)

def cutValue (arg : String) : String × Option String :=
  let cs := arg.toList
  if cs.contains '=' then
    (String.ofList (cs.takeWhile (· != '=')),
      some (String.ofList ((cs.dropWhile (· != '=')).drop 1)))
  else (arg, Option.none)

/-- The options that an argument may mean by the start of a name. A single dash also takes
a name of one letter with more letters behind it. -/
def meant (g : Grammar) (arg : String) : List (String × Switch × Option String) :=
  match arg.toList with
  | '-' :: '-' :: _ =>
    let (start, value) := cutValue arg
    g.named.filterMap fun (name, s) =>
      if start.toList.isPrefixOf name.toList then some (name, s, value) else Option.none
  | '-' :: letter :: more =>
    g.named.filterMap fun (name, s) =>
      if name = String.ofList ['-', letter] then some (name, s, some (String.ofList more))
      else if arg.toList.isPrefixOf name.toList then some (name, s, Option.none)
      else Option.none
  | _ => []

/-- A dash and a number without an exponent is no option, in the digits of any script and
also with a line feed behind it. -/
def isNegativeNumber (arg : String) : Bool :=
  match arg.toList with
  | '-' :: rest =>
    let rest := if rest.getLast? == some '\n' then rest.dropLast else rest
    match rest.dropWhile Text.isDecimal with
    | [] => !rest.isEmpty
    | c :: digits => c == '.' && !digits.isEmpty && digits.all Text.isDecimal
  | _ => false

def mark (g : Grammar) (arg : String) : Except Halt Mark :=
  if arg.toList.head? ≠ some '-' then .ok .operand
  else match g.named.lookup arg with
    | some s => .ok (.switch s arg Option.none)
    | Option.none =>
      if arg = "-" then .ok .operand
      else
        let (name, value) := cutValue arg
        match g.named.lookup name with
        | some s => .ok (.switch s name value)
        | Option.none =>
          match g.meant arg with
          | [(name, s, value)] => .ok (.switch s name value)
          | [] =>
            if isNegativeNumber arg || arg.toList.contains ' ' then .ok .operand
            else .ok .unknown
          | several =>
            g.refuse ("ambiguous option: " ++ arg ++ " could match " ++
              ", ".intercalate (several.map Prod.fst))

def marks (g : Grammar) : List String → Except Halt (List (Mark × String))
  | [] => .ok []
  | arg :: rest =>
    if arg = "--" then .ok ((.separator, arg) :: rest.map (.operand, ·))
    else do
      let mark ← g.mark arg
      pure ((mark, arg) :: (← g.marks rest))

def quotedList (choices : List String) : String :=
  ", ".intercalate (choices.map fun (choice : String) => Text.quoted choice)

def checkChoice (g : Grammar) (label : String) (choices : List String) (value : String) :
    Except Halt Unit :=
  if choices.isEmpty || choices.contains value then .ok ()
  else g.refuseArgument label
    ("invalid choice: " ++ Text.quoted value ++ " (choose from " ++ quotedList choices ++ ")")

def label (s : Switch) : String := "/".intercalate s.names

def runFlag (g : Grammar) (s : Switch) : Except Halt Unit :=
  match s.effect with
  | .help => .error ⟨0, g.usage ++ g.details, ""⟩
  | .version => .error ⟨0, g.version, ""⟩
  | .value _ _ => .ok ()

def refuseValue {α : Type} (g : Grammar) (s : Switch) (value : String) : Except Halt α :=
  g.refuseArgument (label s) ("ignored explicit argument " ++ Text.quoted value)

/-- A run of letters behind an option of one letter, each of which must be another such
option. -/
def runLetters (g : Grammar) (s : Switch) : List Char → Except Halt Unit
  | [] => g.runFlag s
  | letter :: more =>
    match g.named.lookup (String.ofList ['-', letter]) with
    | some next => g.runLetters next more
    | Option.none => g.refuseValue s (String.ofList (letter :: more))

def keep (g : Grammar) (p : Parsed) (s : Switch) (value : String) : Except Halt Parsed :=
  match s.effect with
  | .value name choices =>
    if value = "--" then .ok { p with values := p.values ++ [(name, Option.none)] }
    else do
      g.checkChoice (label s) choices value
      pure { p with values := p.values ++ [(name, some value)] }
  | _ => .ok p

def isValued (s : Switch) : Bool :=
  match s.effect with
  | .value _ _ => true
  | _ => false

def readSwitch (g : Grammar) (p : Parsed) (s : Switch) (name : String) (value : Option String)
    (rest : List (Mark × String)) : Except Halt (Parsed × List (Mark × String)) :=
  match isValued s, value, rest with
  | true, some value, rest => do pure (← g.keep p s value, rest)
  | true, Option.none, (.operand, value) :: rest => do pure (← g.keep p s value, rest)
  | true, Option.none, _ => g.refuseArgument (label s) "expected one argument"
  | false, Option.none, rest => do
    g.runFlag s
    pure (p, rest)
  | false, some value, rest =>
    if name.length = 2 ∧ value ≠ "" then do
      g.runLetters s value.toList
      pure (p, rest)
    else g.refuseValue s value

def isPlain : Mark → Bool
  | .operand | .separator => true
  | _ => false

def operandSize (operand : Operand) (args : List (Mark × String)) : Nat :=
  let marks := args.map Prod.fst
  let lead := marks.takeWhile (· == .separator)
  match marks.drop lead.length with
  | .operand :: rest =>
    match operand with
    | .none => 0
    | .one _ => lead.length + 1 + (rest.takeWhile (· == .separator)).length
    | .many _ => lead.length + 1 + (rest.takeWhile isPlain).length
    | .command _ _ => args.length
  | _ => 0

/-- Takes the operands; the first separator is none of them, except for a command. -/
def takeOperands (g : Grammar) (p : Parsed) (args : List String) : Except Halt Parsed :=
  match g.operand with
  | .command label choices => do
    g.checkChoice label choices (args.headD "")
    pure { p with operands := some args }
  | _ => .ok { p with operands := some (args.erase "--") }

def readOperands (g : Grammar) (p : Parsed) (args : List (Mark × String)) :
    Except Halt (Parsed × List (Mark × String)) :=
  let n := if p.operands.isSome then 0 else operandSize g.operand args
  if n = 0 then .ok (p, args)
  else do
    let p ← g.takeOperands p ((args.take n).map Prod.snd)
    pure (p, args.drop n)

/-- Reads arguments from left to right. Plain arguments that no operand takes are left
over, up to the next option. Each round takes at least one argument, so there are no more
rounds than arguments. -/
def read (g : Grammar) : (rounds : Nat) → Parsed → List (Mark × String) → Except Halt Parsed
  | 0, p, _ => .ok p
  | rounds + 1, p, args =>
    match args with
    | [] => .ok p
    | (.switch s name value, _) :: rest => do
      let (p, rest) ← g.readSwitch p s name value rest
      g.read rounds p rest
    | (.unknown, arg) :: rest => g.read rounds { p with extras := p.extras ++ [arg] } rest
    | args => do
      let (p, rest) ← g.readOperands p args
      if rest.length < args.length then g.read rounds p rest
      else
        let plain := (args.takeWhile fun (m, _) => isPlain m).map Prod.snd
        g.read rounds { p with extras := p.extras ++ plain } (args.drop plain.length)

def checkOperand (g : Grammar) (p : Parsed) : Except Halt Parsed :=
  match g.operand, p.operands with
  | .one label, Option.none | .many label, Option.none =>
    g.refuse ("the following arguments are required: " ++ label)
  | _, _ => .ok p

def parse (g : Grammar) (args : List String) : Except Halt Parsed := do
  let marked ← g.marks args
  g.checkOperand (← g.read (marked.length + 1) {} marked)

end Grammar
end LanguageService.Command
