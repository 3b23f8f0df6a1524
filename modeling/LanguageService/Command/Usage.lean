import LanguageService.Command.Grammar
import LanguageService.Session.Lifecycle
/-! The command line of the tool, and its help. -/
namespace LanguageService.Command

def programName : String := "asteroid-ls"

def versionLine : String := programName ++ " " ++ Session.serverVersion ++ "\n"

def helpSwitch : Switch := ⟨["-h", "--help"], .help⟩

/-- The names of the comment leads; two dashes cannot be the value of an option. -/
def commentStyles : List (String × CommentLead) := [("dash", .dashes), ("percent", .percent)]

def commentsSwitch : Switch := ⟨["--comments"], .value "comments" (commentStyles.map Prod.fst)⟩

def commentsDetails : String :=
  "\npositional arguments:\n" ++
  "  FILE\n" ++
  "\noptions:\n" ++
  "  -h, --help            show this help message and exit\n" ++
  "  --comments \x7bdash,percent\x7d\n" ++
  "                        Line comment style: dash (--) or percent (%)\n"

def mainGrammar : Grammar where
  program := programName
  usage := "usage: asteroid-ls [-h] [--version] [--config FILE] \x7blsp,check,symbols\x7d ...\n"
  details :=
    "\nLanguage tools for Asteroid\n" ++
    "\npositional arguments:\n" ++
    "  \x7blsp,check,symbols\x7d  Available commands\n" ++
    "    lsp                Start the Language Server Protocol server\n" ++
    "    check              Report diagnostics for Asteroid files\n" ++
    "    symbols            Print the declarations and imports of a file\n" ++
    "\noptions:\n" ++
    "  -h, --help           show this help message and exit\n" ++
    "  --version            show program's version number and exit\n" ++
    "  --config FILE        Settings file (default: nearest .asteroid-ls.json)\n" ++
    "\nexamples:\n" ++
    "  asteroid-ls lsp                    Start the language server on stdio\n" ++
    "  asteroid-ls lsp --log server.log   Also copy the server log to a file\n" ++
    "  asteroid-ls check main.ast         Report problems in a file\n" ++
    "  asteroid-ls symbols main.ast       List declarations and imports\n" ++
    "        \n"
  version := versionLine
  switches := [helpSwitch, ⟨["--version"], .version⟩, ⟨["--config"], .value "config" []⟩]
  operand := .command "subcommand" ["lsp", "check", "symbols"]

def lspGrammar : Grammar where
  program := "asteroid-ls lsp"
  usage := "usage: asteroid-ls lsp [-h] [--log FILE]\n"
  details :=
    "\noptions:\n" ++
    "  -h, --help  show this help message and exit\n" ++
    "  --log FILE  Log file for debugging LSP communication\n"
  version := versionLine
  switches := [helpSwitch, ⟨["--log"], .value "log" []⟩]
  operand := .none

def checkGrammar : Grammar where
  program := "asteroid-ls check"
  usage := "usage: asteroid-ls check [-h] [--comments \x7bdash,percent\x7d] FILE [FILE ...]\n"
  details := commentsDetails
  version := versionLine
  switches := [helpSwitch, commentsSwitch]
  operand := .many "FILE"

def symbolsGrammar : Grammar where
  program := "asteroid-ls symbols"
  usage := "usage: asteroid-ls symbols [-h] [--comments \x7bdash,percent\x7d] FILE\n"
  details := commentsDetails
  version := versionLine
  switches := [helpSwitch, commentsSwitch]
  operand := .one "FILE"

inductive Request where
  | help
  | lsp (settings log : Option String)
  | check (settings : Option String) (lead : Option CommentLead) (files : List String)
  | symbols (settings : Option String) (lead : Option CommentLead) (file : String)
  deriving DecidableEq, Repr

def Parsed.last? (p : Parsed) (name : String) : Option String :=
  (p.values.reverse.lookup name).join

def Parsed.lead? (p : Parsed) : Option CommentLead := do
  commentStyles.lookup (← p.last? "comments")

/-- Arguments that nothing took are refused in the name of the whole tool. -/
def refuseExtras (extras : List String) : Except Halt Unit :=
  if extras.isEmpty then .ok ()
  else mainGrammar.refuse ("unrecognized arguments: " ++ " ".intercalate extras)

def readCommand (tool : Parsed) (command : String) (args : List String) : Except Halt Request := do
  let settings := tool.last? "config"
  let read (g : Grammar) (make : Parsed → Request) : Except Halt Request := do
    let p ← g.parse args
    refuseExtras (tool.extras ++ p.extras)
    pure (make p)
  if command = "lsp" then
    read lspGrammar fun p => .lsp settings (p.last? "log")
  else if command = "check" then
    read checkGrammar fun p => .check settings p.lead? (p.operands.getD [])
  else
    read symbolsGrammar fun p => .symbols settings p.lead? ((p.operands.getD []).headD "")

def Request.parse (args : List String) : Except Halt Request := do
  let tool ← mainGrammar.parse args
  match tool.operands with
  | some (command :: rest) => readCommand tool command rest
  | _ => do
    refuseExtras tool.extras
    pure .help

end LanguageService.Command
