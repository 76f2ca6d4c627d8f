import UriTemplate.Command.Arguments

/-!
# Requests

A `Request` is what a command line asks for: a command and how much is to be reported. The grammar
of the command line is `mainGrammar`, and each command has a grammar of its own for the words after
its name. `Request.ofLine` reads a command line; where it fails, `Refusal` is what is printed
instead.
-/

namespace UriTemplate.Command

/-- How much is to be reported. -/
inductive Verbosity where
  | verbose
  | quiet
  | normal
deriving DecidableEq

/-- A command and its arguments. -/
inductive Task where
  | expand (template : Text) (path? : Option Text) (assignments : List Text)
  | names (template : Text)
  | validate (template : Text)
deriving DecidableEq

/-- What a command line asks for. -/
structure Request where
  verbosity : Verbosity
  task : Task
deriving DecidableEq

/-! ## Grammars -/

/-- `lines ls` is the text of the given lines. -/
def lines (ls : List String) : Text := ls.flatMap fun l => Text.ofString l ++ Text.ofString "\n"

/-- The option that asks for help. -/
def helpOption : OptionSpec := ⟨[Text.ofString "-h", Text.ofString "--help"], .help⟩

/-- The option that asks for details of the work. -/
def verboseOption : OptionSpec := ⟨[Text.ofString "--verbose", Text.ofString "-v"], .switch⟩

/-- The option that asks for failures only. -/
def quietOption : OptionSpec := ⟨[Text.ofString "--quiet"], .switch⟩

/-- The option for the path of a bindings document. -/
def varsOption : OptionSpec := ⟨[Text.ofString "--vars"], .value⟩

/-- The option for a binding. -/
def setOption : OptionSpec := ⟨[Text.ofString "--set"], .value⟩

/-- The grammar of the command line. -/
def mainGrammar : Grammar where
  program := "uritpl"
  usage := lines
    ["usage: uritpl [-h] [--verbose] [--quiet] \x7bexpand,variables,validate\x7d ..."]
  details := lines
    ["",
     "Expand and check RFC 6570 URI templates.",
     "",
     "options:",
     "  -h, --help            show this help message and exit",
     "  --verbose, -v         Enable debug logging",
     "  --quiet               Only log errors",
     "",
     "Available commands:",
     "  \x7bexpand,variables,validate\x7d",
     "                        Available commands",
     "    expand              Expand a template",
     "    variables           List variables referenced by a template",
     "    validate            Check template syntax"]
  options := [helpOption, verboseOption, quietOption]
  operand := .command
  operandName := "\x7bexpand,variables,validate\x7d"

/-- The grammar of the words after the command that expands a template. -/
def expandGrammar : Grammar where
  program := "uritpl expand"
  usage := lines ["usage: uritpl expand [-h] [--vars VARS] [--set NAME=VALUE] template"]
  details := lines
    ["",
     "positional arguments:",
     "  template          Template text",
     "",
     "options:",
     "  -h, --help        show this help message and exit",
     "  --vars VARS       YAML or JSON file mapping variable names to values",
     "  --set NAME=VALUE  String binding; repeatable, overrides --vars entries"]
  options := [helpOption, varsOption, setOption]
  operand := .single
  operandName := "template"

/-- The grammar of the words after a command that only looks at a template. -/
def inspectGrammar (command : Text) : Grammar where
  program := "uritpl " ++ command
  usage := "usage: uritpl " ++ command ++ Text.ofString " [-h] template\n"
  details := lines
    ["",
     "positional arguments:",
     "  template    Template text",
     "",
     "options:",
     "  -h, --help  show this help message and exit"]
  options := [helpOption]
  operand := .single
  operandName := "template"

/-! ## Tasks -/

namespace Arguments

/-- `a.has o` says that the option `o` was given. -/
def has (a : Arguments) (o : OptionSpec) : Bool := a.settings.any fun s => s.option = o

/-- `a.values o` is the values given to the option `o`, in order. -/
def values (a : Arguments) (o : OptionSpec) : List Text :=
  a.settings.filterMap fun s => if s.option = o then s.value? else none

/-- `a.operand` is the first operand. -/
def operand (a : Arguments) : Text := a.operands.headD []

/-- `a.verbosity` is how much is to be reported. Details prevail over silence. -/
def verbosity (a : Arguments) : Verbosity :=
  if a.has verboseOption then .verbose else if a.has quietOption then .quiet else .normal

end Arguments

/-- A command: the grammar of the words after its name, and the task that they set. -/
structure CommandSpec where
  grammar : Grammar
  task : Arguments → Task

/-- The commands by name. Of several paths the last one prevails. -/
def commands : List (Text × CommandSpec) :=
  [("expand", ⟨expandGrammar, fun a =>
      .expand a.operand (a.values varsOption).getLast? (a.values setOption)⟩),
   ("variables", ⟨inspectGrammar "variables", fun a => .names a.operand⟩),
   ("validate", ⟨inspectGrammar "validate", fun a => .validate a.operand⟩)]

/-! ## Reading a command line -/

/-- Why a command line asks for nothing: it wants help, or it does not fit the grammar. -/
inductive Refusal where
  | help (g : Grammar)
  | misuse (g : Grammar) (e : UsageError)
deriving DecidableEq

/-- `refuse g stop` is the refusal of a command line at the words of the grammar `g`. -/
def refuse (g : Grammar) : Stop → Refusal
  | .help => .help g
  | .misuse e => .misuse g e

/-- `Request.ofLine line` is what the command line asks for. An empty one asks for help. -/
def Request.ofLine (line : List Text) : Except Refusal Request := do
  if line.isEmpty then throw (.help mainGrammar)
  let outer ← (mainGrammar.arguments line).mapError (refuse mainGrammar)
  match commands.lookup outer.operand with
  | none =>
      throw (.misuse mainGrammar
        (.unknownCommand mainGrammar.operandName outer.operand (commands.map (·.1))))
  | some command =>
      let inner ← (command.grammar.arguments outer.operands.tail).mapError (refuse command.grammar)
      let unrecognized := outer.unrecognized ++ inner.unrecognized
      if unrecognized.isEmpty then pure ⟨outer.verbosity, command.task inner⟩
      else throw (.misuse mainGrammar (.unrecognized unrecognized))

end UriTemplate.Command
