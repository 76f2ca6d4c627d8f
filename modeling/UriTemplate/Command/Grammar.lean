import UriTemplate.Decimal

/-!
# Grammars of command lines

A `Grammar` says which options a command line may hold and what its other words, the operands, are.
A `UsageError` is a command line that does not fit, and `UsageError.message` words it.
-/

namespace UriTemplate.Command

/-- What an option is for: it asks for help, it switches something on, or it is followed by a
value. -/
inductive OptionKind where
  | help
  | switch
  | value
deriving DecidableEq

/-- An option and its names. A name is a minus sign and one letter, or two minus signs and a word.
Only options without a value have names of one letter. -/
structure OptionSpec where
  names : List Text
  kind : OptionKind
deriving DecidableEq

namespace OptionSpec

/-- `o.title` is the names of the option `o` as an error shows them. -/
def title (o : OptionSpec) : Text := Text.join (Text.ofString "/") o.names

end OptionSpec

/-- What the operands of a command line are: one word, or the name of a command and whatever
follows it. -/
inductive OperandKind where
  | single
  | command
deriving DecidableEq

/-- What a command line may hold, and the texts that explain it. -/
structure Grammar where
  program : Text
  usage : Text
  details : Text
  options : List OptionSpec
  operand : OperandKind
  operandName : Text
deriving DecidableEq

namespace Grammar

/-- `g.help` is the text that explains the grammar `g`. -/
def help (g : Grammar) : Text := g.usage ++ g.details

/-- `g.names` is the names of the options of `g`, each with its option, in order. -/
def names (g : Grammar) : List (Text × OptionSpec) :=
  g.options.flatMap fun o => o.names.map fun name => (name, o)

/-- `g.named? name` is the option of the given name. -/
def named? (g : Grammar) (name : Text) : Option OptionSpec := g.names.lookup name

end Grammar

/-- Why a command line does not fit its grammar. -/
inductive UsageError where
  | ambiguous (word : Text) (names : List Text)
  | uselessValue (option : OptionSpec) (value : Text)
  | missingValue (option : OptionSpec)
  | missingOperand (name : Text)
  | unknownCommand (name : Text) (command : Text) (commands : List Text)
  | unrecognized (words : List Text)
deriving DecidableEq

/-- `e.message` is the wording of the error `e`. -/
def UsageError.message : UsageError → Text
  | ambiguous word names =>
      "ambiguous option: " ++ word ++ " could match " ++ Text.join (Text.ofString ", ") names
  | uselessValue option value =>
      "argument " ++ option.title ++ ": ignored explicit argument " ++ value.quoted
  | missingValue option => "argument " ++ option.title ++ ": expected one argument"
  | missingOperand name => "the following arguments are required: " ++ name
  | unknownCommand name command commands =>
      "argument " ++ name ++ ": invalid choice: " ++ command.quoted ++ " (choose from " ++
        Text.join (Text.ofString ", ") (commands.map Text.quoted) ++ ")"
  | unrecognized words => "unrecognized arguments: " ++ Text.join (Text.ofString " ") words

end UriTemplate.Command
