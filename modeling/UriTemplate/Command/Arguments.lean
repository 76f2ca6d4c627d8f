import UriTemplate.Command.Word

/-!
# Arguments of a command line

`Grammar.arguments` reads a command line: the options that were given, in order, the operands, and
the words that have no place. Options and operands may be mixed. A request for help ends the
reading at once, as a word that does not fit does.
-/

namespace UriTemplate.Command

/-- An option that was given, with its value if it takes one. -/
structure Setting where
  option : OptionSpec
  value? : Option Text
deriving DecidableEq

/-- What a command line holds: options, the operand or the words of the command, and words that have
no place. -/
structure Arguments where
  settings : List Setting
  operands : List Text
  unrecognized : List Text
deriving DecidableEq

namespace Arguments

/-- The arguments of an empty command line. -/
def empty : Arguments := ⟨[], [], []⟩

/-- `a.withSettings settings` is `a` after the given options. -/
def withSettings (a : Arguments) (settings : List Setting) : Arguments :=
  { a with settings := settings ++ a.settings }

/-- `a.withUnrecognized words` is `a` after words that have no place. -/
def withUnrecognized (a : Arguments) (words : List Text) : Arguments :=
  { a with unrecognized := words ++ a.unrecognized }

end Arguments

/-- Why the reading of a command line ends early. -/
inductive Stop where
  | help
  | misuse (e : UsageError)
deriving DecidableEq

namespace Grammar

/-- `g.letter? c` is the option whose name is a minus sign and `c`. -/
def letter? (g : Grammar) (c : CodePoint) : Option OptionSpec :=
  g.named? [CodePoint.ofChar '-', c]

/-- `g.letters o value` is the options that a word gives which starts with a name of `o` of one
letter: `o` itself, and those whose names are the letters of `value`. -/
def letters (g : Grammar) (o : OptionSpec) : Text → Except UsageError (List Setting)
  | [] => .error (.uselessValue o [])
  | c :: rest =>
      match g.letter? c, rest with
      | none, _ => .error (.uselessValue o (c :: rest))
      | some next, [] => .ok [⟨o, none⟩, ⟨next, none⟩]
      | some next, more => return ⟨o, none⟩ :: (← g.letters next more)

/-- `g.attached word o value` is the options that the word of `o` gives with a value attached. -/
def attached (g : Grammar) (word : Text) (o : OptionSpec) (value : Text) :
    Except UsageError (List Setting) :=
  if o.kind = .value then .ok [⟨o, some value⟩]
  else if separatorText.isPrefixOf word then .error (.uselessValue o value)
  else g.letters o value

/-- `take settings` is the options, unless one of them asks for help. -/
def take (settings : List Setting) : Except Stop (List Setting) :=
  if settings.any fun s => s.option.kind = .help then .error .help else .ok settings

/-- `g.operands? words` is the operands at the start of `words`, and what follows them. A separator
next to a single operand is dropped; a command comes with all words after it. -/
def operands? (g : Grammar) (words : List Word) : Option (List Text × List Word) :=
  match g.operand, words with
  | .single, .operand t :: .separator :: rest => some ([t], rest)
  | .single, .operand t :: rest => some ([t], rest)
  | .single, .separator :: .operand t :: rest => some ([t], rest)
  | .command, .operand _ :: _ => some (words.map Word.text, [])
  | .command, .separator :: .operand _ :: _ => some (words.map Word.text, [])
  | _, _ => none

/-- Operands are words of their own. -/
theorem length_operands {g : Grammar} {words rest : List Word} {operands : List Text}
    (h : g.operands? words = some (operands, rest)) : rest.length < words.length := by
  unfold operands? at h
  split at h <;> simp only [Option.some.injEq, Prod.mk.injEq, reduceCtorEq] at h <;>
    simp only [← h.2, List.length_cons, List.length_nil] <;> omega

/-- `g.collect wanted words` is the arguments that the words make up. Operands are taken once, while
they are `wanted`. -/
def collect (g : Grammar) (wanted : Bool) (words : List Word) : Except Stop Arguments :=
  match words with
  | [] => .ok Arguments.empty
  | .unknown t :: rest => return (← g.collect wanted rest).withUnrecognized [t]
  | .option word o (some value) :: rest => do
      let settings ← take (← (g.attached word o value).mapError .misuse)
      return (← g.collect wanted rest).withSettings settings
  | .option _ o none :: rest =>
      if o.kind = .value then
        match rest with
        | .operand value :: following =>
            return (← g.collect wanted following).withSettings [⟨o, some value⟩]
        | _ => .error (.misuse (.missingValue o))
      else do
        let settings ← take [⟨o, none⟩]
        return (← g.collect wanted rest).withSettings settings
  | first :: rest =>
      match _h : if wanted then g.operands? (first :: rest) else none with
      | some (operands, following) =>
          return { (← g.collect false following) with operands := operands }
      | none => return (← g.collect wanted rest).withUnrecognized [first.text]
termination_by words.length
decreasing_by
  all_goals simp_wf
  all_goals first
    | omega
    | (split at _h
       · have := length_operands _h
         simp only [List.length_cons] at this
         omega
       · simp at _h)

/-- `g.arguments line` is the arguments of the command line, which must have operands. -/
def arguments (g : Grammar) (line : List Text) : Except Stop Arguments := do
  let words ← (g.words line).mapError .misuse
  let a ← g.collect true words
  if a.operands.isEmpty then .error (.misuse (.missingOperand g.operandName)) else pure a

end Grammar

end UriTemplate.Command
