import UriTemplate.Command.Grammar

/-!
# Words of a command line

Each word of a command line is an option, an operand, or two minus signs, which make operands of
all words after them. `Grammar.word?` tells them apart: a name of two minus signs may be cut short
while only one option has such a name, a value may follow an equals sign, and a negative number or
a word with a space is an operand.
-/

namespace UriTemplate.Command

/-- What a word of a command line is. The word of an option may hold a value too: after an equals
sign, or right after a name of one letter. -/
inductive Word where
  | separator
  | operand (word : Text)
  | option (word : Text) (option : OptionSpec) (attached? : Option Text)
  | unknown (word : Text)
deriving DecidableEq

/-- Two minus signs. -/
def separatorText : Text := "--"

namespace Word

/-- `w.text` is the word as it was written. -/
def text : Word → Text
  | separator => separatorText
  | operand word | option word .. | unknown word => word

end Word

/-- `isNegativeNumber t` says that `t` is a minus sign, digits of any script, and possibly a point
with digits after it. A line break at the end does not count. -/
def isNegativeNumber (t : Text) : Bool :=
  let isDigits := fun t : Text => t.all fun c => c.decimalValue.isSome
  let body := if t.getLast?.any (fun c : CodePoint => c = '\n') then t.dropLast else t
  match body with
  | [] => false
  | sign :: number =>
      sign = '-' &&
        match Text.splitFirst '.' number with
        | none => !number.isEmpty && isDigits number
        | some (whole, fraction) => isDigits whole && !fraction.isEmpty && isDigits fraction

namespace Grammar

/-- `g.candidates word` is the readings of `word` as an option whose name is cut short, or as a
name of one letter together with what follows it. -/
def candidates (g : Grammar) (word : Text) : List (Text × OptionSpec × Option Text) :=
  if separatorText.isPrefixOf word then
    let (start, attached?) := match Text.splitFirst '=' word with
      | some (start, value) => (start, some value)
      | none => (word, none)
    (g.names.filter fun (name, _) => start.isPrefixOf name).map fun (name, o) =>
      (name, o, attached?)
  else
    (g.names.filter fun (name, _) => name = word.take 2).map fun (name, o) =>
      (name, o, some (word.drop 2))

/-- `g.exactly? word` is the option that `word` names in full, with the value after an equals
sign. -/
def exactly? (g : Grammar) (word : Text) : Option (OptionSpec × Option Text) :=
  match g.named? word with
  | some o => some (o, none)
  | none =>
      match Text.splitFirst '=' word with
      | some (name, value) => (g.named? name).map fun o => (o, some value)
      | none => none

/-- `g.word? word` is what `word` is when no separator comes before it. -/
def word? (g : Grammar) (word : Text) : Except UsageError Word :=
  match word with
  | [] => .ok (.operand word)
  | [_] => .ok (.operand word)
  | first :: _ =>
      if first ≠ '-' then .ok (.operand word)
      else
        match g.exactly? word with
        | some (o, attached?) => .ok (.option word o attached?)
        | none =>
            match g.candidates word with
            | [(_, o, attached?)] => .ok (.option word o attached?)
            | [] =>
                if isNegativeNumber word || word.any (· = ' ') then .ok (.operand word)
                else .ok (.unknown word)
            | several => .error (.ambiguous word (several.map (·.1)))

/-- `g.words line` is what the words of the command line are. -/
def words (g : Grammar) : List Text → Except UsageError (List Word)
  | [] => .ok []
  | word :: rest =>
      if word = separatorText then .ok (.separator :: rest.map .operand)
      else do
        let first ← g.word? word
        let others ← g.words rest
        pure (first :: others)

end Grammar

end UriTemplate.Command
