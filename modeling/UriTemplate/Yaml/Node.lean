import UriTemplate.Yaml.Tag
import UriTemplate.Yaml.Timestamp

/-!
# Nodes as written

A document is written as a tree of `Node`s: scalars, sequences and mappings, each with its tag and
perhaps a name, and references to names. `Tag.ofPlain` gives a plain scalar the tag that its form
implies.
-/

namespace UriTemplate.Yaml

/-- A node of a document as it is written. -/
inductive Node where
  | scalar (name? : Option Text) (tag : Tag) (content : Text)
  | sequence (name? : Option Text) (tag : Tag) (items : List Node)
  | mapping (name? : Option Text) (tag : Tag) (entries : List (Node × Node))
  | reference (name : Text)

/-- `Tag.implied t` is the tag that the form `t` of a plain scalar implies. -/
def Tag.implied (t : Text) : Tag :=
  if isBool t then .bool
  else if isFloat t then .float
  else if isInt t then .int
  else if isWord ["<<"] t then .merge
  else if isNull t then .null
  else if Timestamp.isImplied t then .timestamp
  else if isWord ["="] t then .value
  else if isWord ["!", "&", "*"] t then .other (standardLead ++ Text.ofString "yaml")
  else .str

/-- `Tag.ofPlain t` is the tag of the plain scalar `t`. A single line feed at its end does not
count. -/
def Tag.ofPlain (t : Text) : Tag :=
  if t.getLast? = some (CodePoint.ofChar '\n') && t.length ≠ 1 then implied t.dropLast
  else implied t

namespace Node

instance : Inhabited Node := ⟨scalar none .null []⟩

/-- The node that stands where a document has none. -/
def empty : Node := scalar none .null []

end Node

end UriTemplate.Yaml
