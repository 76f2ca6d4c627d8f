import UriTemplate.Yaml.Error

/-!
# Tokens of a document

A `Token` is a directive, a mark of structure, a reference, a tag or a scalar. A `TokenStream` is
the tokens that a document yields before it ends or before a fault in it.
-/

namespace UriTemplate.Yaml

/-- A line of instructions before a document. -/
inductive Directive where
  | version (major minor : Nat)
  | tagHandle (handle lead : Text)
  | unknown
deriving DecidableEq

/-- A token of a document. A tag has a handle unless it is written in full, and a scalar is plain
unless it is quoted or a block. -/
inductive Token where
  | directive (d : Directive)
  | documentStart
  | documentEnd
  | streamEnd
  | blockSequenceStart
  | blockMappingStart
  | blockEnd
  | flowSequenceStart
  | flowSequenceEnd
  | flowMappingStart
  | flowMappingEnd
  | flowEntry
  | blockEntry
  | key
  | value
  | alias (name : Text)
  | anchor (name : Text)
  | tag (handle : Option Text) (suffix : Text)
  | scalar (content : Text) (plain : Bool)
deriving DecidableEq

/-- The tokens of a document in order, and the fault that ends them, if any. Without a fault the
last token is the end of the stream. -/
structure TokenStream where
  tokens : List Token
  fault : Option Error
deriving DecidableEq

end UriTemplate.Yaml
