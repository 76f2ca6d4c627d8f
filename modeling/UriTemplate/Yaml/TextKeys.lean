import UriTemplate.Yaml.Loader

/-!
# Mappings with texts as keys

`Constructor.textKeys` makes mappings whose keys are texts: that of a truth value in small letters,
that of any other key as it is written. `Library.read` gives the value of a document that a library
loads with this constructor.
-/

namespace UriTemplate.Yaml

/-- `keyText n` is the text of the object `n` as a key. -/
def keyText (n : Nat) : Loading Text := do
  match (← get).keyText n with
  | .ok t => return t
  | .error e => throw ⟨"ValueError", e.message⟩

/-- `textKeyed loader found entries` makes the keys and the values of the entries, each as a whole,
and puts the values into the mapping `found` at the texts of the keys. -/
def textKeyed (loader : Services) (found : List (Value × Nat)) :
    List (Nat × Nat) → Loading (List (Value × Nat))
  | [] => return found
  | (key, value) :: rest => do
      loader.construct true key
      loader.construct true value
      textKeyed loader (Entries.insert Value.same (.text (← keyText key)) value found) rest

/-- The constructor of mappings with texts as keys. -/
def Constructor.textKeys : Constructor where
  isLazy := false
  entries loader n := do
    loader.flatten n
    textKeyed loader [] (← cell n).entries

/-- `lib.read text` is the value of the document that the text composes, with texts as keys. A text
without a document stands for null. -/
def Library.read (lib : Library) (text : Text) : Except Failure Value := do
  match ← lib.load .textKeys text with
  | none => return .null
  | some loaded => return loaded.value

end UriTemplate.Yaml
