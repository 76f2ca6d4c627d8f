import UriTemplate.Bindings.Document
import UriTemplate.Yaml.Standard

/-!
# The standard libraries

`Libraries.standard` loads documents with `Yaml.Library.standard`, and words refusals of its own.
-/

namespace UriTemplate

/-- The libraries that the program reads documents with. -/
def Libraries.standard : Libraries where
  yaml := .standard
  rejection bindings :=
    match bindings.find? fun (_, value) => !Schema.binding.accepts value with
    | some (name, value) => name.quoted ++ " is bound to an unsupported " ++ value.shapeName
    | none => "no binding is unsupported"

end UriTemplate
