import UriTemplate.Log.Record

/-!
# Notices

A `Notice` is something that the library reports while it works. `Notice.record` is the record
that tells of it: which logger it goes through, how severe it is, its wording and its origin.
-/

namespace UriTemplate

/-- What the library reports. -/
inductive Notice where
  | parsed (text : Text) (components : Nat)
  | ignored (shape : Text)
  | loaded (bindings : Nat)
  | loading (path : Text)
  | undefined (names : List Text)
  | debugEnabled
  | failed (message : Text)
deriving DecidableEq

namespace Notice

/-- `n.logger` is the name of the logger that tells of `n`. -/
def logger : Notice → Text
  | parsed .. => "uritpl.dsl.parser"
  | ignored _ => "uritpl.types.values"
  | loaded _ => "uritpl.dsl.loader"
  | loading _ | undefined _ | debugEnabled | failed _ => "uritpl.cli"

/-- `n.level` is how severe `n` is. -/
def level : Notice → Log.Level
  | failed _ => Log.Level.error
  | _ => Log.Level.debug

/-- `n.message` is the wording of `n`. -/
def message : Notice → Text
  | parsed text components =>
      "Parsed template " ++ text.quoted ++ " into " ++ Decimal.ofNat components ++ " component(s)"
  | ignored shape =>
      "Ignoring binding of unsupported shape " ++ shape ++ "; treating it as undefined"
  | loaded bindings => "Loaded " ++ Decimal.ofNat bindings ++ " binding(s)"
  | loading path => "Loading bindings from: " ++ path
  | undefined names => "Undefined variables: " ++ Text.join (Text.ofString ", ") names
  | debugEnabled => "Debug logging enabled"
  | failed message => message

/-- `n.origin` is where `n` is made, as lines of the log show it. -/
def origin : Notice → Log.Origin
  | parsed .. => ⟨"parse_template", 111⟩
  | ignored _ => ⟨"coerce_value", 139⟩
  | loaded _ => ⟨"load_bindings_yaml", 65⟩
  | loading _ => ⟨"_expand", 60⟩
  | undefined _ => ⟨"_expand", 70⟩
  | debugEnabled => ⟨"main", 150⟩
  | failed _ => ⟨"_fail", 37⟩

/-- `n.record` is the record of `n`. -/
def record (n : Notice) : Log.Record := ⟨n.logger, n.level, n.message, some n.origin⟩

end Notice

end UriTemplate
