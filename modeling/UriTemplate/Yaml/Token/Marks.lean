import UriTemplate.Text.Utf8
import UriTemplate.Yaml.Cursor
import UriTemplate.Yaml.Token

/-!
# Names, tags and directives

`Cursor.anchorName` reads the name after an anchor or alias indicator, `Cursor.tagToken` a tag in
its three written forms, and `Cursor.directive` a directive line. Escapes in a tag stand for the
bytes of its text.
-/

namespace UriTemplate.Yaml.Cursor

/-- `c.anchorName` is the name that follows the indicator here, and the cursor after it. -/
def anchorName (c : Cursor) : Except Error (Text × Cursor) :=
  let (name, after) := c.next.span CodePoint.isIdentifier
  if name.isEmpty || !(endsWord after.peek || after.peek.any (·.isOneOf "?:,]\x7d%@`")) then
    .error .token
  else .ok (name, after)

/-! ## Tags -/

/-- `c.tagHandle` is the handle that starts here: an exclamation mark alone before a space, or two
of them around a name. -/
def tagHandle (c : Cursor) : Except Error (Text × Cursor) :=
  if !c.isAt '!' then .error .token
  else if c.next.isAt ' ' then .ok (['!'], c.next)
  else
    let (name, after) := c.next.span CodePoint.isIdentifier
    if after.isAt '!' then
      .ok (CodePoint.ofChar '!' :: name ++ [CodePoint.ofChar '!'], after.next)
    else .error .token

/-- `isUri c` says that `c` may stand in the text of a tag. -/
def isUri (c : CodePoint) : Bool :=
  c.isLetter || c.isDigit || c.isOneOf "-;/?:@&=+$,_.!~*'()[]%"

/-- `c.escapedBytes fuel` is the bytes of the escapes from here on. -/
def escapedBytes : Nat → Cursor → Except Error (List Byte × Cursor)
  | 0, c => .ok ([], c)
  | fuel + 1, c =>
      if !c.isAt '%' then .ok ([], c)
      else
        match c.next.rest.take 2 with
        | [high, low] =>
            if high.isHexDigit && low.isHexDigit then do
              let byte := Byte.ofNat (16 * high.digitValue.getD 0 + low.digitValue.getD 0)
              let (more, final) ← (c.advance 3).escapedBytes fuel
              pure (byte :: more, final)
            else .error .token
        | _ => .error .token

/-- `c.uriFrom fuel` is the text of a tag from here on. -/
def uriFrom : Nat → Cursor → Except Error (Text × Cursor)
  | 0, c => .ok ([], c)
  | fuel + 1, c =>
      let (run, after) := c.span fun p => isUri p && p ≠ '%'
      if !after.isAt '%' then .ok (run, after)
      else do
        let (bytes, afterEscapes) ← after.escapedBytes (after.rest.length + 1)
        match Utf8.decode false bytes with
        | .error _ => .error .token
        | .ok escaped =>
            let (more, final) ← afterEscapes.uriFrom fuel
            pure (run ++ escaped ++ more, final)

/-- `c.uri` is the text of a tag that starts here. It must not be empty. -/
def uri (c : Cursor) : Except Error (Text × Cursor) :=
  if c.peek.any isUri then c.uriFrom (c.rest.length + 1) else .error .token

/-- `c.tagToken` is the tag that starts here: in full between angle brackets, the mark of no
particular tag, or a handle and a suffix. -/
def tagToken (c : Cursor) : Except Error (Token × Cursor) := do
  let (token, after) ←
    if c.next.isAt '<' then do
      let (suffix, after) ← (c.advance 2).uri
      if after.isAt '>' then pure (Token.tag none suffix, after.next) else throw Error.token
    else if endsWord c.next.peek then pure (Token.tag none ['!'], c.next)
    else do
      let word := c.next.rest.takeWhile fun p => !endsToken (some p)
      let (handle, afterHandle) ←
        if word.contains (CodePoint.ofChar '!') then c.tagHandle else pure (['!'], c.next)
      let (suffix, after) ← afterHandle.uri
      pure (Token.tag (some handle) suffix, after)
  if endsToken after.peek then pure (token, after) else throw .token

/-! ## Directives -/

/-- `c.versionNumber` is the number that starts here. -/
def versionNumber (c : Cursor) : Except Error (Nat × Cursor) :=
  let (digits, after) := c.span CodePoint.isDigit
  if digits.isEmpty then .error .token
  else
    match Decimal.ofDigits? digits with
    | .ok n => .ok (n, after)
    | .error e => .error (.value (.integer (.limit e)))

/-- `c.versionDirective` is the version that follows here. -/
def versionDirective (c : Cursor) : Except Error (Directive × Cursor) := do
  let (major, afterMajor) ← c.skipSpaces.versionNumber
  if !afterMajor.isAt '.' then throw .token
  let (minor, after) ← afterMajor.next.versionNumber
  if !endsToken after.peek then throw .token
  pure (.version major minor, after)

/-- `c.tagDirective` is the handle and the text it stands for that follow here. -/
def tagDirective (c : Cursor) : Except Error (Directive × Cursor) := do
  let (handle, afterHandle) ← c.skipSpaces.tagHandle
  if !afterHandle.isAt ' ' then throw .token
  let (lead, after) ← afterHandle.skipSpaces.uri
  if !endsToken after.peek then throw .token
  pure (.tagHandle handle lead, after)

/-- `c.directive` is the directive that starts here, and the cursor on the line after it. -/
def directive (c : Cursor) : Except Error (Directive × Cursor) := do
  let (name, afterName) := c.next.span CodePoint.isIdentifier
  if name.isEmpty || !endsToken afterName.peek then throw .token
  let (d, after) ←
    if name = Text.ofString "YAML" then afterName.versionDirective
    else if name = Text.ofString "TAG" then afterName.tagDirective
    else pure (Directive.unknown, afterName.skip fun p => !p.isBreak)
  let afterComment := after.skipSpaces.skipComment
  if !endsLine afterComment.peek then throw .token
  pure (d, afterComment.skipBreak)

end UriTemplate.Yaml.Cursor
