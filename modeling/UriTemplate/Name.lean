import UriTemplate.Text.Alphanumeric

/-!
# Variable names

`Name.isName` says which texts name a variable. A name without percent signs is a non-empty run of
ASCII letters and digits, underscores, dots, and code points above ASCII. In a name with percent
signs each of them starts an escape of two hexadecimal digits, and the rest are letters and numbers
of any script, underscores and dots; `Name.isEscaped` says so of a text, which may then be empty.
-/

namespace UriTemplate.Name

/-- `isPlain c` says that `c` is a letter or number of some script, an underscore or a dot. -/
def isPlain (c : CodePoint) : Bool := c.isAlphanumeric || c = '_' || c = '.'

/-- `isEscaped t` says that every percent sign in `t` starts an escape of two hexadecimal digits
and that everything outside the escapes is plain. -/
def isEscaped : Text → Bool
  | [] => true
  | c :: rest =>
      if c = '%' then
        match rest with
        | high :: low :: rest' => high.isHexDigit && low.isHexDigit && isEscaped rest'
        | _ => false
      else isPlain c && isEscaped rest

/-- `isName t` says that `t` may name a variable. -/
def isName (t : Text) : Bool :=
  if t.isEmpty then false
  else if t.any fun c => c = '%' then isEscaped t
  else t.all fun c => isPlain c || !c.isAscii

end UriTemplate.Name
