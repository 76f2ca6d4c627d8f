import UriTemplate.Text.Utf8

/-!
# Percent encoding

`Percent.encode` escapes the code points of a value that may not stand in a URI: every byte of
their UTF-8 form becomes a percent sign and two capital hexadecimal digits. Unreserved code points
are never escaped, reserved ones unless they are kept, and a percent sign always is.
`Percent.bytes?` undoes the escapes.
-/

namespace UriTemplate

namespace CodePoint

/-- `c.isUnreserved` says that `c` is an ASCII letter or digit or one of `-`, `.`, `_` and `~`. -/
def isUnreserved (c : CodePoint) : Bool :=
  c.isLetter || c.isDigit || c = '-' || c = '.' || c = '_' || c = '~'

/-- `c.isReserved` says that `c` delimits the parts of a URI. -/
def isReserved (c : CodePoint) : Bool := (Text.ofString ":/?#[]@!$&'()*+,;=").contains c

end CodePoint

namespace Percent

/-- `escape b` is the escape of the byte `b`. -/
def escape (b : Byte) : Text := CodePoint.ofChar '%' :: Text.hex Text.upperHex 2 b.val

/-- `isAllowed keepReserved c` says that `c` stands for itself. -/
def isAllowed (keepReserved : Bool) (c : CodePoint) : Bool :=
  c.isUnreserved || (keepReserved && c.isReserved)

/-- `encodeOne keepReserved c` is the encoding of the code point `c`. -/
def encodeOne (keepReserved : Bool) (c : CodePoint) : Text :=
  if isAllowed keepReserved c then [c] else c.utf8.flatMap escape

/-- `encode keepReserved t` is the encoding of the text `t`. -/
def encode (keepReserved : Bool) (t : Text) : Text := t.flatMap (encodeOne keepReserved)

/-- `bytes? t` is the bytes that the encoded text `t` stands for: an escape for its byte, any other
ASCII code point for itself. -/
def bytes? : Text → Option (List Byte)
  | [] => some []
  | c :: rest =>
      if c = '%' then
        match rest with
        | high :: low :: rest' =>
            match high.digitValue, low.digitValue with
            | some h, some l =>
                if h < 16 && l < 16 then (bytes? rest').map (Byte.ofNat (16 * h + l) :: ·) else none
            | _, _ => none
        | _ => none
      else if c.isAscii then (bytes? rest).map (Byte.ofNat c.val :: ·)
      else none

end Percent

end UriTemplate
