import UriTemplate.Text

/-!
# Blanks

`CodePoint.isBlank` says that a code point is a tab or a space separator (Unicode category Zs).
Line breaks and other controls are no blanks. `Text.trim` removes the blanks at both ends of a
text. `CodePoint.isWhitespace` is the wider class of separators around a number.
-/

namespace UriTemplate

namespace CodePoint

/-- `c.isSpaceSeparator` says that `c` has the Unicode category Zs. -/
def isSpaceSeparator (c : CodePoint) : Bool :=
  c.val = 0x20 || c.val = 0xA0 || c.val = 0x1680 || (0x2000 ≤ c.val && c.val ≤ 0x200A) ||
    c.val = 0x202F || c.val = 0x205F || c.val = 0x3000

/-- `c.isBlank` says that `c` is a tab or a space separator. -/
def isBlank (c : CodePoint) : Bool := c = '\t' || c.isSpaceSeparator

/-- `c.isAsciiWhitespace` says that `c` is a space or one of the five controls from the tab to the
carriage return. -/
def isAsciiWhitespace (c : CodePoint) : Bool := c = ' ' || (9 ≤ c.val && c.val ≤ 13)

/-- `c.isWhitespace` says that `c` separates words: a space separator, a line or paragraph
separator, or a control of that kind. -/
def isWhitespace (c : CodePoint) : Bool :=
  c.isAsciiWhitespace || (0x1C ≤ c.val && c.val ≤ 0x1F) || c.val = 0x85 || c.isSpaceSeparator ||
    c.val = 0x2028 || c.val = 0x2029

end CodePoint

/-- `trim t` is `t` without the blanks at its two ends. -/
def Text.trim (t : Text) : Text := t.stripEnds CodePoint.isBlank

end UriTemplate
