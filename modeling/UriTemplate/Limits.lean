import UriTemplate.Text

/-!
# Limits on templates

`Limits` bounds what a template may hold: `Limits.accepts` says which lengths a prefix modifier may
have.
-/

namespace UriTemplate

/-- Bounds on what a template may hold: the greatest length of a prefix modifier. -/
structure Limits where
  maxPrefixLength : Int
deriving DecidableEq

/-- The limits in force by default: a length fits into a signed 64-bit word. -/
def Limits.standard : Limits := ⟨0x7FFFFFFFFFFFFFFF⟩

/-- `limits.accepts length` says that `length` may be the length of a prefix modifier. -/
def Limits.accepts (limits : Limits) (length : Int) : Bool :=
  0 < length && length ≤ limits.maxPrefixLength

end UriTemplate
