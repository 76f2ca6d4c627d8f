import UriTemplate.Text.Quoted

/-!
# Text as bytes

`CodePoint.utf8` writes a code point as one to four bytes, a surrogate as three like any other code
point of its size. `Utf8.decode` reads bytes back and either accepts or refuses the encoding of a
surrogate; a refusal is a `Utf8.Fault` with the position of the bytes at fault.
-/

namespace UriTemplate

/-- `c.utf8` is the sequence of bytes that stands for `c`. -/
def CodePoint.utf8 (c : CodePoint) : List Byte :=
  let tail := fun shift : Nat => Byte.ofNat (0x80 + c.val / shift % 64)
  if c.val < 0x80 then [Byte.ofNat c.val]
  else if c.val < 0x800 then [Byte.ofNat (0xC0 + c.val / 64), tail 1]
  else if c.val < 0x10000 then [Byte.ofNat (0xE0 + c.val / 4096), tail 64, tail 1]
  else [Byte.ofNat (0xF0 + c.val / 262144), tail 4096, tail 64, tail 1]

/-- `Text.utf8 t` is the sequence of bytes that stands for `t`. -/
def Text.utf8 (t : Text) : List Byte := t.flatMap CodePoint.utf8

namespace Utf8

/-- Why bytes cannot be read: a sequence starts with a byte that starts none, a byte inside a
sequence does not continue it, or the bytes end inside a sequence. -/
inductive Fault where
  | start
  | continuation
  | truncated
deriving DecidableEq

/-- A fault together with the bytes at fault, the first of them at `position`. -/
structure Error where
  fault : Fault
  position : Nat
  bytes : List Byte
deriving DecidableEq

/-- `tailLength lead` is the number of bytes that follow the byte `lead` in a sequence, or `none`
when `lead` starts no sequence. -/
def tailLength (lead : Byte) : Option Nat :=
  if lead.val < 0x80 then some 0
  else if lead.val < 0xC2 then none
  else if lead.val < 0xE0 then some 1
  else if lead.val < 0xF0 then some 2
  else if lead.val < 0xF5 then some 3
  else none

/-- `leadBits lead` is the part of the code point that the first byte of a sequence holds. -/
def leadBits (lead : Byte) : Nat :=
  if lead.val < 0x80 then lead.val
  else if lead.val < 0xE0 then lead.val % 32
  else if lead.val < 0xF0 then lead.val % 16
  else lead.val % 8

/-- `secondBounds surrogates lead` is the range of the byte after `lead`: it excludes encodings
that are longer than needed, code points above U+10FFFF and, unless `surrogates`, surrogates. -/
def secondBounds (surrogates : Bool) (lead : Byte) : Nat × Nat :=
  if lead.val = 0xE0 then (0xA0, 0xBF)
  else if lead.val = 0xED && !surrogates then (0x80, 0x9F)
  else if lead.val = 0xF0 then (0x90, 0xBF)
  else if lead.val = 0xF4 then (0x80, 0x8F)
  else (0x80, 0xBF)

/-- `readTail bounds count value bytes` reads `count` bytes that continue the code point of which
`value` is known, the first of them within `bounds`. A fault comes with the number of bytes read
before it. -/
def readTail (bounds : Nat × Nat) : Nat → Nat → List Byte → Except (Fault × Nat) (Nat × List Byte)
  | 0, value, bytes => .ok (value, bytes)
  | _ + 1, _, [] => .error (.truncated, 0)
  | count + 1, value, b :: rest =>
      if bounds.1 ≤ b.val && b.val ≤ bounds.2 then
        match readTail (0x80, 0xBF) count (value * 64 + b.val % 64) rest with
        | .ok result => .ok result
        | .error (fault, seen) => .error (fault, seen + 1)
      else .error (.continuation, 0)

/-- Reading the tail of a sequence leaves no more bytes than there were. -/
theorem length_read_tail {bounds : Nat × Nat} {count value : Nat} {bytes : List Byte}
    {result : Nat × List Byte} (h : readTail bounds count value bytes = .ok result) :
    result.2.length ≤ bytes.length := by
  induction count generalizing bounds value bytes with
  | zero =>
      simp only [readTail, Except.ok.injEq] at h
      simp [← h]
  | succ count ih =>
      cases bytes with
      | nil => simp [readTail] at h
      | cons b rest =>
          simp only [readTail] at h
          split at h
          · split at h
            · rename_i inner hinner
              simp only [Except.ok.injEq] at h
              have := ih (h ▸ hinner)
              simp only [List.length_cons]
              omega
            · simp at h
          · simp at h

/-- `decodeFrom surrogates position bytes` reads bytes of which the first has the given
position. -/
def decodeFrom (surrogates : Bool) (position : Nat) (bytes : List Byte) : Except Error Text :=
  match bytes with
  | [] => .ok []
  | lead :: rest =>
      match tailLength lead with
      | none => .error ⟨.start, position, [lead]⟩
      | some count =>
          match _h : readTail (secondBounds surrogates lead) count (leadBits lead) rest with
          | .error (fault, seen) => .error ⟨fault, position, lead :: rest.take seen⟩
          | .ok (value, rest') =>
              (decodeFrom surrogates (position + 1 + count) rest').map (CodePoint.ofNat value :: ·)
termination_by bytes.length
decreasing_by
  have shorter : rest'.length ≤ rest.length := length_read_tail _h
  simp only [List.length_cons]
  omega

/-- `decode surrogates bytes` is the text that `bytes` stand for. Encoded surrogates are accepted
only if `surrogates` says so. -/
def decode (surrogates : Bool) (bytes : List Byte) : Except Error Text :=
  decodeFrom surrogates 0 bytes

end Utf8

end UriTemplate
