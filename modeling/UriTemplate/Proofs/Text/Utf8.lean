import UriTemplate.Text.Utf8
import UriTemplate.Proofs.Outcome

/-!
# Reading back the bytes of a text

`Utf8.decode_utf8` says that `Utf8.decode`, where it accepts surrogates, reads the bytes of any
text back, lone surrogates included. The proof follows `Utf8.decodeFrom` one code point at a time:
`Utf8.IsSequence` says how the bytes of a code point fall into a first byte and those that continue
it, with one lemma for each number of bytes.
-/

namespace UriTemplate

/-- A number below 256 is that of a byte. -/
theorem Byte.val_of_nat {n : Nat} (h : n < 256) : (Byte.ofNat n).val = n :=
  Nat.mod_eq_of_lt h

/-- A code point has its number. -/
theorem CodePoint.of_nat_val (c : CodePoint) : CodePoint.ofNat c.val = c := by
  simp [CodePoint.ofNat, c.isLt]

namespace Utf8

variable {bounds : Nat × Nat} {count value n : Nat} {rest : List Byte}

/-- One byte that continues a sequence adds six bits to what is known of the code point. -/
theorem read_tail_cons {result : Nat × List Byte} (hlo : bounds.1 ≤ 0x80 + n % 64)
    (hhi : 0x80 + n % 64 ≤ bounds.2)
    (hrest : readTail (0x80, 0xBF) count (value * 64 + n % 64) rest = .ok result) :
    readTail bounds (count + 1) value (Byte.ofNat (0x80 + n % 64) :: rest) = .ok result := by
  have hval : (Byte.ofNat (0x80 + n % 64)).val = 0x80 + n % 64 := Byte.val_of_nat (by omega)
  have hbits : (0x80 + n % 64) % 64 = n % 64 := by omega
  simp [readTail, hval, hlo, hhi, hbits, hrest]

/-- `IsSequence c lead tail` says that the bytes of the code point `c` are `lead` and `tail`, that
`lead` announces as many bytes as `tail` has, and that together they hold the bits of `c`. -/
structure IsSequence (c : CodePoint) (lead : Byte) (tail : List Byte) : Prop where
  utf8_eq : c.utf8 = lead :: tail
  tailLength_eq : tailLength lead = some tail.length
  readTail_eq : ∀ rest,
    readTail (secondBounds true lead) tail.length (leadBits lead) (tail ++ rest) =
      .ok (c.val, rest)

variable {c : CodePoint}

/-- A code point below 0x80 is one byte. -/
theorem is_sequence_one (h : c.val < 0x80) : IsSequence c (Byte.ofNat c.val) [] := by
  have hlead : (Byte.ofNat c.val).val = c.val := Byte.val_of_nat (by omega)
  refine ⟨by simp [CodePoint.utf8, h], by simp [tailLength, hlead, h], fun rest => ?_⟩
  simp [readTail, leadBits, hlead, h]

/-- A code point below 0x800 is two bytes. -/
theorem is_sequence_two (hlo : 0x80 ≤ c.val) (hhi : c.val < 0x800) :
    IsSequence c (Byte.ofNat (0xC0 + c.val / 64)) [Byte.ofNat (0x80 + c.val / 1 % 64)] := by
  have hlead : (Byte.ofNat (0xC0 + c.val / 64)).val = 0xC0 + c.val / 64 :=
    Byte.val_of_nat (by omega)
  have hbits : leadBits (Byte.ofNat (0xC0 + c.val / 64)) = c.val / 64 := by grind [leadBits]
  refine ⟨by grind [CodePoint.utf8], by grind [tailLength], fun rest => ?_⟩
  rw [hbits]
  refine read_tail_cons (by grind [secondBounds]) (by grind [secondBounds]) ?_
  have hval : c.val / 64 * 64 + c.val / 1 % 64 = c.val := by omega
  rw [hval]
  rfl

/-- The lower bound of the second byte after 0xE0 is where code points of three bytes start. -/
theorem is_sequence_three (hlo : 0x800 ≤ c.val) (hhi : c.val < 0x10000) :
    IsSequence c (Byte.ofNat (0xE0 + c.val / 4096))
      [Byte.ofNat (0x80 + c.val / 64 % 64), Byte.ofNat (0x80 + c.val / 1 % 64)] := by
  have hlead : (Byte.ofNat (0xE0 + c.val / 4096)).val = 0xE0 + c.val / 4096 :=
    Byte.val_of_nat (by omega)
  have hbits : leadBits (Byte.ofNat (0xE0 + c.val / 4096)) = c.val / 4096 := by grind [leadBits]
  refine ⟨by grind [CodePoint.utf8], by grind [tailLength], fun rest => ?_⟩
  rw [hbits]
  refine read_tail_cons (by grind [secondBounds]) (by grind [secondBounds])
    (read_tail_cons (by omega) (by omega) ?_)
  have hval : (c.val / 4096 * 64 + c.val / 64 % 64) * 64 + c.val / 1 % 64 = c.val := by omega
  rw [hval]
  rfl

/-- The bounds of the second byte after 0xF0 and 0xF4 are where code points of four bytes start and
end. -/
theorem is_sequence_four (hlo : 0x10000 ≤ c.val) :
    IsSequence c (Byte.ofNat (0xF0 + c.val / 262144))
      [Byte.ofNat (0x80 + c.val / 4096 % 64), Byte.ofNat (0x80 + c.val / 64 % 64),
        Byte.ofNat (0x80 + c.val / 1 % 64)] := by
  have hmax := c.isLt
  have hlead : (Byte.ofNat (0xF0 + c.val / 262144)).val = 0xF0 + c.val / 262144 :=
    Byte.val_of_nat (by omega)
  have hbits : leadBits (Byte.ofNat (0xF0 + c.val / 262144)) = c.val / 262144 := by
    grind [leadBits]
  refine ⟨by grind [CodePoint.utf8], by grind [tailLength], fun rest => ?_⟩
  rw [hbits]
  refine read_tail_cons (by grind [secondBounds]) (by grind [secondBounds])
    (read_tail_cons (by omega) (by omega) (read_tail_cons (by omega) (by omega) ?_))
  have hval : ((c.val / 262144 * 64 + c.val / 4096 % 64) * 64 + c.val / 64 % 64) * 64 +
      c.val / 1 % 64 = c.val := by omega
  rw [hval]
  rfl

/-- Each code point is a sequence of bytes. -/
theorem exists_is_sequence (c : CodePoint) : ∃ lead tail, IsSequence c lead tail := by
  by_cases h1 : c.val < 0x80
  · exact ⟨_, _, is_sequence_one h1⟩
  by_cases h2 : c.val < 0x800
  · exact ⟨_, _, is_sequence_two (by omega) h2⟩
  by_cases h3 : c.val < 0x10000
  · exact ⟨_, _, is_sequence_three (by omega) h3⟩
  · exact ⟨_, _, is_sequence_four (by omega)⟩

/-- Decoding reads the bytes of a code point and goes on after them. -/
theorem decode_from_utf8_append (c : CodePoint) (position : Nat) (rest : List Byte) :
    decodeFrom true position (c.utf8 ++ rest) =
      (decodeFrom true (position + c.utf8.length) rest).map (c :: ·) := by
  obtain ⟨lead, tail, hsequence⟩ := exists_is_sequence c
  have hread := hsequence.readTail_eq rest
  have hposition : position + c.utf8.length = position + 1 + tail.length := by
    rw [hsequence.utf8_eq, List.length_cons]
    omega
  rw [hposition, hsequence.utf8_eq, List.cons_append, decodeFrom]
  simp only [hsequence.tailLength_eq]
  split
  · simp_all
  · simp_all [CodePoint.of_nat_val]

/-- Decoding reads the bytes of a text back. -/
theorem decode_utf8 (t : Text) : decode true t.utf8 = .ok t := by
  have hfrom : ∀ position, decodeFrom true position t.utf8 = .ok t := by
    induction t with
    | nil =>
        intro position
        rw [Text.utf8, List.flatMap_nil, decodeFrom]
    | cons c rest ih =>
        intro position
        have hcons : Text.utf8 (c :: rest) = c.utf8 ++ Text.utf8 rest := rfl
        rw [hcons, decode_from_utf8_append, ih, map_ok]
  exact hfrom 0

end Utf8

end UriTemplate
