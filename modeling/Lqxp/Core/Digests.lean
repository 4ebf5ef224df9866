import Lqxp.Core.Pqc

/-!
This module contains what is needed of the bytes of texts and of digests in hexadecimal: both can be told
from their encodings.
-/

namespace Lqxp

section Utf8

theorem utf8_append (a b : String) : utf8 (a ++ b) = utf8 a ++ utf8 b := by
  simp [utf8]

theorem utf8_injective : Function.Injective utf8 := by
  intro a b h
  rw [utf8, utf8, String.toUTF8_eq_toByteArray, String.toUTF8_eq_toByteArray, Array.toList_inj] at h
  exact String.toByteArray_inj.1 (ByteArray.ext h)

theorem length_utf8 (a : String) : (utf8 a).length = Text.len a := by
  simp [utf8, Text.len]

theorem utf8_append_inj {a a' b b' : String} (hlen : Text.len a = Text.len a')
    (h : utf8 a ++ utf8 b = utf8 a' ++ utf8 b') : a = a' ∧ b = b' := by
  obtain ⟨ha, hb⟩ := List.append_inj h (by rw [length_utf8, length_utf8, hlen])
  exact ⟨utf8_injective ha, utf8_injective hb⟩

theorem utf8_ofList {cs : List Char} (h : ∀ ch ∈ cs, ch.toNat < 128)
    : utf8 (String.ofList cs) = cs.map fun ch => ch.toNat.toUInt8 := by
  induction cs with
  | nil => rfl
  | cons ch cs ih =>
    rw [String.ofList_cons, utf8_append, ih fun ch' hmem => h ch' (.tail _ hmem), List.map_cons]
    have hch : ch.toNat ≤ 127 := Nat.le_of_lt_succ (h ch (.head _))
    have hone : utf8 (String.singleton ch) = [ch.toNat.toUInt8] := by
      simp [utf8, String.toByteArray_singleton, List.utf8Encode_singleton, String.utf8EncodeChar, hch]
    rw [hone]
    rfl

end Utf8

section Hex

def hexPair (b : UInt8) : List Char := [(b.toNat / 16).digitChar, (b.toNat % 16).digitChar]

theorem utf8_hexEncode (bytes : List UInt8)
    : utf8 (hexEncode bytes)
        = bytes.flatMap fun b =>
          [(b.toNat / 16).digitChar.toNat.toUInt8, (b.toNat % 16).digitChar.toNat.toUInt8] := by
  have hsmall : ∀ d < 16, d.digitChar.toNat < 128 := by decide
  have hbyte (b : UInt8) : b.toNat < 256 := b.toNat_lt
  rw [hexEncode, utf8_ofList, List.map_flatMap]
  . rfl
  . intro ch hmem
    obtain ⟨b, -, hb⟩ := List.mem_flatMap.1 hmem
    have := hbyte b
    simp only [List.mem_cons, List.not_mem_nil, or_false] at hb
    obtain rfl | rfl := hb
    . exact hsmall _ (by omega)
    . exact hsmall _ (by omega)

theorem len_hexEncode (bytes : List UInt8) : Text.len (hexEncode bytes) = 2 * bytes.length := by
  rw [← length_utf8, utf8_hexEncode, List.length_flatMap]
  simp [Nat.mul_comm]

theorem parseHexByte_hexPair : ∀ b : UInt8,
    parseHexByte (b.toNat / 16).digitChar.toNat.toUInt8 (b.toNat % 16).digitChar.toNat.toUInt8
      = some b := by
  have h : ∀ n < 256, parseHexByte (n / 16).digitChar.toNat.toUInt8 (n % 16).digitChar.toNat.toUInt8
      = some n.toUInt8 := by decide +kernel
  intro b
  rw [h _ b.toNat_lt]
  simp

theorem isContinuation_digit {d : Nat} (h : d < 16) : isContinuation d.digitChar.toNat.toUInt8 = false := by
  have hall : ∀ d < 16, isContinuation d.digitChar.toNat.toUInt8 = false := by decide
  exact hall d h

theorem hexDecode_go_hexEncode (bytes : List UInt8)
    : hexDecode.go (utf8 (hexEncode bytes)) = .ok (some bytes) := by
  rw [utf8_hexEncode]
  induction bytes with
  | nil => rfl
  | cons b bytes ih =>
    rw [List.flatMap_cons, List.cons_append, List.cons_append, List.nil_append, hexDecode.go, if_neg,
      parseHexByte_hexPair, ih]
    . rfl
    . cases bytes with
      | nil => exact Bool.false_ne_true
      | cons b' bytes =>
        rw [List.flatMap_cons]
        simp [isContinuation_digit (show b'.toNat / 16 < 16 by have := b'.toNat_lt; omega)]

theorem hexDecode_hexEncode (bytes : List UInt8) : hexDecode (hexEncode bytes) = .ok (some bytes) := by
  rw [hexDecode, len_hexEncode, if_neg (by omega), hexDecode_go_hexEncode]

theorem hexEncode_injective : Function.Injective hexEncode := by
  intro bytes bytes' h
  have hdecode := hexDecode_hexEncode bytes
  rw [h, hexDecode_hexEncode] at hdecode
  cases hdecode
  rfl

end Hex

end Lqxp
