import Mathlib.Tactic.NormNum
import Lqxp.Data.Fields

/-!
This module contains what the services use of cryptographic libraries: keyed signatures of texts, a digest
and a key encapsulation, all of them parameters.
-/

namespace Lqxp

/--
The hexadecimal HMAC of texts under one of the secrets of the server. It tells different texts apart, and
is no shorter than the 64 digits of a SHA-256 digest.
-/
structure Mac where
  sign : String → String
  sign_injective : Function.Injective sign
  isLowerHexDigit : ∀ text, (sign text).toList.all Text.isLowerHexDigit
  length : ∀ text, 64 ≤ (sign text).toList.length

namespace Mac

variable (mac : Mac)

theorem not_mem_sign {c : Char} (hc : Text.isLowerHexDigit c = false) (text : String)
    : c ∉ (mac.sign text).toList := by
  intro hmem
  have := List.all_eq_true.1 (mac.isLowerHexDigit text) c hmem
  simp [hc] at this

theorem sign_inj {text text' : String} : mac.sign text = mac.sign text' ↔ text = text' :=
  mac.sign_injective.eq_iff

end Mac

section Padded

/--
The six hexadecimal digits of a character, the least significant one first.
-/
def hexBlock (c : Char) : List Char :=
  [0, 1, 2, 3, 4, 5].map fun i => (c.toNat / 16 ^ i % 16).digitChar

def hexValue (c : Char) : Nat := if c.isDigit then c.toNat - '0'.toNat else c.toNat - 'a'.toNat + 10

theorem hexValue_digitChar : ∀ d < 16, hexValue d.digitChar = d := by decide

theorem toNat_lt (c : Char) : c.toNat < 1114112 := by
  have hvalid := c.valid
  simp only [UInt32.isValidChar, Nat.isValidChar] at hvalid
  rw [Char.toNat]
  omega

theorem hexBlock_injective : Function.Injective hexBlock := by
  intro c c' h
  simp only [hexBlock, List.map_cons, List.map_nil, List.cons.injEq, and_true] at h
  have hdigit : ∀ i, (c.toNat / 16 ^ i % 16).digitChar = (c'.toNat / 16 ^ i % 16).digitChar →
      c.toNat / 16 ^ i % 16 = c'.toNat / 16 ^ i % 16 := by
    intro i hi
    rw [← hexValue_digitChar (c.toNat / 16 ^ i % 16) (by omega), hi, hexValue_digitChar _ (by omega)]
  obtain ⟨h0, h1, h2, h3, h4, h5⟩ := h
  have h0 := hdigit 0 h0
  have h1 := hdigit 1 h1
  have h2 := hdigit 2 h2
  have h3 := hdigit 3 h3
  have h4 := hdigit 4 h4
  have h5 := hdigit 5 h5
  have hc : c.toNat < 1114112 := toNat_lt c
  have hc' : c'.toNat < 1114112 := toNat_lt c'
  norm_num at h0 h1 h2 h3 h4 h5
  exact Char.toNat_inj.1 (by omega)

theorem flatMap_hexBlock_injective : Function.Injective (List.flatMap hexBlock) := by
  intro cs
  induction cs with
  | nil =>
    intro cs' h
    cases cs' with
    | nil => rfl
    | cons c' cs' => simp [hexBlock] at h
  | cons c cs ih =>
    intro cs' h
    cases cs' with
    | nil => simp [hexBlock] at h
    | cons c' cs' =>
      rw [List.flatMap_cons, List.flatMap_cons] at h
      obtain ⟨hc, hcs⟩ := List.append_inj h (by simp [hexBlock])
      rw [hexBlock_injective hc, ih hcs]

/--
A signature that tells all texts apart: the digits of all their characters, behind 64 zeros.
-/
def Mac.padded : Mac where
  sign text := String.ofList (List.replicate 64 '0' ++ text.toList.flatMap hexBlock)
  sign_injective := by
    intro text text' h
    rw [String.ofList_inj] at h
    exact String.toList_inj.1 (flatMap_hexBlock_injective (List.append_cancel_left h))
  isLowerHexDigit text := by
    rw [String.toList_ofList, List.all_append, List.all_flatMap, Bool.and_eq_true]
    refine ⟨by decide, ?_⟩
    rw [List.all_eq_true]
    intro c _
    rw [List.all_eq_true]
    intro digit hdigit
    obtain ⟨i, -, rfl⟩ := List.mem_map.1 hdigit
    exact Text.isLowerHexDigit_digitChar (Nat.mod_lt _ (by omega))
  length text := by simp

end Padded

/--
What the services take from cryptographic libraries: a signature for each of the secrets, SHA-256 on bytes,
the decapsulation of ML-KEM-768 under a secret key, and the lower case of Unicode texts.
-/
structure Crypto where
  capMac : Mac
  vdfMac : Mac
  rlnMac : Mac
  passMac : Mac
  sha256 : List UInt8 → Vector UInt8 32
  decapsulate : List UInt8 → List UInt8 → Option (List UInt8)
  toLowercase : String → String

section Bytes

def utf8 (text : String) : List UInt8 := text.toUTF8.data.toList

/--
The last `width` bytes of a number, the most significant one first.
-/
def toBytesBE (width n : Nat) : List UInt8 :=
  (List.range width).reverse.map fun i => (n / 256 ^ i % 256).toUInt8

def hexEncode (bytes : List UInt8) : String :=
  String.ofList (bytes.flatMap fun b => [(b.toNat / 16).digitChar, (b.toNat % 16).digitChar])

end Bytes

/--
Primitives that are easy to compute with: a digest is made of the last 32 bytes of a text.
-/
def Crypto.simple : Crypto where
  capMac := .padded
  vdfMac := .padded
  rlnMac := .padded
  passMac := .padded
  sha256 bytes := .ofFn fun i => (bytes.reverse[i.val]?).getD 0
  decapsulate _ _ := some []
  toLowercase := Text.toAsciiLower

end Lqxp
