import Lqxp.Core.Digests

/-!
This module contains what the hexadecimal decoder does with arbitrary texts: when it panics, and when it accepts
more than the encodings of bytes.
-/

namespace Lqxp

section Lowercase

def lowerByte (b : UInt8) : UInt8 := if 0x41 ≤ b && b ≤ 0x5A then b + 32 else b

theorem lowerByte_eq_self {b : UInt8} (h : 128 ≤ b.toNat) : lowerByte b = b := by
  refine if_neg fun hupper => ?_
  obtain ⟨-, hle⟩ := Bool.and_eq_true_iff.1 hupper
  have := UInt8.le_iff_toNat_le.1 (of_decide_eq_true hle)
  have : (0x5A : UInt8).toNat = 90 := rfl
  omega

theorem le_of_mem_utf8EncodeChar {ch : Char} (h : 128 ≤ ch.toNat) {b : UInt8}
    (hmem : b ∈ String.utf8EncodeChar ch) : 128 ≤ b.toNat := by
  have hval : 128 ≤ ch.val.toNat := h
  unfold String.utf8EncodeChar at hmem
  dsimp only at hmem
  split at hmem
  . omega
  . split at hmem
    . simp only [List.mem_cons, List.not_mem_nil, or_false] at hmem
      obtain rfl | rfl := hmem <;> simp <;> omega
    . split at hmem
      . simp only [List.mem_cons, List.not_mem_nil, or_false] at hmem
        obtain rfl | rfl | rfl := hmem <;> simp <;> omega
      . simp only [List.mem_cons, List.not_mem_nil, or_false] at hmem
        obtain rfl | rfl | rfl | rfl := hmem <;> simp <;> omega

theorem utf8EncodeChar_of_lt {ch : Char} (h : ch.toNat < 128)
    : String.utf8EncodeChar ch = [ch.toNat.toUInt8] := by
  have hval : ch.toNat ≤ 127 := Nat.le_of_lt_succ h
  simp [String.utf8EncodeChar, hval]

theorem utf8EncodeChar_toAsciiLowerChar (ch : Char)
    : String.utf8EncodeChar (Text.toAsciiLowerChar ch) = (String.utf8EncodeChar ch).map lowerByte := by
  by_cases hascii : ch.toNat < 128
  . have hsmall : ∀ n < 128, (Text.toAsciiLowerChar (Char.ofNat n)).toNat < 128
        ∧ (Text.toAsciiLowerChar (Char.ofNat n)).toNat.toUInt8 = lowerByte n.toUInt8 := by decide +kernel
    obtain ⟨hlt, hbyte⟩ := hsmall ch.toNat hascii
    rw [Char.ofNat_toNat] at hlt hbyte
    rw [utf8EncodeChar_of_lt hlt, utf8EncodeChar_of_lt hascii, hbyte]
    rfl
  . have hself : Text.toAsciiLowerChar ch = ch := by
      refine if_neg fun hupper => hascii ?_
      obtain ⟨-, hle⟩ := Bool.and_eq_true_iff.1 hupper
      have := UInt32.le_iff_toNat_le.1 (Char.le_def.1 (of_decide_eq_true hle))
      have : 'Z'.val.toNat = 90 := rfl
      show ch.val.toNat < 128
      omega
    have hbytes : (String.utf8EncodeChar ch).map lowerByte = (String.utf8EncodeChar ch).map id :=
      List.map_congr_left fun b hmem => lowerByte_eq_self (le_of_mem_utf8EncodeChar (Nat.not_lt.1 hascii) hmem)
    rw [hself, hbytes, List.map_id]

theorem utf8_ofList_eq_flatMap (cs : List Char) : utf8 (String.ofList cs) = cs.flatMap String.utf8EncodeChar := by
  simp [utf8, List.utf8Encode]

theorem utf8_toAsciiLower (s : String) : utf8 (Text.toAsciiLower s) = (utf8 s).map lowerByte := by
  have hs : utf8 s = s.toList.flatMap String.utf8EncodeChar := by
    rw [← utf8_ofList_eq_flatMap, String.ofList_toList]
  rw [Text.toAsciiLower, utf8_ofList_eq_flatMap, hs, List.flatMap_map, List.map_flatMap]
  exact congrArg (s.toList.flatMap ·) (funext utf8EncodeChar_toAsciiLowerChar)

end Lowercase

section Pairs

def hexPairs : List UInt8 → List (UInt8 × UInt8)
  | hi :: lo :: rest => (hi, lo) :: hexPairs rest
  | _ => []

def parses (pair : UInt8 × UInt8) : Bool := (parseHexByte pair.1 pair.2).isSome

/--
The pairs up to the one behind the first that does not parse.
-/
def readPairs (pairs : List (UInt8 × UInt8)) : List (UInt8 × UInt8) :=
  pairs.take ((pairs.takeWhile parses).length + 2)

/--
None of the slices that are read ends inside a character.
-/
def SlicesWhole (pairs : List (UInt8 × UInt8)) : Prop := ∀ pair ∈ (readPairs pairs).tail, isContinuation pair.1 = false

/--
No pair has a sign, unless there is one that does not parse.
-/
def Unsigned (pairs : List (UInt8 × UInt8)) : Prop :=
  (∀ pair ∈ pairs, parses pair) → ∀ pair ∈ pairs, pair.1 ≠ 0x2B

theorem flatMap_hexPairs {bytes : List UInt8} (h : bytes.length % 2 = 0)
    : ((hexPairs bytes).flatMap fun pair => [pair.1, pair.2]) = bytes := by
  induction bytes using hexPairs.induct with
  | case1 hi lo rest ih =>
    rw [hexPairs, List.flatMap_cons, ih (by simp only [List.length_cons] at h; omega)]
    rfl
  | case2 bytes hshort =>
    match bytes, hshort, h with
    | [], _, _ => rfl
    | [_], _, h => simp at h
    | hi :: lo :: rest, hshort, _ => exact absurd rfl (hshort hi lo rest)

theorem readPairs_cons {pair : UInt8 × UInt8} {pairs : List (UInt8 × UInt8)} (h : parses pair)
    : readPairs (pair :: pairs) = pair :: readPairs pairs := by
  rw [readPairs, List.takeWhile_cons_of_pos h]
  rfl

theorem readPairs_cons_of_not {pair : UInt8 × UInt8} {pairs : List (UInt8 × UInt8)} (h : ¬parses pair)
    : readPairs (pair :: pairs) = pair :: pairs.take 1 := by
  rw [readPairs, List.takeWhile_cons_of_neg h]
  rfl

theorem head?_readPairs (pairs : List (UInt8 × UInt8)) : (readPairs pairs).head? = pairs.head? := by
  cases pairs with
  | nil => rfl
  | cons pair pairs => rfl

theorem slicesWhole_cons_iff {pair : UInt8 × UInt8} {pairs : List (UInt8 × UInt8)} (h : parses pair)
    : SlicesWhole (pair :: pairs) ↔ (∀ next, pairs.head? = some next → isContinuation next.1 = false) ∧ SlicesWhole pairs := by
  rw [SlicesWhole, readPairs_cons h, List.tail_cons, SlicesWhole, ← head?_readPairs pairs]
  cases readPairs pairs with
  | nil => simp
  | cons next rest => simp

theorem slicesWhole_cons_iff_of_not {pair : UInt8 × UInt8} {pairs : List (UInt8 × UInt8)} (h : ¬parses pair)
    : SlicesWhole (pair :: pairs) ↔ ∀ next, pairs.head? = some next → isContinuation next.1 = false := by
  rw [SlicesWhole, readPairs_cons_of_not h, List.tail_cons]
  cases pairs with
  | nil => simp
  | cons next rest => simp

end Pairs

section Decoding

theorem digitChar_of_hexDigitOfByte {x : UInt8} {d : Nat} (h : hexDigitOfByte x = some d)
    : d < 16 ∧ d.digitChar.toNat.toUInt8 = lowerByte x ∧ x ≠ 0x2B := by
  have hall : ∀ n < 256, ∀ d ∈ hexDigitOfByte n.toUInt8,
      d < 16 ∧ d.digitChar.toNat.toUInt8 = lowerByte n.toUInt8 ∧ n.toUInt8 ≠ 0x2B := by decide +kernel
  have hself : x.toNat.toUInt8 = x := UInt8.ofNat_toNat
  have hx := hall x.toNat x.toNat_lt d
  rw [hself] at hx
  exact hx h

def hexBytes (b : UInt8) : List UInt8 := (hexPair b).map fun ch => ch.toNat.toUInt8

theorem hexBytes_of_parseHexByte {hi lo b : UInt8} (h : parseHexByte hi lo = some b)
    : hexBytes b = [lowerByte hi, lowerByte lo] ↔ hi ≠ 0x2B := by
  rw [parseHexByte] at h
  split at h
  next hsign =>
    obtain ⟨l, hl, rfl⟩ := Option.map_eq_some_iff.1 h
    obtain ⟨hlt, -, -⟩ := digitChar_of_hexDigitOfByte hl
    have hhigh : l.toUInt8.toNat / 16 = 0 := by
      rw [UInt8.toNat_ofNat']
      omega
    subst hsign
    refine ⟨fun heq => ?_, fun hne => absurd rfl hne⟩
    rw [hexBytes, hexPair, hhigh] at heq
    have hfirst : (Nat.digitChar 0).toNat.toUInt8 = lowerByte 0x2B := (List.cons.inj heq).1
    exact absurd hfirst (by decide)
  next hne =>
    obtain ⟨u, hu, hlow⟩ := Option.bind_eq_some_iff.1 h
    obtain ⟨l, hl, rfl⟩ := Option.map_eq_some_iff.1 hlow
    obtain ⟨hult, hudigit, -⟩ := digitChar_of_hexDigitOfByte hu
    obtain ⟨hllt, hldigit, -⟩ := digitChar_of_hexDigitOfByte hl
    have hvalue : (u * 16 + l).toUInt8.toNat = u * 16 + l := by
      rw [UInt8.toNat_ofNat']
      omega
    have hhigh : (u * 16 + l) / 16 = u := by omega
    have hrest : (u * 16 + l) % 16 = l := by omega
    refine iff_of_true ?_ hne
    rw [hexBytes, hexPair, hvalue, hhigh, hrest, List.map_cons, List.map_cons, List.map_nil, hudigit, hldigit]

theorem head?_flatMap_pairs (pairs : List (UInt8 × UInt8))
    : (pairs.flatMap fun pair => [pair.1, pair.2]).head? = pairs.head?.map (·.1) := by
  cases pairs with
  | nil => rfl
  | cons pair pairs => rfl

theorem any_isContinuation_iff (pairs : List (UInt8 × UInt8))
    : (pairs.flatMap fun pair => [pair.1, pair.2]).head?.any isContinuation
        ↔ ¬∀ next, pairs.head? = some next → isContinuation next.1 = false := by
  rw [head?_flatMap_pairs]
  cases pairs with
  | nil => simp
  | cons pair pairs => simp

theorem go_eq_ok {pairs : List (UInt8 × UInt8)} (h : SlicesWhole pairs)
    : hexDecode.go (pairs.flatMap fun pair => [pair.1, pair.2])
        = .ok (pairs.mapM fun pair => parseHexByte pair.1 pair.2) := by
  induction pairs with
  | nil => rfl
  | cons pair pairs ih =>
    have hnext : ∀ next, pairs.head? = some next → isContinuation next.1 = false := by
      by_cases hparses : parses pair
      . exact ((slicesWhole_cons_iff hparses).1 h).1
      . exact (slicesWhole_cons_iff_of_not hparses).1 h
    rw [List.flatMap_cons, List.cons_append, List.cons_append, List.nil_append, hexDecode.go,
      if_neg ((any_isContinuation_iff pairs).not.2 (not_not_intro hnext)), List.mapM_cons]
    cases hparse : parseHexByte pair.1 pair.2 with
    | none => rfl
    | some b =>
      have hparses : parses pair := by rw [parses, hparse]; rfl
      rw [ih ((slicesWhole_cons_iff hparses).1 h).2]
      cases pairs.mapM fun pair => parseHexByte pair.1 pair.2 with
      | none => rfl
      | some bytes => rfl

theorem go_eq_error {pairs : List (UInt8 × UInt8)} (h : ¬SlicesWhole pairs)
    : hexDecode.go (pairs.flatMap fun pair => [pair.1, pair.2]) = .error () := by
  induction pairs with
  | nil => exact absurd (fun pair hmem => absurd hmem List.not_mem_nil) h
  | cons pair pairs ih =>
    rw [List.flatMap_cons, List.cons_append, List.cons_append, List.nil_append, hexDecode.go]
    split
    next => rfl
    next hwhole =>
      have hnext := not_not.1 ((any_isContinuation_iff pairs).not.1 hwhole)
      cases hparse : parseHexByte pair.1 pair.2 with
      | none =>
        have hparses : ¬parses pair := by rw [parses, hparse]; exact Bool.false_ne_true
        exact absurd ((slicesWhole_cons_iff_of_not hparses).2 hnext) h
      | some b =>
        have hparses : parses pair := by rw [parses, hparse]; rfl
        have hrest : ¬SlicesWhole pairs := fun hwhole => h ((slicesWhole_cons_iff hparses).2 ⟨hnext, hwhole⟩)
        rw [ih hrest]
        rfl

theorem flatMap_hexBytes_iff {pairs : List (UInt8 × UInt8)} {bytes : List UInt8}
    (h : (pairs.mapM fun pair => parseHexByte pair.1 pair.2) = some bytes)
    : bytes.flatMap hexBytes = (pairs.flatMap fun pair => [pair.1, pair.2]).map lowerByte
        ↔ ∀ pair ∈ pairs, pair.1 ≠ 0x2B := by
  induction pairs generalizing bytes with
  | nil =>
    obtain rfl : [] = bytes := Option.some.inj h
    simp
  | cons pair pairs ih =>
    rw [List.mapM_cons] at h
    obtain ⟨b, hb, h⟩ := Option.bind_eq_some_iff.1 h
    obtain ⟨rest, hrest, h⟩ := Option.bind_eq_some_iff.1 h
    obtain rfl : b :: rest = bytes := Option.some.inj h
    have hpair := hexBytes_of_parseHexByte hb
    have hsplit : (b :: rest).flatMap hexBytes
          = ((pair :: pairs).flatMap fun pair => [pair.1, pair.2]).map lowerByte
        ↔ hexBytes b = [lowerByte pair.1, lowerByte pair.2]
          ∧ rest.flatMap hexBytes = (pairs.flatMap fun pair => [pair.1, pair.2]).map lowerByte := by
      rw [List.flatMap_cons, List.flatMap_cons, List.map_append]
      refine ⟨fun heq => List.append_inj heq rfl, fun heq => ?_⟩
      rw [heq.1, heq.2]
      rfl
    rw [hsplit, hpair, ih hrest, List.forall_mem_cons]

theorem mapM_isSome_iff {pairs : List (UInt8 × UInt8)}
    : (pairs.mapM fun pair => parseHexByte pair.1 pair.2).isSome ↔ ∀ pair ∈ pairs, parses pair := by
  induction pairs with
  | nil => simp
  | cons pair pairs ih =>
    rw [List.forall_mem_cons, ← ih, List.mapM_cons, parses]
    cases parseHexByte pair.1 pair.2 with
    | none => simp
    | some b =>
      cases pairs.mapM fun pair => parseHexByte pair.1 pair.2 with
      | none => simp
      | some bytes => simp

end Decoding

/--
A decoding neither panics nor accepts anything but an encoding of its bytes.
-/
def DecodesStrictly (s : String) : Prop :=
  match hexDecode s with
  | .error () => False
  | .ok none => True
  | .ok (some bytes) => hexEncode bytes = Text.toAsciiLower s

theorem hexDecode_iff (bytes : List UInt8) (s : String)
    : hexDecode (hexEncode bytes) = .ok (some bytes)
        ∧ (DecodesStrictly s ↔
          Text.len s % 2 = 1 ∨ SlicesWhole (hexPairs (utf8 s)) ∧ Unsigned (hexPairs (utf8 s))) := by
  refine ⟨hexDecode_hexEncode bytes, ?_⟩
  rw [DecodesStrictly, hexDecode]
  by_cases hodd : Text.len s % 2 = 1
  . rw [if_pos (by omega)]
    exact iff_of_true trivial (.inl hodd)
  have heven : (utf8 s).length % 2 = 0 := by
    rw [length_utf8]
    omega
  rw [if_neg (by omega), or_iff_right hodd]
  generalize hpairs : hexPairs (utf8 s) = pairs
  have hbytes : utf8 s = pairs.flatMap fun pair => [pair.1, pair.2] := by
    rw [← hpairs, flatMap_hexPairs heven]
  by_cases hwhole : SlicesWhole pairs
  . rw [hbytes, go_eq_ok hwhole, and_iff_right hwhole]
    cases hresult : pairs.mapM fun pair => parseHexByte pair.1 pair.2 with
    | none =>
      refine iff_of_true trivial fun hparse => ?_
      have hsome := mapM_isSome_iff.2 hparse
      rw [hresult] at hsome
      contradiction
    | some bytes =>
      have hparse : ∀ pair ∈ pairs, parses pair := mapM_isSome_iff.1 (by rw [hresult]; rfl)
      have hdigits : utf8 (hexEncode bytes) = bytes.flatMap hexBytes := utf8_hexEncode bytes
      dsimp only
      rw [Unsigned, ← flatMap_hexBytes_iff hresult, ← hbytes, ← hdigits, ← utf8_toAsciiLower,
        utf8_injective.eq_iff]
      exact ⟨fun h _ => h, fun h => h hparse⟩
  . rw [hbytes, go_eq_error hwhole]
    exact iff_of_false id fun h => hwhole h.1

/--
A slice that ends inside a character, and a sign.
-/
theorem not_hexDecode
    : ¬((∀ bytes, hexDecode (hexEncode bytes) = .ok (some bytes)) ∧ ∀ s, DecodesStrictly s) := by
  intro h
  have hpanic : hexDecode "aéb" = .error () := by decide +kernel
  have hstrict := h.2 "aéb"
  rw [DecodesStrictly, hpanic] at hstrict
  exact hstrict

end Lqxp
