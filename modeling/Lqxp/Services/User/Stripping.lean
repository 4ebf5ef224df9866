import Lqxp.Core.Crypto
import Lqxp.Services.User

/-!
This module contains what the removal of the metadata of images keeps.
-/

namespace Lqxp

section Walking

/-
The walk as the source has it, over positions in the input. `none` stands for an access out of bounds, and for a
loop that does not end.
-/

variable (bytes : List UInt8)

def bytesBetween (i j : Nat) : Option (List UInt8) :=
  if i ≤ j ∧ j ≤ bytes.length then some (slice bytes i (j - i)) else none

def bytesFrom (i : Nat) : Option (List UInt8) := bytesBetween bytes i bytes.length

def walkPng : Nat → Nat → List UInt8 → Option (List UInt8)
  | 0, _, _ => none
  | fuel + 1, offset, out =>
    if offset + 12 ≤ bytes.length then do
      let length := ofBytesBE [← bytes[offset]?, ← bytes[offset + 1]?, ← bytes[offset + 2]?, ← bytes[offset + 3]?]
      let chunkType ← bytesBetween bytes (offset + 4) (offset + 8)
      let total := 12 + length
      if bytes.length < offset + total then
        return out
      else do
      let out ←
        if isPngMetadata chunkType then
          some out
        else
          (bytesBetween bytes offset (offset + total)).map (out ++ ·)
      if chunkType = [0x49, 0x45, 0x4E, 0x44] then
        return out
      else
        walkPng fuel (offset + total) out
    else
      some out

def skipFill : Nat → Nat → Option Nat
  | 0, _ => none
  | fuel + 1, i =>
    if i < bytes.length then do
      if (← bytes[i]?) = 0xFF then
        skipFill fuel (i + 1)
      else
        return i
    else
      some i

def walkJpeg : Nat → Nat → List UInt8 → Option (List UInt8)
  | 0, _, _ => none
  | fuel + 1, i, out =>
    if i < bytes.length then do
      if (← bytes[i]?) ≠ 0xFF then
        return out ++ (← bytesFrom bytes i)
      else do
      let i ← skipFill bytes (bytes.length + 1) i
      if bytes.length ≤ i then
        return out
      else do
      let marker ← bytes[i]?
      let i := i + 1
      if marker = 0xD9 then
        return out ++ [0xFF, 0xD9]
      else if marker = 0xDA then
        return out ++ [0xFF, 0xDA] ++ (← bytesFrom bytes i)
      else if bytes.length < i + 2 then
        return out
      else do
      let len := ofBytesBE [← bytes[i]?, ← bytes[i + 1]?]
      if len < 2 || bytes.length < i + len then
        return out
      else do
      let out ←
        if [0xE1, 0xE2, 0xED, 0xFE].contains marker then
          some out
        else
          (bytesBetween bytes i (i + len)).map (out ++ [0xFF, marker] ++ ·)
      walkJpeg fuel (i + len) out
    else
      some out

def walkImage (mimeType : String) : Option (List UInt8) :=
  match mimeType with
  | "image/png" | "image/apng" =>
    if bytes.length < 8 || !pngSignature.isPrefixOf bytes then
      some bytes
    else
      walkPng bytes (bytes.length + 1) 8 pngSignature
  | "image/jpeg" | "image/jpg" =>
    if bytes.length < 4 || !([0xFF, 0xD8].isPrefixOf bytes) then
      some bytes
    else
      walkJpeg bytes (bytes.length + 1) 2 [0xFF, 0xD8]
  | _ => some bytes

variable {bytes}

theorem bytesBetween_eq {i j : Nat} (hij : i ≤ j) (hj : j ≤ bytes.length)
    : bytesBetween bytes i j = some ((bytes.drop i).take (j - i)) :=
  if_pos ⟨hij, hj⟩

theorem bytesFrom_eq {i : Nat} (hi : i ≤ bytes.length) : bytesFrom bytes i = some (bytes.drop i) := by
  rw [bytesFrom, bytesBetween_eq hi (Nat.le_refl _), List.take_of_length_le (by rw [List.length_drop])]

theorem take_drop_eq_getElem {i n : Nat} (h : i + n < bytes.length)
    : (bytes.drop i).take (n + 1) = (bytes.drop i).take n ++ [bytes[i + n]] := by
  rw [List.take_succ_eq_append_getElem (by rw [List.length_drop]; omega), List.getElem_drop]

theorem walkPng_eq (fuel offset : Nat) (out : List UInt8) (hoffset : offset ≤ bytes.length)
    (hfuel : bytes.length - offset ≤ fuel)
    : walkPng bytes (fuel + 1) offset out = some (out ++ stripPngChunks fuel (bytes.drop offset)) := by
  induction fuel generalizing offset out with
  | zero =>
    rw [walkPng, if_neg (by omega)]
    simp [stripPngChunks]
  | succ fuel ih =>
    rw [walkPng, stripPngChunks]
    by_cases hlength : offset + 12 ≤ bytes.length
    . have hfour : [bytes[offset], bytes[offset + 1], bytes[offset + 2], bytes[offset + 3]]
          = (bytes.drop offset).take 4 := by
        rw [take_drop_eq_getElem (by omega), take_drop_eq_getElem (by omega), take_drop_eq_getElem (by omega),
          take_drop_eq_getElem (by omega), List.take_zero]
        rfl
      rw [if_pos hlength, List.getElem?_eq_getElem (by omega), List.getElem?_eq_getElem (by omega),
        List.getElem?_eq_getElem (by omega), List.getElem?_eq_getElem (by omega),
        bytesBetween_eq (by omega) (by omega)]
      have htype : (bytes.drop (offset + 4)).take (offset + 8 - (offset + 4)) = slice (bytes.drop offset) 4 4 := by
        rw [slice, List.drop_drop, show offset + 8 - (offset + 4) = 4 by omega]
      simp only [Option.bind_eq_bind, Option.bind_some, hfour, htype, List.length_drop]
      generalize htwelve : 12 + ofBytesBE ((bytes.drop offset).take 4) = total
      by_cases htotal : bytes.length < offset + total
      . rw [if_pos htotal, if_pos (by simp; omega), List.append_nil]
        rfl
      . have hrest := fun out => ih (offset + total) out (by omega) (by omega)
        have hlong : ¬(decide (bytes.length - offset < 12) || decide (bytes.length - offset < total)) = true := by
          simp
          omega
        rw [if_neg htotal, if_neg hlong, bytesBetween_eq (by omega) (by omega), Nat.add_sub_cancel_left,
          List.drop_drop]
        by_cases hend : slice (bytes.drop offset) 4 4 = [0x49, 0x45, 0x4E, 0x44]
        . cases isPngMetadata (slice (bytes.drop offset) 4 4) with
          | false => simp [hend]
          | true => simp [hend]
        . cases isPngMetadata (slice (bytes.drop offset) 4 4) with
          | false => simp [hend, hrest]
          | true => simp [hend, hrest]
    . rw [if_neg hlength, if_pos (by simp; omega), List.append_nil]

theorem skipFill_eq (fuel i : Nat) (hi : i ≤ bytes.length) (hfuel : bytes.length - i < fuel)
    : ∃ j, skipFill bytes fuel i = some j ∧ i ≤ j ∧ j ≤ bytes.length
        ∧ bytes.drop j = (bytes.drop i).dropWhile (· = 0xFF) := by
  induction fuel generalizing i with
  | zero => omega
  | succ fuel ih =>
    rw [skipFill]
    by_cases hlt : i < bytes.length
    . rw [if_pos hlt, List.getElem?_eq_getElem hlt, List.drop_eq_getElem_cons hlt]
      dsimp only [Option.bind_eq_bind, Option.bind_some]
      split
      next hfill =>
        obtain ⟨j, hj, hij, hlength, hdrop⟩ := ih (i + 1) hlt (by omega)
        exact ⟨j, hj, by omega, hlength, by rw [hdrop, List.dropWhile_cons_of_pos (by simpa using hfill)]⟩
      next hother =>
        refine ⟨i, rfl, Nat.le_refl _, hi, ?_⟩
        rw [List.dropWhile_cons_of_neg (by simpa using hother), List.drop_eq_getElem_cons hlt]
    . rw [if_neg hlt]
      refine ⟨i, rfl, Nat.le_refl _, hi, ?_⟩
      rw [List.drop_of_length_le (by omega), List.dropWhile_nil]

theorem walkJpeg_eq (fuel i : Nat) (out : List UInt8) (hi : i ≤ bytes.length) (hfuel : bytes.length - i ≤ fuel)
    : walkJpeg bytes (fuel + 1) i out = some (out ++ stripJpegSegments fuel (bytes.drop i)) := by
  induction fuel generalizing i out with
  | zero =>
    rw [walkJpeg, if_neg (by omega)]
    simp [stripJpegSegments]
  | succ fuel ih =>
    rw [walkJpeg]
    by_cases hlt : i < bytes.length
    . rw [if_pos hlt, List.getElem?_eq_getElem hlt, List.drop_eq_getElem_cons hlt, stripJpegSegments]
      dsimp only [Option.bind_eq_bind, Option.bind_some]
      by_cases hfill : bytes[i] = 0xFF
      . rw [if_neg (not_not.2 hfill), if_neg (not_not.2 hfill)]
        obtain ⟨j, hj, hij, hlength, hdrop⟩ := skipFill_eq (bytes.length + 1) i hi (by omega)
        rw [hj, Option.bind_some]
        rw [List.drop_eq_getElem_cons hlt, List.dropWhile_cons_of_pos (by simpa using hfill)] at hdrop
        rw [← hdrop]
        by_cases hend : bytes.length ≤ j
        . rw [if_pos hend, List.drop_of_length_le hend]
          simp
        . have hlt : j < bytes.length := by omega
          rw [if_neg hend, List.getElem?_eq_getElem hlt, List.drop_eq_getElem_cons hlt, Option.bind_some]
          dsimp only
          generalize bytes[j] = marker
          by_cases hend : marker = 0xD9
          . rw [if_pos hend, if_pos hend]
            rfl
          by_cases hscan : marker = 0xDA
          . rw [if_neg hend, if_pos hscan, if_neg hend, if_pos hscan, bytesFrom_eq hlt, Option.bind_some]
            simp
          rw [if_neg hend, if_neg hscan, if_neg hend, if_neg hscan]
          by_cases htwo : bytes.length < j + 1 + 2
          . rw [if_pos htwo, if_pos (by simp; omega), List.append_nil]
            rfl
          . have hlen : [bytes[j + 1], bytes[j + 1 + 1]] = (bytes.drop (j + 1)).take 2 := by
              rw [take_drop_eq_getElem (by omega), take_drop_eq_getElem (by omega), List.take_zero]
              rfl
            rw [if_neg htwo, List.getElem?_eq_getElem (by omega), List.getElem?_eq_getElem (by omega),
              Option.bind_some, Option.bind_some, hlen]
            generalize ofBytesBE ((bytes.drop (j + 1)).take 2) = len
            by_cases hshort : len < 2 ∨ bytes.length < j + 1 + len
            . rw [if_pos (by simpa using hshort), if_pos (by simp; omega), List.append_nil]
              rfl
            . have hrest := fun out => ih (j + 1 + len) out (by omega) (by omega)
              have hlong : ¬(decide ((bytes.drop (j + 1)).length < 2) || decide (len < 2)
                  || decide ((bytes.drop (j + 1)).length < len)) = true := by
                simp
                omega
              rw [if_neg (by simpa using hshort), if_neg hlong, bytesBetween_eq (by omega) (by omega),
                Nat.add_sub_cancel_left, List.drop_drop]
              cases [0xE1, 0xE2, 0xED, 0xFE].contains marker with
              | false => simp [hrest]
              | true => simp [hrest]
      . rw [if_pos hfill, if_pos hfill, bytesFrom_eq hi, List.drop_eq_getElem_cons hlt]
        rfl
    . rw [if_neg hlt, List.drop_of_length_le (by omega)]
      simp [stripJpegSegments]

def isPngType (mimeType : String) : Bool := mimeType = "image/png" || mimeType = "image/apng"

def isJpegType (mimeType : String) : Bool := mimeType = "image/jpeg" || mimeType = "image/jpg"

theorem stripImageMetadata_png {mimeType : String} (h : isPngType mimeType)
    : stripImageMetadata bytes mimeType
        = if pngSignature.isPrefixOf bytes then
            pngSignature ++ stripPngChunks bytes.length (bytes.drop 8)
          else
            bytes :=
  if_pos h

theorem stripImageMetadata_jpeg {mimeType : String} (h : isJpegType mimeType)
    : stripImageMetadata bytes mimeType
        = if 4 ≤ bytes.length && [0xFF, 0xD8].isPrefixOf bytes then
            [0xFF, 0xD8] ++ stripJpegSegments bytes.length (bytes.drop 2)
          else
            bytes := by
  have hother : ¬(decide (mimeType = "image/png") || decide (mimeType = "image/apng")) = true := by
    rcases Bool.or_eq_true_iff.1 h with h | h
    . rw [of_decide_eq_true h]
      decide
    . rw [of_decide_eq_true h]
      decide
  rw [stripImageMetadata, if_neg hother]
  exact if_pos h

theorem stripImageMetadata_other {mimeType : String} (hpng : isPngType mimeType = false)
    (hjpeg : isJpegType mimeType = false) : stripImageMetadata bytes mimeType = bytes := by
  rw [isPngType] at hpng
  rw [isJpegType] at hjpeg
  rw [stripImageMetadata, hpng, hjpeg]
  rfl

theorem walkImage_eq (bytes : List UInt8) (mimeType : String)
    : walkImage bytes mimeType = some (stripImageMetadata bytes mimeType) := by
  have hpng (hmime : isPngType mimeType)
      : (if bytes.length < 8 || !pngSignature.isPrefixOf bytes then some bytes
          else walkPng bytes (bytes.length + 1) 8 pngSignature) = some (stripImageMetadata bytes mimeType) := by
    rw [stripImageMetadata_png hmime]
    by_cases hbegins : pngSignature.isPrefixOf bytes
    . have hlength : 8 ≤ bytes.length := (List.isPrefixOf_iff_prefix.1 hbegins).length_le
      have hshort : ¬(decide (bytes.length < 8) || !pngSignature.isPrefixOf bytes) = true := by
        simp [hbegins, hlength]
      rw [if_neg hshort, if_pos hbegins, walkPng_eq _ _ _ hlength (by omega)]
    . rw [if_pos (by simp [hbegins]), if_neg hbegins]
  have hjpeg (hmime : isJpegType mimeType)
      : (if bytes.length < 4 || !([0xFF, 0xD8].isPrefixOf bytes) then some bytes
          else walkJpeg bytes (bytes.length + 1) 2 [0xFF, 0xD8]) = some (stripImageMetadata bytes mimeType) := by
    rw [stripImageMetadata_jpeg hmime]
    by_cases hlong : (decide (4 ≤ bytes.length) && [0xFF, 0xD8].isPrefixOf bytes) = true
    . obtain ⟨hlength, hbegins⟩ := Bool.and_eq_true_iff.1 hlong
      have hlength := of_decide_eq_true hlength
      have hshort : ¬(decide (bytes.length < 4) || !([0xFF, 0xD8].isPrefixOf bytes)) = true := by
        simp [hbegins, hlength]
      rw [if_neg hshort, if_pos hlong, walkJpeg_eq _ _ _ (by omega) (by omega)]
    . have hshort : (decide (bytes.length < 4) || !([0xFF, 0xD8].isPrefixOf bytes)) = true := by
        rw [Bool.not_eq_true, Bool.and_eq_false_iff] at hlong
        rcases hlong with hlength | hbegins
        . rw [decide_eq_true (Nat.lt_of_not_le (of_decide_eq_false hlength)), Bool.true_or]
        . rw [hbegins, Bool.not_false, Bool.or_true]
      rw [if_pos hshort, if_neg hlong]
  unfold walkImage
  split
  . exact hpng rfl
  . exact hpng rfl
  . exact hjpeg rfl
  . exact hjpeg rfl
  next hpng hapng hjpeg hjpg =>
    have hpng : isPngType mimeType = false :=
      Bool.or_eq_false_iff.2 ⟨decide_eq_false hpng, decide_eq_false hapng⟩
    have hjpeg : isJpegType mimeType = false :=
      Bool.or_eq_false_iff.2 ⟨decide_eq_false hjpeg, decide_eq_false hjpg⟩
    rw [stripImageMetadata_other hpng hjpeg]

end Walking

section Png

/--
The bytes of a chunk, with the length that it says.
-/
def IsPngChunk (chunk : List UInt8) : Prop := chunk.length = 12 + ofBytesBE (chunk.take 4)

def iendType : List UInt8 := [0x49, 0x45, 0x4E, 0x44]

def keepChunk (chunk : List UInt8) : List UInt8 := if isPngMetadata (slice chunk 4 4) then [] else chunk

theorem stripPngChunks_append {chunk : List UInt8} (h : IsPngChunk chunk) (fuel : Nat) (tail : List UInt8)
    : stripPngChunks (fuel + 1) (chunk ++ tail)
        = if slice chunk 4 4 = iendType then
            keepChunk chunk
          else
            keepChunk chunk ++ stripPngChunks fuel tail := by
  have hlength : 12 ≤ chunk.length := by
    rw [h]
    omega
  have hfour : (chunk ++ tail).take 4 = chunk.take 4 := List.take_append_of_le_length (by omega)
  have htype : slice (chunk ++ tail) 4 4 = slice chunk 4 4 := by
    rw [slice, slice, List.drop_append_of_le_length (by omega),
      List.take_append_of_le_length (by rw [List.length_drop]; omega)]
  rw [stripPngChunks, hfour, ← h, if_neg (by simp; omega), htype, List.take_left' rfl, List.drop_left' rfl]
  rfl

theorem exists_chunk (fuel : Nat) (rest : List UInt8)
    : stripPngChunks fuel rest = []
        ∨ ∃ n chunk tail, fuel = n + 1 ∧ IsPngChunk chunk ∧ rest = chunk ++ tail := by
  cases fuel with
  | zero => exact .inl rfl
  | succ fuel =>
    by_cases hshort : rest.length < 12 ∨ rest.length < 12 + ofBytesBE (rest.take 4)
    . exact .inl (by rw [stripPngChunks, if_pos (by simpa using hshort)])
    . rw [not_or] at hshort
      have hfour : (rest.take (12 + ofBytesBE (rest.take 4))).take 4 = rest.take 4 := by
        rw [List.take_take, Nat.min_eq_left (by omega)]
      refine .inr ⟨fuel, rest.take (12 + ofBytesBE (rest.take 4)), rest.drop _, rfl, ?_, (List.take_append_drop _ _).symm⟩
      rw [IsPngChunk, hfour, List.length_take]
      omega

theorem stripPngChunks_stripPngChunks (fuel fuel' : Nat) (rest : List UInt8)
    (hfuel : (stripPngChunks fuel rest).length ≤ fuel')
    : stripPngChunks fuel' (stripPngChunks fuel rest) = stripPngChunks fuel rest := by
  have hnil (fuel' : Nat) : stripPngChunks fuel' [] = [] := by
    cases fuel' with
    | zero => rfl
    | succ fuel' => rfl
  induction fuel generalizing fuel' rest with
  | zero => exact hnil fuel'
  | succ fuel ih =>
    rcases exists_chunk (fuel + 1) rest with hempty | ⟨n, chunk, tail, hn, hchunk, rfl⟩
    . rw [hempty]
      exact hnil fuel'
    obtain rfl : fuel = n := Nat.succ.inj hn
    have hlength : 12 ≤ chunk.length := by
      rw [hchunk]
      omega
    rw [stripPngChunks_append hchunk] at hfuel ⊢
    by_cases hend : slice chunk 4 4 = iendType
    . have hkept : keepChunk chunk = chunk := if_neg (by rw [hend]; decide)
      rw [if_pos hend, hkept] at hfuel ⊢
      obtain ⟨m, rfl⟩ := Nat.exists_eq_add_of_le' (Nat.le_trans (by omega : 1 ≤ chunk.length) hfuel)
      have happend := stripPngChunks_append hchunk m []
      rwa [List.append_nil, if_pos hend, hkept] at happend
    . rw [if_neg hend, keepChunk] at hfuel ⊢
      split
      next hmetadata =>
        rw [if_pos hmetadata] at hfuel
        exact ih fuel' tail hfuel
      next hkept =>
        rw [if_neg hkept, List.length_append] at hfuel
        obtain ⟨m, rfl⟩ := Nat.exists_eq_add_of_le' (Nat.le_trans (by omega : 1 ≤ chunk.length)
          (Nat.le_trans (Nat.le_add_right _ _) hfuel))
        rw [stripPngChunks_append hchunk, if_neg hend, keepChunk, if_neg hkept, ih m tail (by omega)]

theorem isPrefixOf_append (pre rest : List UInt8) : pre.isPrefixOf (pre ++ rest) :=
  List.isPrefixOf_iff_prefix.2 (List.prefix_append pre rest)

theorem stripImageMetadata_png_idem {bytes : List UInt8} {mimeType : String} (h : isPngType mimeType)
    : stripImageMetadata (stripImageMetadata bytes mimeType) mimeType = stripImageMetadata bytes mimeType := by
  by_cases hbegins : pngSignature.isPrefixOf bytes
  . have hstrip : stripImageMetadata bytes mimeType = pngSignature ++ stripPngChunks bytes.length (bytes.drop 8) := by
      rw [stripImageMetadata_png h, if_pos hbegins]
    rw [hstrip, stripImageMetadata_png h, if_pos (isPrefixOf_append _ _)]
    generalize hkept : stripPngChunks bytes.length (bytes.drop 8) = kept
    have hdrop : (pngSignature ++ kept).drop 8 = kept := List.drop_left' rfl
    rw [hdrop, ← hkept, stripPngChunks_stripPngChunks]
    rw [List.length_append]
    omega
  . have hstrip : stripImageMetadata bytes mimeType = bytes := by rw [stripImageMetadata_png h, if_neg hbegins]
    rw [hstrip, hstrip]

end Png

section Jpeg

/--
The bytes of a segment behind its marker, with the length that it says.
-/
def IsJpegSegment (seg : List UInt8) : Prop := 2 ≤ seg.length ∧ seg.length = ofBytesBE (seg.take 2)

/--
A marker that the walk takes for one in front of a segment with a length.
-/
def hasLength (marker : UInt8) : Bool := marker ≠ 0xFF && marker ≠ 0xD9 && marker ≠ 0xDA

def isJpegMetadata (marker : UInt8) : Bool := [0xE1, 0xE2, 0xED, 0xFE].contains marker

def keepSegment (marker : UInt8) (seg : List UInt8) : List UInt8 :=
  if isJpegMetadata marker then [] else 0xFF :: marker :: seg

theorem stripJpegSegments_append {marker : UInt8} {seg : List UInt8} (hmarker : hasLength marker)
    (h : IsJpegSegment seg) (fuel : Nat) (tail : List UInt8)
    : stripJpegSegments (fuel + 1) (0xFF :: marker :: seg ++ tail)
        = keepSegment marker seg ++ stripJpegSegments fuel tail := by
  simp only [hasLength, Bool.and_eq_true, decide_eq_true_eq] at hmarker
  obtain ⟨⟨hfill, hend⟩, hscan⟩ := hmarker
  obtain ⟨hlength, hlen⟩ := h
  have htwo : (seg ++ tail).take 2 = seg.take 2 := List.take_append_of_le_length hlength
  rw [List.cons_append, List.cons_append, stripJpegSegments, if_neg (by simp),
    List.dropWhile_cons_of_neg (by simpa using hfill)]
  dsimp only
  rw [if_neg hend, if_neg hscan, htwo, ← hlen, if_neg (by simp; omega), List.take_left' rfl, List.drop_left' rfl]
  rfl

theorem stripJpegSegments_nil (fuel : Nat) : stripJpegSegments fuel [] = [] := by
  cases fuel with
  | zero => rfl
  | succ fuel => rfl

/--
What the strict walk takes the bytes behind the beginning of an image for: segments with a length, and at the end
a stray byte with all that follows it, the end of the image, or the scan with all that follows it.
-/
inductive JpegPart where
  | segment (marker : UInt8) (seg : List UInt8)
  | stray (tail : List UInt8)
  | eoi
  | scan (tail : List UInt8)
  deriving DecidableEq

def jpegParts : Nat → List UInt8 → List JpegPart
  | 0, _ => []
  | _, [] => []
  | fuel + 1, b :: tail =>
    if b ≠ 0xFF then
      [.stray (b :: tail)]
    else
      match tail.dropWhile (· = 0xFF) with
      | [] => []
      | marker :: seg =>
        if marker = 0xD9 then
          [.eoi]
        else if marker = 0xDA then
          [.scan seg]
        else
          let len := ofBytesBE (seg.take 2)
          if seg.length < 2 || len < 2 || seg.length < len then
            []
          else
            .segment marker (seg.take len) :: jpegParts fuel (seg.drop len)

namespace JpegPart

def kept : JpegPart → List UInt8
  | segment marker seg => keepSegment marker seg
  | stray tail => tail
  | eoi => [0xFF, 0xD9]
  | scan tail => 0xFF :: 0xDA :: tail

end JpegPart

theorem stripJpegSegments_eq_flatMap (fuel : Nat) (rest : List UInt8)
    : stripJpegSegments fuel rest = (jpegParts fuel rest).flatMap JpegPart.kept := by
  induction fuel generalizing rest with
  | zero => rfl
  | succ fuel ih =>
    cases rest with
    | nil => rfl
    | cons b tail =>
      rw [stripJpegSegments, jpegParts]
      by_cases hb : b ≠ 0xFF
      . rw [if_pos hb, if_pos hb]
        simp [JpegPart.kept]
      rw [if_neg hb, if_neg hb]
      cases tail.dropWhile (· = 0xFF) with
      | nil => rfl
      | cons marker seg =>
        dsimp only
        by_cases hend : marker = 0xD9
        . rw [if_pos hend, if_pos hend]
          rfl
        by_cases hscan : marker = 0xDA
        . rw [if_neg hend, if_pos hscan, if_neg hend, if_pos hscan]
          simp [JpegPart.kept]
        rw [if_neg hend, if_neg hscan, if_neg hend, if_neg hscan]
        split
        . rfl
        . rw [ih, List.flatMap_cons]
          rfl

theorem jpegParts_cases (fuel : Nat) (rest : List UInt8)
    : jpegParts fuel rest = []
        ∨ (∃ b tail, b ≠ 0xFF ∧ jpegParts fuel rest = [.stray (b :: tail)])
        ∨ jpegParts fuel rest = [.eoi]
        ∨ (∃ tail, jpegParts fuel rest = [.scan tail])
        ∨ ∃ n marker seg tail, fuel = n + 1 ∧ hasLength marker ∧ IsJpegSegment seg
          ∧ jpegParts fuel rest = .segment marker seg :: jpegParts n tail := by
  cases fuel with
  | zero => exact .inl rfl
  | succ fuel =>
    cases rest with
    | nil => exact .inl rfl
    | cons b tail =>
      rw [jpegParts]
      split
      next hother => exact .inr (.inl ⟨b, tail, hother, rfl⟩)
      . split
        . exact .inl rfl
        next marker seg hdrop =>
          have hfill : marker ≠ 0xFF := by
            have := List.head_dropWhile_not (fun b : UInt8 => decide (b = 0xFF)) (l := tail) (by simp [hdrop])
            simpa [hdrop] using this
          split
          . exact .inr (.inr (.inl rfl))
          next hend =>
            split
            . exact .inr (.inr (.inr (.inl ⟨seg, rfl⟩)))
            next hscan =>
              dsimp only
              split
              . exact .inl rfl
              next hlong =>
                simp only [Bool.or_eq_true, decide_eq_true_eq, not_or, Nat.not_lt] at hlong
                obtain ⟨⟨htwo, hlen⟩, hlength⟩ := hlong
                have hseg : IsJpegSegment (seg.take (ofBytesBE (seg.take 2))) := by
                  rw [IsJpegSegment, List.length_take, List.take_take, Nat.min_eq_left hlength, Nat.min_eq_left hlen]
                  exact ⟨hlen, rfl⟩
                have hmarker : hasLength marker := by simp [hasLength, hfill, hend, hscan]
                exact .inr (.inr (.inr (.inr ⟨fuel, marker, _, _, rfl, hmarker, hseg, rfl⟩)))

theorem stripJpegSegments_stripJpegSegments (fuel fuel' : Nat) (rest : List UInt8)
    (hfuel : (stripJpegSegments fuel rest).length ≤ fuel')
    : stripJpegSegments fuel' (stripJpegSegments fuel rest) = stripJpegSegments fuel rest := by
  induction fuel generalizing fuel' rest with
  | zero => exact stripJpegSegments_nil fuel'
  | succ fuel ih =>
    rw [stripJpegSegments_eq_flatMap (fuel + 1) rest] at hfuel ⊢
    have hpositive {kept : List UInt8} (hfuel : kept.length ≤ fuel') (hne : kept ≠ []) : ∃ n, fuel' = n + 1 :=
      Nat.exists_eq_add_of_le' (Nat.le_trans (List.length_pos_of_ne_nil hne) hfuel)
    rcases jpegParts_cases (fuel + 1) rest with
      hparts | ⟨b, tail, hb, hparts⟩ | hparts | ⟨tail, hparts⟩ | ⟨n, marker, seg, tail, hn, hmarker, hseg, hparts⟩
    . rw [hparts]
      exact stripJpegSegments_nil fuel'
    . rw [hparts] at hfuel ⊢
      obtain ⟨n, rfl⟩ := hpositive hfuel (by simp [JpegPart.kept])
      exact if_pos hb
    . rw [hparts] at hfuel ⊢
      obtain ⟨n, rfl⟩ := hpositive hfuel (by simp [JpegPart.kept])
      rfl
    . rw [hparts] at hfuel ⊢
      obtain ⟨n, rfl⟩ := hpositive hfuel (by simp [JpegPart.kept])
      rw [List.flatMap_singleton]
      rfl
    . obtain rfl : fuel = n := Nat.succ.inj hn
      rw [hparts, List.flatMap_cons, ← stripJpegSegments_eq_flatMap fuel tail, JpegPart.kept, keepSegment] at hfuel ⊢
      split
      next hmetadata =>
        rw [if_pos hmetadata] at hfuel
        exact ih fuel' tail hfuel
      next hmetadata =>
        rw [if_neg hmetadata] at hfuel
        obtain ⟨m, rfl⟩ := hpositive hfuel (by simp)
        rw [List.length_append, List.length_cons, List.length_cons] at hfuel
        rw [stripJpegSegments_append hmarker hseg, keepSegment, if_neg hmetadata, ih m tail (by omega)]

theorem stripImageMetadata_jpeg_idem {bytes : List UInt8} {mimeType : String} (h : isJpegType mimeType)
    : stripImageMetadata (stripImageMetadata bytes mimeType) mimeType = stripImageMetadata bytes mimeType := by
  by_cases hbegins : (decide (4 ≤ bytes.length) && [0xFF, 0xD8].isPrefixOf bytes) = true
  . have hstrip : stripImageMetadata bytes mimeType
        = [0xFF, 0xD8] ++ stripJpegSegments bytes.length (bytes.drop 2) := by
      rw [stripImageMetadata_jpeg h, if_pos hbegins]
    rw [hstrip, stripImageMetadata_jpeg h]
    split
    . generalize hkept : stripJpegSegments bytes.length (bytes.drop 2) = kept
      have hdrop : ([0xFF, 0xD8] ++ kept).drop 2 = kept := rfl
      rw [hdrop, ← hkept, stripJpegSegments_stripJpegSegments]
      rw [List.length_append]
      omega
    . rfl
  . have hstrip : stripImageMetadata bytes mimeType = bytes := by rw [stripImageMetadata_jpeg h, if_neg hbegins]
    rw [hstrip, hstrip]

end Jpeg

theorem stripImageMetadata_idem (bytes : List UInt8) (mimeType : String)
    : stripImageMetadata (stripImageMetadata bytes mimeType) mimeType = stripImageMetadata bytes mimeType := by
  cases hpng : isPngType mimeType with
  | true => exact stripImageMetadata_png_idem hpng
  | false =>
    cases hjpeg : isJpegType mimeType with
    | true => exact stripImageMetadata_jpeg_idem hjpeg
    | false => rw [stripImageMetadata_other hpng hjpeg]

section Formats

@[simp]
theorem length_toBytesBE (width n : Nat) : (toBytesBE width n).length = width := by simp [toBytesBE]

theorem toBytesBE_succ (width n : Nat)
    : toBytesBE (width + 1) n = toBytesBE width (n / 256) ++ [(n % 256).toUInt8] := by
  have hpower (i : Nat) : n / 256 ^ (i + 1) = n / 256 / 256 ^ i := by
    rw [Nat.pow_succ', Nat.div_div_eq_div_mul]
  simp [toBytesBE, List.range_succ_eq_map, hpower]

theorem ofBytesBE_append (bytes : List UInt8) (b : UInt8) : ofBytesBE (bytes ++ [b]) = ofBytesBE bytes * 256 + b.toNat := by
  rw [ofBytesBE, List.foldl_append]
  rfl

theorem ofBytesBE_toBytesBE {width n : Nat} (h : n < 256 ^ width) : ofBytesBE (toBytesBE width n) = n := by
  induction width generalizing n with
  | zero =>
    rw [Nat.pow_zero] at h
    obtain rfl : n = 0 := by omega
    rfl
  | succ width ih =>
    have hdiv : n / 256 < 256 ^ width := Nat.div_lt_of_lt_mul (by rwa [Nat.pow_succ, Nat.mul_comm] at h)
    rw [toBytesBE_succ, ofBytesBE_append, ih hdiv, Nat.toUInt8, UInt8.toNat_ofNat']
    omega

structure PngChunk where
  type : List UInt8
  data : List UInt8
  crc : List UInt8
  type_length : type.length = 4
  data_length : data.length < 2 ^ 32
  crc_length : crc.length = 4

def PngChunk.bytes (chunk : PngChunk) : List UInt8 :=
  toBytesBE 4 chunk.data.length ++ chunk.type ++ chunk.data ++ chunk.crc

theorem PngChunk.type_bytes (chunk : PngChunk) : slice chunk.bytes 4 4 = chunk.type := by
  rw [slice, bytes, List.append_assoc, List.append_assoc, List.drop_left' (length_toBytesBE _ _),
    List.take_left' chunk.type_length]

theorem PngChunk.isPngChunk (chunk : PngChunk) : IsPngChunk chunk.bytes := by
  have hfour : chunk.bytes.take 4 = toBytesBE 4 chunk.data.length := by
    rw [bytes, List.append_assoc, List.append_assoc, List.take_left' (length_toBytesBE _ _)]
  rw [IsPngChunk, hfour, ofBytesBE_toBytesBE chunk.data_length, bytes]
  simp only [List.length_append, length_toBytesBE, chunk.type_length, chunk.crc_length]
  omega

/--
A list of chunks with its end behind it.
-/
structure PngImage where
  chunks : List PngChunk
  last : PngChunk
  last_type : last.type = iendType
  chunks_type : ∀ chunk ∈ chunks, chunk.type ≠ iendType

namespace PngImage

def bytes (image : PngImage) : List UInt8 :=
  pngSignature ++ image.chunks.flatMap PngChunk.bytes ++ image.last.bytes

/--
The same image without the chunks that hold metadata.
-/
def withoutMetadata (image : PngImage) : PngImage where
  chunks := image.chunks.filter fun chunk => !isPngMetadata chunk.type
  last := image.last
  last_type := image.last_type
  chunks_type chunk hchunk := image.chunks_type chunk (List.mem_filter.1 hchunk).1

theorem stripPngChunks_chunks {fuel : Nat} (chunks : List PngChunk) (last : PngChunk) (hlast : last.type = iendType)
    (htypes : ∀ chunk ∈ chunks, chunk.type ≠ iendType) (trailing : List UInt8)
    (hfuel : (chunks.flatMap PngChunk.bytes ++ last.bytes ++ trailing).length ≤ fuel)
    : stripPngChunks fuel (chunks.flatMap PngChunk.bytes ++ last.bytes ++ trailing)
        = (chunks.filter fun chunk => !isPngMetadata chunk.type).flatMap PngChunk.bytes ++ last.bytes := by
  induction chunks generalizing fuel with
  | nil =>
    have hlength : 12 ≤ last.bytes.length := by
      rw [last.isPngChunk]
      omega
    obtain ⟨n, rfl⟩ : ∃ n, fuel = n + 1 := Nat.exists_eq_add_of_le' <| by
      rw [List.length_append, List.length_append] at hfuel
      omega
    rw [List.flatMap_nil, List.nil_append, stripPngChunks_append last.isPngChunk, last.type_bytes, if_pos hlast,
      keepChunk, last.type_bytes, if_neg (by rw [hlast]; decide)]
    rfl
  | cons chunk chunks ih =>
    have hlength : 12 ≤ chunk.bytes.length := by
      rw [chunk.isPngChunk]
      omega
    rw [List.flatMap_cons, List.append_assoc, List.append_assoc] at hfuel ⊢
    obtain ⟨n, rfl⟩ : ∃ n, fuel = n + 1 := Nat.exists_eq_add_of_le' <| by
      rw [List.length_append] at hfuel
      omega
    have hrest := @ih n (fun chunk hchunk => htypes chunk (.tail _ hchunk)) <| by
      rw [List.length_append] at hfuel
      rw [List.append_assoc]
      omega
    rw [stripPngChunks_append chunk.isPngChunk, chunk.type_bytes, if_neg (htypes chunk (.head _)), keepChunk,
      chunk.type_bytes, ← List.append_assoc, hrest, List.filter_cons]
    cases isPngMetadata chunk.type with
    | true => rfl
    | false =>
      show chunk.bytes ++ _ = List.flatMap _ (_ :: _) ++ _
      rw [List.flatMap_cons, List.append_assoc]

end PngImage

theorem stripImageMetadata_pngImage (image : PngImage) {mimeType : String} (h : isPngType mimeType)
    : stripImageMetadata image.bytes mimeType = image.withoutMetadata.bytes := by
  have hbytes : image.bytes = pngSignature ++ (image.chunks.flatMap PngChunk.bytes ++ image.last.bytes ++ []) := by
    rw [PngImage.bytes, List.append_nil, List.append_assoc]
  have hdrop (rest : List UInt8) : (pngSignature ++ rest).drop 8 = rest := List.drop_left' rfl
  rw [stripImageMetadata_png h, hbytes, if_pos (isPrefixOf_append _ _), hdrop,
    PngImage.stripPngChunks_chunks _ _ image.last_type image.chunks_type, ← List.append_assoc]
  . rfl
  . exact (List.sublist_append_right _ _).length_le

structure JpegSegment where
  marker : UInt8
  payload : List UInt8
  hasLength : hasLength marker
  payload_length : payload.length + 2 < 2 ^ 16

def JpegSegment.body (segment : JpegSegment) : List UInt8 :=
  toBytesBE 2 (segment.payload.length + 2) ++ segment.payload

def JpegSegment.bytes (segment : JpegSegment) : List UInt8 := 0xFF :: segment.marker :: segment.body

theorem JpegSegment.isJpegSegment (segment : JpegSegment) : IsJpegSegment segment.body := by
  have htwo : segment.body.take 2 = toBytesBE 2 (segment.payload.length + 2) := List.take_left' (length_toBytesBE _ _)
  rw [IsJpegSegment, htwo, ofBytesBE_toBytesBE segment.payload_length, body, List.length_append, length_toBytesBE]
  omega

/--
Segments with a length, and behind them the scan with whatever follows it.
-/
structure JpegImage where
  segments : List JpegSegment
  scan : List UInt8

namespace JpegImage

def bytes (image : JpegImage) : List UInt8 :=
  [0xFF, 0xD8] ++ image.segments.flatMap JpegSegment.bytes ++ [0xFF, 0xDA] ++ image.scan

/--
The same image without the segments that hold metadata.
-/
def withoutMetadata (image : JpegImage) : JpegImage :=
  { image with segments := image.segments.filter fun segment => !isJpegMetadata segment.marker }

theorem stripJpegSegments_segments {fuel : Nat} (segments : List JpegSegment) (scan : List UInt8)
    (hfuel : (segments.flatMap JpegSegment.bytes ++ 0xFF :: 0xDA :: scan).length ≤ fuel)
    : stripJpegSegments fuel (segments.flatMap JpegSegment.bytes ++ 0xFF :: 0xDA :: scan)
        = (segments.filter fun segment => !isJpegMetadata segment.marker).flatMap JpegSegment.bytes
          ++ 0xFF :: 0xDA :: scan := by
  induction segments generalizing fuel with
  | nil =>
    obtain ⟨n, rfl⟩ : ∃ n, fuel = n + 1 := Nat.exists_eq_add_of_le' (Nat.le_trans (by simp) hfuel)
    rfl
  | cons segment segments ih =>
    rw [List.flatMap_cons, List.append_assoc] at hfuel ⊢
    have hlength : segment.bytes.length = segment.body.length + 2 := rfl
    rw [List.length_append] at hfuel
    obtain ⟨n, rfl⟩ : ∃ n, fuel = n + 1 := Nat.exists_eq_add_of_le' (by omega)
    rw [JpegSegment.bytes, stripJpegSegments_append segment.hasLength segment.isJpegSegment, ih (by omega), keepSegment,
      List.filter_cons]
    cases isJpegMetadata segment.marker with
    | true => rfl
    | false =>
      show segment.bytes ++ _ = List.flatMap _ (_ :: _) ++ _
      rw [List.flatMap_cons, List.append_assoc]

end JpegImage

theorem stripImageMetadata_jpegImage (image : JpegImage) {mimeType : String} (h : isJpegType mimeType)
    : stripImageMetadata image.bytes mimeType = image.withoutMetadata.bytes := by
  have hbytes (image : JpegImage)
      : image.bytes = [0xFF, 0xD8] ++ (image.segments.flatMap JpegSegment.bytes ++ 0xFF :: 0xDA :: image.scan) := by
    rw [JpegImage.bytes, List.append_assoc, List.append_assoc]
    rfl
  have hdrop (rest : List UInt8) : ([0xFF, 0xD8] ++ rest).drop 2 = rest := rfl
  have hbegins : (decide (4 ≤ image.bytes.length) && [0xFF, 0xD8].isPrefixOf image.bytes) = true := by
    rw [hbytes, isPrefixOf_append, Bool.and_true, decide_eq_true_eq]
    simp only [List.length_append, List.length_cons, List.length_nil]
    omega
  rw [stripImageMetadata_jpeg h, if_pos hbegins, hbytes, hbytes, hdrop, JpegImage.stripJpegSegments_segments]
  . rfl
  . exact (List.sublist_append_right _ _).length_le

end Formats

/--
The removal of metadata keeps exactly the other chunks and segments, changes nothing when it is repeated, and
stays inside its input.
-/
theorem stripImageMetadata_exact
    : (∀ (image : PngImage) (mimeType : String), isPngType mimeType →
          stripImageMetadata image.bytes mimeType = image.withoutMetadata.bytes)
        ∧ (∀ (image : JpegImage) (mimeType : String), isJpegType mimeType →
          stripImageMetadata image.bytes mimeType = image.withoutMetadata.bytes)
        ∧ (∀ bytes mimeType,
          stripImageMetadata (stripImageMetadata bytes mimeType) mimeType = stripImageMetadata bytes mimeType)
        ∧ ∀ bytes mimeType, walkImage bytes mimeType = some (stripImageMetadata bytes mimeType) :=
  ⟨fun image _ => stripImageMetadata_pngImage image, fun image _ => stripImageMetadata_jpegImage image,
    stripImageMetadata_idem, walkImage_eq⟩

/--
An image with a position in it, between a header and its end.
-/
def taggedPng : PngImage where
  chunks :=
    [⟨[0x49, 0x48, 0x44, 0x52], [1, 2, 3], [0, 0, 0, 0], rfl, by decide, rfl⟩,
      ⟨[0x65, 0x58, 0x49, 0x66], [4, 5], [0, 0, 0, 0], rfl, by decide, rfl⟩]
  last := ⟨iendType, [], [0, 0, 0, 0], rfl, by decide, rfl⟩
  last_type := rfl
  chunks_type := by decide

theorem stripImageMetadata_exact_taggedPng
    : stripImageMetadata taggedPng.bytes "image/png"
        = pngSignature ++ [0, 0, 0, 3, 0x49, 0x48, 0x44, 0x52, 1, 2, 3, 0, 0, 0, 0]
          ++ [0, 0, 0, 0, 0x49, 0x45, 0x4E, 0x44, 0, 0, 0, 0] :=
  (stripImageMetadata_exact.1 taggedPng "image/png" rfl).trans (by decide +kernel)

end Lqxp
