import Lqxp.Services.User.Stripping

/-!
This module contains which metadata is left in a JPEG image that has been accepted and stripped.
-/

namespace Lqxp

section Reading

/--
Whether a reader that skips stray bytes meets a segment with metadata before the scan or the end of the image.
-/
def meetsMetadata : Nat → List UInt8 → Bool
  | 0, _ => false
  | fuel + 1, rest =>
    match (rest.dropWhile (· ≠ 0xFF)).dropWhile (· = 0xFF) with
    | [] => false
    | marker :: seg =>
      if marker = 0xDA || marker = 0xD9 then
        false
      else if isJpegMetadata marker then
        true
      else if marker = 0xD8 || marker = 0x01 then
        meetsMetadata fuel seg
      else
        let len := ofBytesBE (seg.take 2)
        if seg.length < 2 || len < 2 || seg.length < len then
          false
        else
          meetsMetadata fuel (seg.drop len)

/--
The reader starts behind the first marker, as the search for the dimensions does.
-/
def showsMetadata (bytes : List UInt8) : Bool := meetsMetadata bytes.length (bytes.drop 2)

theorem length_dropWhile_le (p : UInt8 → Bool) (bytes : List UInt8) : (bytes.dropWhile p).length ≤ bytes.length :=
  (List.dropWhile_sublist p).length_le

theorem meetsMetadata_of_le {fuel fuel' : Nat} {rest : List UInt8} (h : rest.length ≤ fuel) (h' : rest.length ≤ fuel')
    : meetsMetadata fuel rest = meetsMetadata fuel' rest := by
  induction fuel generalizing fuel' rest with
  | zero =>
    obtain rfl := List.eq_nil_of_length_eq_zero (Nat.le_zero.1 h)
    cases fuel' with
    | zero => rfl
    | succ fuel' => rfl
  | succ fuel ih =>
    cases fuel' with
    | zero =>
      obtain rfl := List.eq_nil_of_length_eq_zero (Nat.le_zero.1 h')
      rfl
    | succ fuel' =>
      rw [meetsMetadata, meetsMetadata]
      have hlength := Nat.le_trans (length_dropWhile_le (· = 0xFF) _) (length_dropWhile_le (· ≠ 0xFF) rest)
      split
      . rfl
      next marker seg hseg =>
        rw [hseg, List.length_cons] at hlength
        have hdrop : (seg.drop (ofBytesBE (seg.take 2))).length ≤ seg.length := by
          rw [List.length_drop]
          omega
        have hhere : meetsMetadata fuel seg = meetsMetadata fuel' seg := ih (by omega) (by omega)
        have hthere : meetsMetadata fuel (seg.drop (ofBytesBE (seg.take 2)))
            = meetsMetadata fuel' (seg.drop (ofBytesBE (seg.take 2))) := ih (by omega) (by omega)
        rw [hhere]
        dsimp only
        rw [hthere]

theorem meetsMetadata_append {marker : UInt8} {seg : List UInt8} (hmarker : hasLength marker)
    (hlengthless : marker ≠ 0xD8 ∧ marker ≠ 0x01) (hmetadata : isJpegMetadata marker = false)
    (hseg : IsJpegSegment seg) (fuel : Nat) (tail : List UInt8)
    : meetsMetadata (fuel + 1) (0xFF :: marker :: seg ++ tail) = meetsMetadata fuel tail := by
  simp only [hasLength, Bool.and_eq_true, decide_eq_true_eq] at hmarker
  obtain ⟨⟨hfill, hend⟩, hscan⟩ := hmarker
  obtain ⟨hlength, hlen⟩ := hseg
  have htwo : (seg ++ tail).take 2 = seg.take 2 := List.take_append_of_le_length hlength
  rw [List.cons_append, List.cons_append, meetsMetadata, List.dropWhile_cons_of_neg (by simp),
    List.dropWhile_cons_of_pos (by simp), List.dropWhile_cons_of_neg (by simpa using hfill)]
  dsimp only
  rw [if_neg (by simp [hend, hscan]), if_neg (by simp [hmetadata]), if_neg (by simp [hlengthless]), htwo, ← hlen,
    if_neg (by simp; omega), List.drop_left' rfl]

theorem meetsMetadata_nil (fuel : Nat) : meetsMetadata fuel [] = false := by
  cases fuel with
  | zero => rfl
  | succ fuel => rfl

theorem meetsMetadata_stripJpegSegments {fuel fuel' : Nat} {rest : List UInt8}
    (hstep : ∀ marker seg, .segment marker seg ∈ jpegParts fuel rest → marker ≠ 0xD8 ∧ marker ≠ 0x01)
    (hfuel : (stripJpegSegments fuel rest).length ≤ fuel')
    : meetsMetadata fuel' (stripJpegSegments fuel rest) = true
        ↔ ∃ tail, .stray tail ∈ jpegParts fuel rest ∧ meetsMetadata tail.length tail = true := by
  induction fuel generalizing fuel' rest with
  | zero => simp [stripJpegSegments, jpegParts, meetsMetadata_nil]
  | succ fuel ih =>
    rw [stripJpegSegments_eq_flatMap (fuel + 1) rest] at hfuel ⊢
    rcases jpegParts_cases (fuel + 1) rest with
      hparts | ⟨b, tail, -, hparts⟩ | hparts | ⟨tail, hparts⟩ | ⟨n, marker, seg, tail, hn, hmarker, hseg, hparts⟩
    . simp [hparts, meetsMetadata_nil]
    . rw [hparts, List.flatMap_singleton, JpegPart.kept] at hfuel ⊢
      rw [meetsMetadata_of_le hfuel (Nat.le_refl _)]
      simp
    . rw [hparts, List.flatMap_singleton] at hfuel ⊢
      rw [meetsMetadata_of_le hfuel (Nat.le_refl _)]
      simp [JpegPart.kept, meetsMetadata]
    . rw [hparts, List.flatMap_singleton] at hfuel ⊢
      rw [meetsMetadata_of_le hfuel (Nat.le_refl _)]
      simp [JpegPart.kept, meetsMetadata]
    . obtain rfl : fuel = n := Nat.succ.inj hn
      rw [hparts, List.flatMap_cons, ← stripJpegSegments_eq_flatMap fuel tail, JpegPart.kept, keepSegment] at hfuel ⊢
      have hmem (stray : List UInt8) : JpegPart.stray stray ∈ JpegPart.segment marker seg :: jpegParts fuel tail
          ↔ .stray stray ∈ jpegParts fuel tail := by simp
      simp only [hmem]
      have hrest {fuel' : Nat} (hfuel : (stripJpegSegments fuel tail).length ≤ fuel') :=
        ih (fun marker seg hpart => hstep marker seg (hparts ▸ .tail _ hpart)) hfuel
      split
      next hmetadata =>
        rw [if_pos hmetadata] at hfuel
        exact hrest hfuel
      next hmetadata =>
        rw [if_neg hmetadata, List.length_append] at hfuel
        have hlengthless := hstep marker seg (hparts ▸ .head _)
        have hmore : meetsMetadata fuel' (0xFF :: marker :: seg ++ stripJpegSegments fuel tail)
            = meetsMetadata (fuel' + 1) (0xFF :: marker :: seg ++ stripJpegSegments fuel tail) := by
          apply meetsMetadata_of_le
          . rw [List.length_append]
            omega
          . rw [List.length_append]
            omega
        rw [hmore, meetsMetadata_append hmarker hlengthless (by simpa using hmetadata) hseg]
        exact hrest (by omega)

end Reading

section Accepted

/--
The strict walk takes no marker that stands alone for one in front of a segment.
-/
def InStep (bytes : List UInt8) : Prop :=
  ∀ marker seg, .segment marker seg ∈ jpegParts bytes.length (bytes.drop 2) → marker ≠ 0xD8 ∧ marker ≠ 0x01

/--
When the strict walk stops at a stray byte, there is no metadata behind it for the reader.
-/
def StrayClean (bytes : List UInt8) : Prop :=
  ∀ tail, .stray tail ∈ jpegParts bytes.length (bytes.drop 2) → meetsMetadata tail.length tail = false

theorem jpeg_of_detectProfileImage {bytes : List UInt8} {declaredMime : String} {width height : Nat}
    (h : detectProfileImage bytes declaredMime = .ok ("image/jpeg", width, height))
    : 4 ≤ bytes.length ∧ [0xFF, 0xD8].isPrefixOf bytes := by
  unfold detectProfileImage at h
  dsimp only at h
  split at h
  . split at h
    . contradiction
    . exact absurd (congrArg Prod.fst (Except.ok.inj h)) (by simp)
  split at h
  . split at h
    . contradiction
    . exact absurd (congrArg Prod.fst (Except.ok.inj h)) (by simp)
  split at h
  next hjpeg => simpa using hjpeg
  next => contradiction

/--
An accepted JPEG image in which the strict walk and the reader stay in step shows no metadata when it has been
stripped if and only if there is none behind a stray byte.
-/
theorem showsMetadata_iff {bytes : List UInt8} {declaredMime : String} {width height : Nat}
    (haccepted : detectProfileImage bytes declaredMime = .ok ("image/jpeg", width, height)) (hstep : InStep bytes)
    : showsMetadata (stripImageMetadata bytes "image/jpeg") = false ↔ StrayClean bytes := by
  obtain ⟨hlength, hbegins⟩ := jpeg_of_detectProfileImage haccepted
  have hstrip : stripImageMetadata bytes "image/jpeg"
      = [0xFF, 0xD8] ++ stripJpegSegments bytes.length (bytes.drop 2) := by
    rw [stripImageMetadata_jpeg rfl, if_pos (by rw [hbegins, decide_eq_true hlength]; rfl)]
  have hdrop (rest : List UInt8) : ([0xFF, 0xD8] ++ rest).drop 2 = rest := rfl
  rw [showsMetadata, hstrip, hdrop, ← Bool.not_eq_true,
    meetsMetadata_stripJpegSegments hstep (List.sublist_append_right _ _).length_le]
  simp [StrayClean]

def taggedJpeg : List UInt8 :=
  [0xFF, 0xD8, 0xFF, 0xE1, 0, 4, 0x47, 0x50, 0xFF, 0xC0, 0, 11, 8, 0, 1, 0, 1, 1, 1, 0x11, 0, 0xFF, 0xD9]

theorem showsMetadata_iff_taggedJpeg : showsMetadata (stripImageMetadata taggedJpeg "image/jpeg") = false := by
  have hparts : jpegParts taggedJpeg.length (taggedJpeg.drop 2)
      = [.segment 0xE1 [0, 4, 0x47, 0x50], .segment 0xC0 [0, 11, 8, 0, 1, 0, 1, 1, 1, 0x11, 0], .eoi] := by
    decide +kernel
  have hstep : InStep taggedJpeg := by
    intro marker seg hpart
    rw [hparts] at hpart
    simp only [List.mem_cons, JpegPart.segment.injEq, List.not_mem_nil, or_false, reduceCtorEq] at hpart
    obtain ⟨rfl, -⟩ | ⟨rfl, -⟩ := hpart
    . decide
    . decide
  have hclean : StrayClean taggedJpeg := by
    intro tail hpart
    rw [hparts] at hpart
    simp at hpart
  have haccepted : detectProfileImage taggedJpeg "image/jpeg" = .ok ("image/jpeg", 1, 1) := by decide +kernel
  exact (showsMetadata_iff haccepted hstep).2 hclean

/--
The same image with a stray byte in front of the position.
-/
def strayJpeg : List UInt8 :=
  [0xFF, 0xD8, 0, 0xFF, 0xE1, 0, 4, 0x47, 0x50, 0xFF, 0xC0, 0, 11, 8, 0, 1, 0, 1, 1, 1, 0x11, 0, 0xFF, 0xD9]

theorem not_clean_of_accepted
    : ¬∀ bytes declaredMime width height, detectProfileImage bytes declaredMime = .ok ("image/jpeg", width, height) →
        showsMetadata (stripImageMetadata bytes "image/jpeg") = false := by
  intro h
  have haccepted : detectProfileImage strayJpeg "image/jpeg" = .ok ("image/jpeg", 1, 1) := by decide +kernel
  exact absurd (h strayJpeg _ _ _ haccepted) (by decide +kernel)

end Accepted

end Lqxp
