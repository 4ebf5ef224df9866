import Lqxp.Websocket.Protocol.Impl.Image

/-!
This module contains the scan of a JPEG file by positions: none of its reads is outside of the bytes, and it finds
the size in the frame header behind any other segments.
-/

namespace Lqxp

section Scan

variable (bytes : List UInt8)

def skipFillBytes (i : Nat) : Option Nat :=
  if i < bytes.length then do
    if (← bytes[i]?) = 0xFF then skipFillBytes (i + 1) else some i
  else
    some i
termination_by bytes.length - i

def readU16 (i : Nat) : Option Nat := do
  return ofBytesBE [← bytes[i]?, ← bytes[i + 1]?]

/--
Where a round of the scan leads.
-/
inductive ScanStep where
  | resume (i : Nat)
  | done (result : Except String (Nat × Nat))

def jpegInvalid : Except String (Nat × Nat) := .error "JPEG dimensions are invalid"

/--
A round of the scan. A read outside of the bytes gives none.
-/
def jpegRound (i : Nat) : Option ScanStep := do
  if (← bytes[i]?) ≠ 0xFF then
    return .resume (i + 1)
  let i ← skipFillBytes bytes i
  if bytes.length ≤ i then
    return .done jpegInvalid
  let marker ← bytes[i]?
  let i := i + 1
  if [0xD8, 0xD9, 0x01].contains marker then
    return .resume i
  if bytes.length ≤ i + 1 then
    return .done jpegInvalid
  let len ← readU16 bytes i
  if len < 2 || bytes.length < i + len then
    return .done jpegInvalid
  if isSofMarker marker then
    if len < 7 || bytes.length ≤ i + 6 then
      return .done jpegInvalid
    let height ← readU16 bytes (i + 3)
    let width ← readU16 bytes (i + 5)
    return .done (.ok (width, height))
  return .resume (i + len)

variable {bytes}

theorem skipFillBytes_eq {i : Nat} (h : i ≤ bytes.length)
    : ∃ j, skipFillBytes bytes i = some j ∧ i ≤ j ∧ j ≤ bytes.length
        ∧ (bytes.drop i).dropWhile (· = 0xFF) = bytes.drop j := by
  induction i using skipFillBytes.induct bytes with
  | case1 i hlt ih =>
    rw [skipFillBytes, if_pos hlt, List.getElem?_eq_getElem hlt, Option.bind_eq_bind, Option.bind_some,
      List.drop_eq_getElem_cons hlt]
    by_cases hfill : bytes[i] = 0xFF
    . obtain ⟨j, hj, hle, hlength, hdrop⟩ := ih hlt
      rw [if_pos hfill, List.dropWhile_cons_of_pos (by simpa using hfill)]
      exact ⟨j, hj, by omega, hlength, hdrop⟩
    . rw [if_neg hfill, List.dropWhile_cons_of_neg (by simpa using hfill), ← List.drop_eq_getElem_cons hlt]
      exact ⟨i, rfl, Nat.le_refl _, h, rfl⟩
  | case2 i hge =>
    rw [skipFillBytes, if_neg hge, List.drop_eq_nil_of_le (by omega)]
    exact ⟨i, rfl, Nat.le_refl _, h, by rw [List.drop_eq_nil_of_le (by omega)]; rfl⟩

theorem readU16_eq {i : Nat} (h : i + 1 < bytes.length)
    : readU16 bytes i = some (ofBytesBE ((bytes.drop i).take 2)) := by
  have htake : (bytes.drop i).take 2 = [bytes[i], bytes[i + 1]] := by
    rw [List.drop_eq_getElem_cons (by omega), List.drop_eq_getElem_cons h]
    rfl
  rw [readU16, List.getElem?_eq_getElem h, List.getElem?_eq_getElem (by omega), htake]
  rfl

/--
What a round of the scan over suffixes does.
-/
def ScanStep.Matches (bytes : List UInt8) (i : Nat) : ScanStep → Prop
  | .resume j => i < j ∧ ∀ fuel, jpegDimensions.go (fuel + 1) (bytes.drop i) = jpegDimensions.go fuel (bytes.drop j)
  | .done result => ∀ fuel, jpegDimensions.go (fuel + 1) (bytes.drop i) = result

theorem jpegDimensions_go_of_fill {rest seg : List UInt8} {marker : UInt8} (fuel : Nat) (hrest : ¬ rest.length ≤ 9)
    (hhead : rest.head? = some 0xFF) (hdrop : rest.dropWhile (· = 0xFF) = marker :: seg)
    : jpegDimensions.go (fuel + 1) rest
        = if [0xD8, 0xD9, 0x01].contains marker then
            jpegDimensions.go fuel seg
          else
            let len := ofBytesBE (seg.take 2)
            if seg.length < 2 || len < 2 || seg.length < len then
              jpegInvalid
            else if isSofMarker marker then
              if len < 7 || seg.length ≤ 6 then
                jpegInvalid
              else
                .ok (ofBytesBE (slice seg 5 2), ofBytesBE (slice seg 3 2))
            else
              jpegDimensions.go fuel (seg.drop len) := by
  rw [jpegDimensions.go, if_neg hrest, if_neg (by simp [hhead]), hdrop]
  rfl

theorem jpegDimensions_go_of_only_fill {rest : List UInt8} (fuel : Nat) (hrest : ¬ rest.length ≤ 9)
    (hhead : rest.head? = some 0xFF) (hdrop : rest.dropWhile (· = 0xFF) = [])
    : jpegDimensions.go (fuel + 1) rest = jpegInvalid := by
  rw [jpegDimensions.go, if_neg hrest, if_neg (by simp [hhead]), hdrop]
  rfl

theorem jpegRound_matches {i : Nat} (h : i + 9 < bytes.length)
    : ∃ step, jpegRound bytes i = some step ∧ step.Matches bytes i := by
  have hlt : i < bytes.length := by omega
  have hrest : ¬ (bytes.drop i).length ≤ 9 := by
    rw [List.length_drop]
    omega
  have hhead : (bytes.drop i).head? = some bytes[i] := by
    rw [List.drop_eq_getElem_cons hlt, List.head?_cons]
  rw [jpegRound, List.getElem?_eq_getElem hlt, Option.bind_eq_bind, Option.bind_some]
  by_cases hfill : bytes[i] = 0xFF
  case neg =>
    rw [if_pos hfill]
    refine ⟨_, rfl, Nat.lt_succ_self i, fun fuel => ?_⟩
    rw [jpegDimensions.go, if_neg hrest, hhead, if_pos (by simpa using hfill), List.tail_drop]
  obtain ⟨j, hj, hle, hlength, hdrop⟩ := skipFillBytes_eq (Nat.le_of_lt hlt)
  have hfirst : (bytes.drop i).head? = some 0xFF := hhead.trans (congrArg some hfill)
  rw [if_neg (by simpa using hfill), hj]
  simp only [Option.bind_eq_bind, Option.bind_some]
  by_cases hend : bytes.length ≤ j
  case pos =>
    rw [if_pos hend]
    refine ⟨_, rfl, fun fuel => ?_⟩
    exact jpegDimensions_go_of_only_fill fuel hrest hfirst (hdrop.trans (List.drop_eq_nil_of_le hend))
  have hmarker : j < bytes.length := Nat.lt_of_not_le hend
  rw [if_neg hend, List.getElem?_eq_getElem hmarker, Option.bind_some]
  have hgo (fuel : Nat) :=
    jpegDimensions_go_of_fill fuel hrest hfirst (hdrop.trans (List.drop_eq_getElem_cons hmarker))
  generalize bytes[j] = marker at hgo
  have hseg : (bytes.drop (j + 1)).length = bytes.length - (j + 1) := List.length_drop
  by_cases hlone : [0xD8, 0xD9, 0x01].contains marker
  case pos =>
    rw [if_pos hlone]
    refine ⟨_, rfl, by omega, fun fuel => ?_⟩
    rw [hgo]
    exact if_pos hlone
  rw [if_neg hlone]
  by_cases hshort : bytes.length ≤ j + 1 + 1
  case pos =>
    rw [if_pos hshort]
    refine ⟨_, rfl, fun fuel => ?_⟩
    rw [hgo]
    simp only [hlone, hseg]
    rw [if_neg (by simp), if_pos (by simp only [Bool.or_eq_true, decide_eq_true_eq]; omega)]
  rw [if_neg hshort, readU16_eq (by omega), Option.bind_some]
  generalize ofBytesBE ((bytes.drop (j + 1)).take 2) = len at hgo
  by_cases hbad : len < 2 || bytes.length < j + 1 + len
  case pos =>
    rw [if_pos hbad]
    refine ⟨_, rfl, fun fuel => ?_⟩
    rw [hgo]
    simp only [Bool.or_eq_true, decide_eq_true_eq] at hbad
    simp only [hlone, hseg]
    rw [if_neg (by simp), if_pos (by simp only [Bool.or_eq_true, decide_eq_true_eq]; omega)]
  rw [if_neg hbad]
  simp only [Bool.or_eq_true, decide_eq_true_eq] at hbad
  have hsegment (fuel : Nat) : jpegDimensions.go (fuel + 1) (bytes.drop i)
      = if isSofMarker marker then
          if len < 7 || bytes.length - (j + 1) ≤ 6 then
            jpegInvalid
          else
            .ok (ofBytesBE (slice (bytes.drop (j + 1)) 5 2), ofBytesBE (slice (bytes.drop (j + 1)) 3 2))
        else
          jpegDimensions.go fuel ((bytes.drop (j + 1)).drop len) := by
    rw [hgo]
    simp only [hlone, hseg]
    rw [if_neg (by simp), if_neg (by simp only [Bool.or_eq_true, decide_eq_true_eq]; omega)]
  by_cases hsof : isSofMarker marker
  case neg =>
    rw [if_neg hsof]
    refine ⟨_, rfl, by omega, fun fuel => ?_⟩
    rw [hsegment, if_neg hsof, List.drop_drop]
  rw [if_pos hsof]
  by_cases hframe : len < 7 || bytes.length ≤ j + 1 + 6
  case pos =>
    rw [if_pos hframe]
    refine ⟨_, rfl, fun fuel => ?_⟩
    simp only [Bool.or_eq_true, decide_eq_true_eq] at hframe
    rw [hsegment, if_pos hsof, if_pos (by simp only [Bool.or_eq_true, decide_eq_true_eq]; omega)]
  rw [if_neg hframe]
  simp only [Bool.or_eq_true, decide_eq_true_eq] at hframe
  rw [readU16_eq (by omega), readU16_eq (by omega)]
  refine ⟨_, rfl, fun fuel => ?_⟩
  rw [hsegment, if_pos hsof, if_neg (by simp only [Bool.or_eq_true, decide_eq_true_eq]; omega), slice, slice,
    List.drop_drop, List.drop_drop]

variable (bytes) in
/--
The scan from a position on. It only goes forward.
-/
def jpegLoop (i : Nat) : Option (Except String (Nat × Nat)) :=
  if _hlt : i + 9 < bytes.length then
    match _h : jpegRound bytes i with
    | none => none
    | some (.done result) => some result
    | some (.resume j) => jpegLoop j
  else
    some jpegInvalid
termination_by bytes.length - i
decreasing_by
  obtain ⟨step, hstep, hmatches⟩ := jpegRound_matches _hlt
  obtain rfl := Option.some.inj (hstep.symm.trans _h)
  have := hmatches.1
  omega

theorem jpegLoop_eq {fuel i : Nat} (h : bytes.length - i ≤ fuel)
    : jpegLoop bytes i = some (jpegDimensions.go fuel (bytes.drop i)) := by
  induction fuel generalizing i with
  | zero =>
    rw [jpegLoop, dif_neg (by omega)]
    rfl
  | succ fuel ih =>
    rw [jpegLoop]
    split
    next hlt =>
      obtain ⟨step, hstep, hmatches⟩ := jpegRound_matches hlt
      split
      next hnone => rw [hstep] at hnone; contradiction
      next result hdone =>
        obtain rfl := Option.some.inj (hstep.symm.trans hdone)
        rw [hmatches]
      next j hresume =>
        obtain rfl := Option.some.inj (hstep.symm.trans hresume)
        obtain ⟨hforward, hgo⟩ := hmatches
        rw [ih (by omega), hgo]
    next hge =>
      rw [jpegDimensions.go, if_pos (by rw [List.length_drop]; omega)]
      rfl

variable (bytes) in
def scanJpegDimensions : Option (Except String (Nat × Nat)) := jpegLoop bytes 2

theorem scanJpegDimensions_eq (bytes : List UInt8) : scanJpegDimensions bytes = some (jpegDimensions bytes) :=
  jpegLoop_eq (Nat.sub_le _ _)

end Scan

section Segments

def jpegSegment (marker : UInt8) (payload : List UInt8) : List UInt8 :=
  let len := payload.length + 2
  0xFF :: marker :: (len / 256).toUInt8 :: (len % 256).toUInt8 :: payload

/--
A marker of a segment that the scan passes over.
-/
def isPassed (marker : UInt8) : Bool := !isSofMarker marker && !([0xD8, 0xD9, 0x01, 0x00, 0xFF].contains marker)

theorem ofBytesBE_length {len : Nat} (h : len < 2 ^ 16) : ofBytesBE [(len / 256).toUInt8, (len % 256).toUInt8] = len := by
  have hhigh : (len / 256).toUInt8.toNat = len / 256 := by
    rw [Nat.toUInt8_eq, UInt8.toNat_ofNat', Nat.mod_eq_of_lt (by omega)]
  have hlow : (len % 256).toUInt8.toNat = len % 256 := by
    rw [Nat.toUInt8_eq, UInt8.toNat_ofNat', Nat.mod_eq_of_lt (by omega)]
  simp only [ofBytesBE, List.foldl_cons, List.foldl_nil, hhigh, hlow]
  omega

theorem go_segment {marker : UInt8} {payload rest : List UInt8} (hmarker : !([0xD8, 0xD9, 0x01, 0xFF].contains marker))
    (hlen : payload.length + 2 < 2 ^ 16) (hlong : 9 < (jpegSegment marker payload ++ rest).length) (fuel : Nat)
    : jpegDimensions.go (fuel + 1) (jpegSegment marker payload ++ rest)
        = if isSofMarker marker then
            if payload.length < 5 then jpegInvalid
            else .ok (ofBytesBE (slice (payload ++ rest) 3 2), ofBytesBE (slice (payload ++ rest) 1 2))
          else
            jpegDimensions.go fuel rest := by
  simp only [Bool.not_eq_true', List.contains_eq_mem, decide_eq_false_iff_not, List.mem_cons, List.not_mem_nil,
    or_false, not_or] at hmarker
  have hlone : [0xD8, 0xD9, 0x01].contains marker = false := by simp [hmarker]
  have hfill : ¬ (decide (marker = 0xFF)) = true := by simp [hmarker]
  rw [jpegDimensions.go, if_neg (by omega)]
  simp only [jpegSegment, List.cons_append, List.head?_cons, ne_eq, not_true_eq_false, if_false,
    List.dropWhile_cons_of_pos (p := fun b : UInt8 => decide (b = 0xFF)) (a := 0xFF) (by decide),
    List.dropWhile_cons_of_neg (p := fun b : UInt8 => decide (b = 0xFF)) hfill, hlone, Bool.false_eq_true,
    List.take_succ_cons, List.take_zero, ofBytesBE_length hlen, List.length_cons, List.length_append]
  rw [if_neg (by simp only [Bool.or_eq_true, decide_eq_true_eq]; omega)]
  split
  . by_cases hframe : payload.length < 5
    . rw [if_pos hframe, if_pos (by simp only [Bool.or_eq_true, decide_eq_true_eq]; omega)]
      rfl
    . rw [if_neg hframe, if_neg (by simp only [Bool.or_eq_true, decide_eq_true_eq]; omega)]
      rfl
  . rw [List.drop_succ_cons, List.drop_succ_cons, List.drop_left]

theorem go_segments {segments : List (UInt8 × List UInt8)} {rest : List UInt8} {fuel : Nat}
    (hsegments : ∀ segment ∈ segments, isPassed segment.1 ∧ segment.2.length + 2 < 2 ^ 16) (hlong : 9 < rest.length)
    (hfuel : segments.length ≤ fuel)
    : ∃ fuel', fuel ≤ fuel' + segments.length
        ∧ jpegDimensions.go fuel (segments.flatMap (fun segment => jpegSegment segment.1 segment.2) ++ rest)
          = jpegDimensions.go fuel' rest := by
  induction segments generalizing fuel with
  | nil => exact ⟨fuel, Nat.le_refl _, rfl⟩
  | cons segment segments ih =>
    obtain ⟨⟨hpassed, hlen⟩, hsegments⟩ := List.forall_mem_cons.1 hsegments
    obtain ⟨fuel, rfl⟩ := Nat.exists_eq_succ_of_ne_zero (Nat.ne_of_gt (Nat.zero_lt_of_lt hfuel))
    obtain ⟨fuel', hle, hgo⟩ := ih hsegments (Nat.le_of_succ_le_succ hfuel)
    simp only [isPassed, Bool.and_eq_true, Bool.not_eq_true', List.contains_eq_mem, decide_eq_false_iff_not,
      List.mem_cons, List.not_mem_nil, or_false, not_or] at hpassed
    refine ⟨fuel', by rw [List.length_cons]; omega, ?_⟩
    rw [List.flatMap_cons, List.append_assoc, go_segment (by simp [hpassed]) hlen, if_neg (by simp [hpassed]), hgo]
    simp only [List.length_append]
    omega

theorem length_le_flatMap_jpegSegment (segments : List (UInt8 × List UInt8))
    : segments.length ≤ (segments.flatMap fun segment => jpegSegment segment.1 segment.2).length := by
  induction segments with
  | nil => exact Nat.zero_le _
  | cons segment segments ih =>
    rw [List.flatMap_cons, List.length_append, jpegSegment, List.length_cons, List.length_cons]
    omega

/--
The scan of any bytes ends without a read outside of them. Behind the start of an image and any segments that it
passes over it finds the size in the frame header, whatever follows.
-/
theorem scanJpegDimensions_total
    : (∀ bytes : List UInt8, ∃ result, scanJpegDimensions bytes = some result)
        ∧ ∀ (segments : List (UInt8 × List UInt8)) (marker precision h₁ h₀ w₁ w₀ : UInt8) (more rest : List UInt8),
          (∀ segment ∈ segments, isPassed segment.1 ∧ segment.2.length + 2 < 2 ^ 16) → isSofMarker marker →
          more ≠ [] → (precision :: h₁ :: h₀ :: w₁ :: w₀ :: more).length + 2 < 2 ^ 16 →
          scanJpegDimensions (0xFF :: 0xD8 :: (segments.flatMap (fun segment => jpegSegment segment.1 segment.2)
              ++ (jpegSegment marker (precision :: h₁ :: h₀ :: w₁ :: w₀ :: more) ++ rest)))
            = some (.ok (ofBytesBE [w₁, w₀], ofBytesBE [h₁, h₀])) := by
  refine ⟨fun bytes => ⟨_, scanJpegDimensions_eq bytes⟩, ?_⟩
  intro segments marker precision h₁ h₀ w₁ w₀ more rest hsegments hsof hmore hlen
  have hpos := List.length_pos_of_ne_nil hmore
  have hlong : 9 < (jpegSegment marker (precision :: h₁ :: h₀ :: w₁ :: w₀ :: more) ++ rest).length := by
    simp only [jpegSegment, List.length_append, List.length_cons]
    omega
  have hmarker : !([0xD8, 0xD9, 0x01, 0xFF].contains marker) := by
    simp only [isSofMarker, List.contains_eq_mem, decide_eq_true_eq, List.mem_cons, List.not_mem_nil, or_false] at hsof
    rcases hsof with rfl | rfl | rfl | rfl | rfl | rfl | rfl | rfl | rfl | rfl | rfl | rfl | rfl
    all_goals decide
  have hcount := length_le_flatMap_jpegSegment segments
  rw [scanJpegDimensions_eq, jpegDimensions, List.drop_succ_cons, List.drop_succ_cons, List.drop_zero]
  have henough : segments.length ≤ (0xFF :: 0xD8 :: (segments.flatMap (fun segment => jpegSegment segment.1 segment.2)
      ++ (jpegSegment marker (precision :: h₁ :: h₀ :: w₁ :: w₀ :: more) ++ rest))).length := by
    simp only [List.length_cons, List.length_append]
    omega
  obtain ⟨fuel, hfuel, hgo⟩ := go_segments hsegments hlong henough
  simp only [List.length_cons, List.length_append] at hfuel
  obtain ⟨fuel, rfl⟩ := Nat.exists_eq_succ_of_ne_zero (show fuel ≠ 0 by omega)
  rw [hgo, go_segment hmarker hlen hlong, if_pos hsof, if_neg (by simp only [List.length_cons]; omega)]
  rfl

/--
A file with one comment before the frame header.
-/
theorem scanJpegDimensions_total_comment
    : scanJpegDimensions [0xFF, 0xD8, 0xFF, 0xFE, 0, 3, 7, 0xFF, 0xC0, 0, 8, 8, 0, 2, 1, 4, 3]
        = some (.ok (260, 2)) :=
  scanJpegDimensions_total.2 [(0xFE, [7])] 0xC0 8 0 2 1 4 [3] [] (by decide) (by decide) (by decide) (by decide)

end Segments

end Lqxp
