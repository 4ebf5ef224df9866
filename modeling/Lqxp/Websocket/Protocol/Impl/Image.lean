import Lqxp.Data.Text

/-!
This module contains the recognition of uploaded images by their content.
-/

namespace Lqxp

def pngSignature : List UInt8 := [0x89, 0x50, 0x4E, 0x47, 0x0D, 0x0A, 0x1A, 0x0A]

/--
A number from its bytes, most significant first.
-/
def ofBytesBE (bytes : List UInt8) : Nat := bytes.foldl (fun n b => n * 256 + b.toNat) 0

def ofBytesLE (bytes : List UInt8) : Nat := ofBytesBE bytes.reverse

/--
The bytes at the positions from `i` on, `n` of them.
-/
def slice (bytes : List UInt8) (i n : Nat) : List UInt8 := (bytes.drop i).take n

def isSofMarker (marker : UInt8) : Bool :=
  [0xC0, 0xC1, 0xC2, 0xC3, 0xC5, 0xC6, 0xC7, 0xC9, 0xCA, 0xCB, 0xCD, 0xCE, 0xCF].contains marker

def jpegDimensions (bytes : List UInt8) : Except String (Nat × Nat) :=
  go bytes.length (bytes.drop 2)
where
  /-- The fuel never runs out: each round drops at least one byte of the rest. -/
  go (fuel : Nat) (rest : List UInt8) : Except String (Nat × Nat) :=
    match fuel with
    | 0 => .error "JPEG dimensions are invalid"
    | fuel + 1 =>
      if rest.length ≤ 9 then
        .error "JPEG dimensions are invalid"
      else if rest.head? ≠ some 0xFF then
        go fuel rest.tail
      else
        match rest.dropWhile (· = 0xFF) with
        | [] => .error "JPEG dimensions are invalid"
        | marker :: seg =>
          if [0xD8, 0xD9, 0x01].contains marker then
            go fuel seg
          else
            let len := ofBytesBE (seg.take 2)
            if seg.length < 2 || len < 2 || seg.length < len then
              .error "JPEG dimensions are invalid"
            else if isSofMarker marker then
              if len < 7 || seg.length ≤ 6 then
                .error "JPEG dimensions are invalid"
              else
                .ok (ofBytesBE (slice seg 5 2), ofBytesBE (slice seg 3 2))
            else
              go fuel (seg.drop len)

def detectProfileImage (bytes : List UInt8) (declaredMime : String)
    : Except String (String × Nat × Nat) :=
  let declared := Text.toAsciiLower declaredMime
  if 24 ≤ bytes.length && pngSignature.isPrefixOf bytes then
    if !(["", "image/png", "image/apng"].contains declared) then
      .error "Profile image MIME does not match PNG/APNG data"
    else
      .ok ("image/png", ofBytesBE (slice bytes 16 4), ofBytesBE (slice bytes 20 4))
  else if 10 ≤ bytes.length
      && ([0x47, 0x49, 0x46, 0x38, 0x37, 0x61].isPrefixOf bytes
        || [0x47, 0x49, 0x46, 0x38, 0x39, 0x61].isPrefixOf bytes) then
    if !(["", "image/gif"].contains declared) then
      .error "Profile image MIME does not match GIF data"
    else
      .ok ("image/gif", ofBytesLE (slice bytes 6 2), ofBytesLE (slice bytes 8 2))
  else if 4 ≤ bytes.length && [0xFF, 0xD8].isPrefixOf bytes then
    if !(["", "image/jpeg", "image/jpg"].contains declared) then
      .error "Profile image MIME does not match JPEG data"
    else
      match jpegDimensions bytes with
      | .error text => .error text
      | .ok (width, height) => .ok ("image/jpeg", width, height)
  else
    .error "Unsupported profile image codec"

end Lqxp
