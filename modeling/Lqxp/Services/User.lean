import Lqxp.Core.Presence
import Lqxp.Websocket.Protocol.Impl.Image

/-!
This module contains the storage of uploaded files, without the metadata of the images among them.
-/

namespace Lqxp

section Metadata

def isPngMetadata (chunkType : List UInt8) : Bool :=
  ["eXIf", "tEXt", "zTXt", "iTXt", "tIME", "pHYs", "iCCP"].any fun name =>
    name.toList.map (·.toNat.toUInt8) = chunkType

def stripPngChunks (fuel : Nat) (rest : List UInt8) : List UInt8 :=
  match fuel with
  | 0 => []
  | fuel + 1 =>
    let total := 12 + ofBytesBE (rest.take 4)
    if rest.length < 12 || rest.length < total then
      []
    else
      let chunkType := slice rest 4 4
      let kept := if isPngMetadata chunkType then [] else rest.take total
      if chunkType = [0x49, 0x45, 0x4E, 0x44] then
        kept
      else
        kept ++ stripPngChunks fuel (rest.drop total)

def stripJpegSegments (fuel : Nat) (rest : List UInt8) : List UInt8 :=
  match fuel, rest with
  | 0, _ => []
  | _, [] => []
  | fuel + 1, b :: tail =>
    if b ≠ 0xFF then
      b :: tail
    else
      match tail.dropWhile (· = 0xFF) with
      | [] => []
      | marker :: seg =>
        if marker = 0xD9 then
          [0xFF, 0xD9]
        else if marker = 0xDA then
          0xFF :: 0xDA :: seg
        else
          let len := ofBytesBE (seg.take 2)
          if seg.length < 2 || len < 2 || seg.length < len then
            []
          else
            let kept :=
              if [0xE1, 0xE2, 0xED, 0xFE].contains marker then [] else 0xFF :: marker :: seg.take len
            kept ++ stripJpegSegments fuel (seg.drop len)

def stripImageMetadata (bytes : List UInt8) (mimeType : String) : List UInt8 :=
  if mimeType = "image/png" || mimeType = "image/apng" then
    if pngSignature.isPrefixOf bytes then
      pngSignature ++ stripPngChunks bytes.length (bytes.drop 8)
    else
      bytes
  else if mimeType = "image/jpeg" || mimeType = "image/jpg" then
    if 4 ≤ bytes.length && [0xFF, 0xD8].isPrefixOf bytes then
      [0xFF, 0xD8] ++ stripJpegSegments bytes.length (bytes.drop 2)
    else
      bytes
  else
    bytes

end Metadata

def publicFileUrl (uploadPublicBase fileId : String) : String :=
  let base := Text.trim uploadPublicBase
  let base := if base = "" then "/uploads" else base
  let base :=
    if Text.startsWith base "/" then
      Text.trimEndMatches (· = '/') base
    else
      "/" ++ Text.trimMatches (· = '/') base
  base ++ "/" ++ fileId

/--
The extension of a file name, or the usual one of an image type.
-/
def fileExtension (fileName mimeType : String) : String :=
  (Text.afterLast '.' fileName).getD <|
    match mimeType with
    | "image/png" => "png"
    | "image/gif" => "gif"
    | "image/jpeg" => "jpg"
    | _ => "bin"

/--
Write a file under a fresh name. `none` when the upload directory is full or the write fails.
-/
def storeUploadedBytes (extension : String) (bytes : List UInt8) (mimeType : String)
    : Proto (Option StoredFile) :=
  .atom fun e s =>
    if e.uploadFails then
      (none, .quiet, s)
    else
      let extension := Text.trim extension
      let id :=
        if extension = "" then
          e.randomId
        else
          e.randomId ++ "." ++ Text.trimStartMatches (· = '.') extension
      let file : StoredFile :=
        { id, url := publicFileUrl s.uploadPublicBase id,
          size := (stripImageMetadata bytes mimeType).length, mimeType }
      (some file, .file (.stored id),
        { s with uploads := if s.uploads.contains id then s.uploads else s.uploads ++ [id] })

end Lqxp
