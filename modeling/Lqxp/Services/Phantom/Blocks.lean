import Lqxp.Data.Json
import Lqxp.Services.Phantom.Deposit

/-!
This module contains the published prekeys and the blocks: who refuses whom, kept under opaque tags.
-/

namespace Lqxp

def maxBlocksPerAccount : Nat := 512

structure PrekeyBundle where
  version : Nat
  mlkem768Pk : String
  ecdsaP256Pk : Json
  mldsa65Pk : String
  sigEcdsa : String
  sigMldsa : String
  blockFilter : List String := []
  updatedAt : Nat

/--
The tables of prekeys and of block tags, the latter with the account of each tag. A bundle is stored as
JSON, which reads back as the same bundle. `faults` tells of the statements to come which of them fail.
-/
structure PhantomTables where
  prekeys : AssocMap String PrekeyBundle := ∅
  blocks : AssocMap String String := ∅
  faults : List Bool := []

/--
The checks of the two signatures of a bundle: a key, a message and a signature. Those of the second one come decoded.
-/
structure DeviceSignatures where
  verifyEcdsaP256 : Json → List UInt8 → String → ApiResult Unit
  verifyMldsa65 : List UInt8 → List UInt8 → List UInt8 → ApiResult Unit

/--
What a service ends with whose task has panicked. It is no answer: nothing that stands behind the call is run.
-/
def ApiError.panicked : ApiError := { statusCode := 0, message := "" }

abbrev Tabled (α : Type) := EStateM ApiError PhantomTables α

def Tabled.ofResult {α : Type} : ApiResult α → Tabled α
  | .ok a => pure a
  | .error err => throw err

section Database

/--
One statement of the database; one that fails changes nothing.
-/
def tableStatement {α : Type} (query : PhantomTables → α × PhantomTables) : Tabled α := fun s =>
  let rest := { s with faults := s.faults.tail }
  if s.faults.head? = some true then
    .error .internal rest
  else
    .ok (query rest).1 (query rest).2

def storePrekey (userId : String) (bundle : PrekeyBundle) : Tabled Unit :=
  tableStatement fun s => ((), { s with prekeys := s.prekeys.insert userId bundle })

def getPrekeyByUserId (userId : String) : Tabled (Option PrekeyBundle) :=
  tableStatement fun s => (s.prekeys.lookup userId, s)

def PhantomTables.blockCount (s : PhantomTables) (userId : String) : Nat :=
  s.blocks.values.count userId

def countBlockTags (userId : String) : Tabled Nat := tableStatement fun s => (s.blockCount userId, s)

/--
The tag is the key of the table: one that another account has stored stays as it is.
-/
def PhantomTables.insertOrIgnore (s : PhantomTables) (userId tag : String) : PhantomTables :=
  match s.blocks.lookup tag with
  | some _ => s
  | none => { s with blocks := s.blocks.insert tag userId }

def PhantomTables.deleteTag (s : PhantomTables) (userId tag : String) : PhantomTables :=
  if s.blocks.lookup tag = some userId then { s with blocks := s.blocks.erase tag } else s

def addBlockTag (userId tag : String) : Tabled Bool := do
  if maxBlocksPerAccount ≤ (← countBlockTags userId) then
    return false
  tableStatement fun s => ((), s.insertOrIgnore userId tag)
  return true

def removeBlockTag (userId tag : String) : Tabled Unit :=
  tableStatement fun s => ((), s.deleteTag userId tag)

def listBlockTags (userId : String) : Tabled (List String) :=
  tableStatement fun s => ((s.blocks.entries.filter (·.2 = userId)).map (·.1), s)

def isBlockedTag (tag : String) : Tabled Bool :=
  tableStatement fun s => ((s.blocks.lookup tag).isSome, s)

def PhantomTables.answer (s : PhantomTables) (tag : String) : ApiResult Bool :=
  match isBlockedTag tag s with
  | .ok blocked _ => .ok blocked
  | .error err _ => .error err

end Database

section Bundle

mutual

/--
JSON without spaces and with the keys of objects in order.
-/
def canonicalJson : Json → String
  | .obj fields =>
    let parts := (canonicalFields fields).mergeSort fun a b => a.1 ≤ b.1
    "\x7b" ++ ",".intercalate (parts.map fun part => Json.renderStr part.1 ++ ":" ++ part.2) ++ "\x7d"
  | .arr items => "[" ++ ",".intercalate (canonicalItems items) ++ "]"
  | other => other.render

def canonicalItems : List Json → List String
  | [] => []
  | item :: items => canonicalJson item :: canonicalItems items

def canonicalFields : List (String × Json) → List (String × String)
  | [] => []
  | (key, value) :: fields => (key, canonicalJson value) :: canonicalFields fields

end

def canonicalPrekeyBundleBytes (bundle : PrekeyBundle) : List UInt8 :=
  utf8 <| canonicalJson <| .obj [
    ("version", .int bundle.version),
    ("mlkem768Pk", .str bundle.mlkem768Pk),
    ("ecdsaP256Pk", bundle.ecdsaP256Pk),
    ("mldsa65Pk", .str bundle.mldsa65Pk),
    ("blockFilter", .arr (bundle.blockFilter.map .str)),
    ("updatedAt", .int bundle.updatedAt)]

def decodeHex (text failure : String) : ApiResult (List UInt8) :=
  match hexDecode text with
  | .error () => .error .panicked
  | .ok none => .error (.badRequest failure)
  | .ok (some bytes) => .ok bytes

def verifyMldsa65 (v : DeviceSignatures) (pkHex : String) (msg : List UInt8) (sigHex : String) : ApiResult Unit := do
  let pk ← decodeHex pkHex "Invalid ML-DSA public key encoding."
  let sig ← decodeHex sigHex "Invalid ML-DSA signature encoding."
  v.verifyMldsa65 pk msg sig

def verifyPrekeyBundle (v : DeviceSignatures) (bundle : PrekeyBundle) : ApiResult Unit := do
  let msg := canonicalPrekeyBundleBytes bundle
  v.verifyEcdsaP256 bundle.ecdsaP256Pk msg bundle.sigEcdsa
  verifyMldsa65 v bundle.mldsa65Pk msg bundle.sigMldsa

def publishPrekey (v : DeviceSignatures) (userId : String) (bundle : PrekeyBundle) : Tabled Nat := do
  .ofResult (verifyPrekeyBundle v bundle)
  storePrekey userId bundle
  return bundle.version

end Bundle

variable (c : Crypto)

def fingerprintOf (pk : List UInt8) : String := hexEncode (c.sha256 pk).toList

def fingerprintOfMlkemHex (hex : String) : Except Unit (Option String) :=
  (hexDecode hex).map fun bytes => bytes.map (fingerprintOf c)

def ownerFingerprint (userId : String) : Tabled String := do
  match ← getPrekeyByUserId userId with
  | none => throw (.badRequest "Publish a prekey before updating blocks.")
  | some bundle =>
    match fingerprintOfMlkemHex c bundle.mlkem768Pk with
    | .error () => throw .panicked
    | .ok none => throw (.badRequest "Invalid stored prekey.")
    | .ok (some fp) => return fp

def addBlock (userId ownerFp hint : String) : Tabled Unit := do
  if !isHex64 hint then
    throw (.badRequest "Malformed block hint.")
  let _ ← addBlockTag userId (blockTag c ownerFp hint)

def removeBlock (userId ownerFp hint : String) : Tabled Unit := do
  if !isHex64 hint then
    throw (.badRequest "Malformed block hint.")
  removeBlockTag userId (blockTag c ownerFp hint)

def updateBlocks (userId : String) (add remove : List String) : Tabled (List String) := do
  let ownerFp ← ownerFingerprint c userId
  add.forM (addBlock c userId ownerFp)
  remove.forM (removeBlock c userId ownerFp)
  listBlockTags userId

end Lqxp
