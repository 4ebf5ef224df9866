import Lqxp.Websocket.Node

/-!
This module contains the directory of the prekeys: the operations that publish bundles, fetch those of others and
change the blocks.
-/

namespace Lqxp

section PrekeyBundle

def PrekeyBundle.toJson (bundle : PrekeyBundle) : Json :=
  .obj [("version", .int bundle.version), ("mlkem768Pk", .str bundle.mlkem768Pk),
    ("ecdsaP256Pk", bundle.ecdsaP256Pk), ("mldsa65Pk", .str bundle.mldsa65Pk),
    ("sigEcdsa", .str bundle.sigEcdsa), ("sigMldsa", .str bundle.sigMldsa),
    ("blockFilter", .arr (bundle.blockFilter.map .str)), ("updatedAt", .int bundle.updatedAt)]

def Json.asU32? (value : Json) : Option Nat := value.asU64?.filter (· < 2 ^ 32)

def Json.asStrings? : Json → Option (List String)
  | .arr elems => elems.mapM Json.asStr?
  | _ => none

/--
The fields of a bundle under their names, or in order.
-/
def bundleField (d : Json) (i : Nat) (key : String) : Option Json :=
  match d with
  | .obj fields => fields.lookup key
  | .arr elems => if elems.length = 8 then elems[i]? else none
  | _ => none

/--
The block filter is the only field that may be missing.
-/
def parsePrekeyBundle (d : Json) : Option PrekeyBundle := do
  let version ← (bundleField d 0 "version").bind Json.asU32?
  let mlkem768Pk ← (bundleField d 1 "mlkem768Pk").bind Json.asStr?
  let ecdsaP256Pk ← bundleField d 2 "ecdsaP256Pk"
  let mldsa65Pk ← (bundleField d 3 "mldsa65Pk").bind Json.asStr?
  let sigEcdsa ← (bundleField d 4 "sigEcdsa").bind Json.asStr?
  let sigMldsa ← (bundleField d 5 "sigMldsa").bind Json.asStr?
  let blockFilter ← (bundleField d 6 "blockFilter").elim (some []) Json.asStrings?
  let updatedAt ← (bundleField d 7 "updatedAt").bind Json.asU64?
  return { version, mlkem768Pk, ecdsaP256Pk, mldsa65Pk, sigEcdsa, sigMldsa, blockFilter, updatedAt }

end PrekeyBundle

namespace Phantom

/--
The account of a session. Its name does not matter here.
-/
def sessionUserId (sid : String) : Proto (Option String) := do
  let player ← getPlayer sid
  return (player.filter fun player => Text.trim player.userId ≠ "").map (·.userId)

/--
Answer with what a service gives, or with one text for all of its errors.
-/
def answerOp (sid : String) (op : Nat) (failure : String) (reqId : Option String)
    : ApiResult (List (String × Json)) → Node Bool
  | .ok d => do
    onSocket sid (respondToSender sid (withRequestId (message op d) reqId))
    return false
  | .error _ => onSocket sid (respondError sid op failure reqId)

def hasPanicked : ApiResult α → Bool
  | .ok _ => false
  | .error err => err = .panicked

/--
Answer with what a service gives, unless it has panicked.
-/
def settleOp (sid : String) (op : Nat) (failure : String) (reqId : Option String)
    (answer : ApiResult (List (String × Json))) : Node Outcome :=
  if hasPanicked answer then
    return .panics
  else
    outcomeOf (answerOp sid op failure reqId answer)

section Publish

variable (v : DeviceSignatures)

def publishPrekeyOp (sid : String) (d : Json) : Node Outcome := do
  let reqId := requestId d
  let some userId ← onSocket sid (sessionUserId sid)
    | outcomeOf (onSocket sid (respondError sid 36 "You need to be identified before" reqId))
  let some bundle := parsePrekeyBundle d
    | outcomeOf (onSocket sid (respondError sid 36 "Malformed prekey bundle" reqId))
  let answer ← (onTables (publishPrekey v userId bundle)).run
  settleOp sid 36 "Prekey publish failed" reqId <|
    answer.map fun version => [("ok", .bool true), ("version", .int version)]

end Publish

section Fetch

variable (x : Externals)

def getPrekeyByUsername (username : String) : NodeApi (Option PrekeyBundle) := do
  match ← (ExceptT.mk (onProfiles (onApi (findUserByUsername x username)).run) : NodeApi _) with
  | some account => onTables (getPrekeyByUserId account.user.id)
  | none => return none

/--
The bundle of a user, over HTTP. All such requests share one budget.
-/
def fetchPrekey (username : String) : NodeApi (Option PrekeyBundle) := do
  if ← ExceptT.lift (onProfiles (onSession none (hitRateLimit "phantom:prekey:global" 60 60000))) then
    throw (.tooManyRequests "Prekey lookup rate limit exceeded.")
  else
    getPrekeyByUsername x username

/--
The bundles of those users that have published one, under the names that were asked for.
-/
def fetchPrekeys : List String → Json → NodeApi Json
  | [], bundles => return bundles
  | username :: usernames, bundles => do
    match ← getPrekeyByUsername x username with
    | some bundle => fetchPrekeys usernames (bundles.insert username bundle.toJson)
    | none => fetchPrekeys usernames bundles

def fetchUsernames (d : Json) : List String :=
  match d.get? "usernames" with
  | some (.arr items) => (((items.take 8).filterMap Json.asStr?).map Text.trim).filter (· ≠ "")
  | _ => []

def fetchPrekeyOp (sid : String) (d : Json) : Node Bool := do
  let reqId := requestId d
  let some userId ← onSocket sid (sessionUserId sid)
    | onSocket sid (respondError sid 37 "You need to be identified before" reqId)
  let usernames := fetchUsernames d
  if usernames = [] then
    onSocket sid (respondError sid 37 "Missing usernames" reqId)
  else if ← onSocket sid (hitRateLimit ("prekey-fetch:user:" ++ userId) 4 15000) then
    onSocket sid (respondError sid 37 "Rate limit exceeded" reqId)
  else do
  let answer ← (fetchPrekeys x usernames (.obj [])).run
  answerOp sid 37 "Prekey fetch failed" reqId (answer.map fun bundles => [("bundles", bundles)])

end Fetch

section Blocks

variable (c : Crypto)

def stringArrayField (d : Json) (key : String) : List String :=
  match d.get? key with
  | some (.arr items) =>
    (((items.take 64).filterMap Json.asStr?).map fun item => Text.takeChars 128 (Text.trim item)).filter (· ≠ "")
  | _ => []

/--
Store a tag, unless the account has as many as it may have. The count is a statement of its own.
-/
def addTag (userId tag : String) : NodeApi Unit := do
  if maxBlocksPerAccount ≤ (← onTables (countBlockTags userId)) then
    return ()
  else
    onTables (tableStatement fun s => ((), s.insertOrIgnore userId tag))

def addHints (userId ownerFp : String) : List String → NodeApi Unit
  | [] => return ()
  | hint :: hints =>
    if !isHex64 hint then
      throw (.badRequest "Malformed block hint.")
    else do
      addTag userId (blockTag c ownerFp hint)
      addHints userId ownerFp hints

def removeHints (userId ownerFp : String) : List String → NodeApi Unit
  | [] => return ()
  | hint :: hints =>
    if !isHex64 hint then
      throw (.badRequest "Malformed block hint.")
    else do
      onTables (removeBlockTag userId (blockTag c ownerFp hint))
      removeHints userId ownerFp hints

/--
The update of the blocks of an account, each statement on its own: others may come in between.
-/
def updateBlocks (userId : String) (add remove : List String) : NodeApi (List String) := do
  let ownerFp ← onTables (ownerFingerprint c userId)
  addHints c userId ownerFp add
  removeHints c userId ownerFp remove
  onTables (listBlockTags userId)

def blockUpdateOp (sid : String) (d : Json) : Node Outcome := do
  let reqId := requestId d
  let some userId ← onSocket sid (sessionUserId sid)
    | outcomeOf (onSocket sid (respondError sid 39 "You need to be identified before" reqId))
  let add := stringArrayField d "add"
  let remove := stringArrayField d "remove"
  if add = [] && remove = [] then
    outcomeOf (onSocket sid (respondError sid 39 "Nothing to update" reqId))
  else do
  let answer ← (updateBlocks c userId add remove).run
  settleOp sid 39 "Block update failed" reqId <|
    answer.map fun filter => [("filter", .arr (filter.map .str))]

end Blocks

end Phantom

end Lqxp
