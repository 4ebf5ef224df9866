import Lqxp.Core.Result

/-!
This module contains the checks on usernames and passwords, and what the server takes from the libraries
and the database engine to make them.
-/

namespace Lqxp

/--
What is not the server's own: the hashing of secrets, the case and classes of Unicode characters, and the
text functions of the database engine.
-/
structure Externals where
  /-- The hash of a secret under a salt. -/
  hashSecret : String → String → String
  verifySecret : String → String → Bool
  toLowercase : String → String
  isAlphanumeric : Char → Bool
  sqlLower : String → String
  /-- Whether a text matches a pattern, with the backslash as escape. -/
  sqlLike : String → String → Bool
  blocklistTerms : List String

variable (x : Externals)

def usernameMin : Nat := 2

def usernameMax : Nat := 32

def usernameRegisterMax : Nat := 24

def passwordMin : Nat := 8

def passwordMax : Nat := 128

def reservedUsernames : List String :=
  ["system", "official", "official_qxchat", "qxchat", "qx_protocol", "qxprotocol", "admin",
    "administrator", "moderator", "mod", "staff", "support", "help", "helpdesk", "root", "owner", "team",
    "noreply", "no_reply", "donotreply", "welcome", "dmca", "abuse", "security", "press", "contact",
    "announce", "announcement", "server", "bot"]

def reservedUsernameSubstrings : List String := ["qxchat", "qx_protocol", "qxprotocol"]

def normalizeUsername (username : String) : String := x.toLowercase (Text.trim username)

def unleet (c : Char) : Char :=
  match c with
  | '0' => 'o'
  | '1' | '!' | '|' => 'i'
  | '3' => 'e'
  | '4' => 'a'
  | '5' | '$' => 's'
  | '7' => 't'
  | '@' => 'a'
  | other => other

def reservedUsernameKeys (username : String) : List String :=
  let lowered := (normalizeUsername x username).toList
  [String.ofList (lowered.filter x.isAlphanumeric),
    String.ofList ((lowered.map unleet).filter x.isAlphanumeric)]

def hitsReservedUsername (username : String) : Bool :=
  (reservedUsernameKeys x username).any fun key =>
    key ≠ "" && (reservedUsernames.contains key || reservedUsernameSubstrings.any (Text.contains key))

def isUsernameChar (c : Char) : Bool :=
  x.isAlphanumeric c || "_.- #@'\"()[]!?".toList.contains c

def validateUsernameWithMax (username : String) (max : Nat) : ApiResult String := do
  let normalized := normalizeUsername x username
  let charCount := normalized.toList.length
  if charCount < usernameMin || max < charCount then
    throw (.badRequest ("Username must be between " ++ toString usernameMin ++ " and " ++ toString max
      ++ " characters."))
  if hitsReservedUsername x normalized then
    throw (.badRequest "Username is reserved.")
  if !normalized.toList.all (isUsernameChar x) then
    throw (.badRequest "Username contains invalid characters.")
  return normalized

def validateUsername (username : String) : ApiResult String :=
  validateUsernameWithMax x username usernameMax

def validateRegistrationUsername (username : String) : ApiResult String :=
  validateUsernameWithMax x username usernameRegisterMax

def validatePassword (password : String) : ApiResult Unit :=
  let charCount := password.toList.length
  if charCount < passwordMin || passwordMax < charCount then
    throw (.badRequest ("Password must be between " ++ toString passwordMin ++ " and "
      ++ toString passwordMax ++ " characters."))
  else
    return ()

def usernameHitsBlocklist (username : String) : Bool :=
  let normalized := normalizeUsername x username
  x.blocklistTerms.any fun term =>
    let term := normalizeUsername x term
    term ≠ "" && Text.contains normalized term

def normalizeRecoveryPhrase (words : String) : String :=
  " ".intercalate ((Text.splitWhitespace words).map x.toLowercase)

/--
A text in which no character has a special meaning in a pattern.
-/
def escapeLikePattern (value : String) : String :=
  Text.replace '_' "\\_" (Text.replace '%' "\\%" (Text.replace '\\' "\\\\" value))

end Lqxp
