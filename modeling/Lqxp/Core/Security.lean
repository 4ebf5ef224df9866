import Lqxp.Data.AssocMap
import Lqxp.Data.Text

/-!
This module contains the fixed window rate limiter and the normalization of file names.
-/

namespace Lqxp

structure RateLimitBucket where
  windowStartMs : Nat
  windowMs : Nat
  count : Nat
  deriving DecidableEq

/--
Count a hit on `key` at time `now`, and tell whether it is over the limit.
-/
def rateLimitHit (now : Nat) (key : String) (limit windowMs : Nat)
    (buckets : AssocMap String RateLimitBucket) : Bool × AssocMap String RateLimitBucket :=
  let buckets :=
    if 5000 < buckets.size then
      buckets.retain fun _ bucket => now - bucket.windowStartMs ≤ bucket.windowMs
    else
      buckets
  let fresh : RateLimitBucket := { windowStartMs := now, windowMs := windowMs, count := 0 }
  let bucket := (buckets.lookup key).getD fresh
  let bucket := if windowMs < now - bucket.windowStartMs then fresh else bucket
  let bucket := { bucket with count := min (bucket.count + 1) (2 ^ 32 - 1) }
  (limit < bucket.count, buckets.insert key bucket)

def isReservedFilenameChar (c : Char) : Bool :=
  Text.isControl c || ['/', '\\', ':', '*', '?', '"', '<', '>', '|'].contains c

def sanitizeFilename (value fallback : String) (maxLen : Nat) : String :=
  let sanitized := String.ofList <|
    (Text.trim value).toList.map fun c => if isReservedFilenameChar c then '_' else c
  let sanitized := Text.trim (Text.trimMatches (· = '.') sanitized)
  Text.takeChars maxLen (if sanitized = "" then fallback else sanitized)

end Lqxp
