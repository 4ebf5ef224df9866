import Mathlib.Algebra.Group.Int.Defs
import Mathlib.Algebra.GroupWithZero.Nat
import Mathlib.Data.List.DropRight
import Lqxp.Data.Replacement

/-!
This module contains the string operations of the standard library that the handlers use, on strings
as sequences of Unicode scalar values, and the Base64 decoder.
-/

namespace Text

/--
The code points with the Unicode property `White_Space`.
-/
def isWhitespace (c : Char) : Bool :=
  (0x9 ≤ c.toNat && c.toNat ≤ 0xD) || (0x2000 ≤ c.toNat && c.toNat ≤ 0x200A)
    || [0x20, 0x85, 0xA0, 0x1680, 0x2028, 0x2029, 0x202F, 0x205F, 0x3000].contains c.toNat

def isControl (c : Char) : Bool := c.toNat < 0x20 || (0x7F ≤ c.toNat && c.toNat ≤ 0x9F)

def isAsciiAlphanumeric (c : Char) : Bool :=
  ('0' ≤ c && c ≤ '9') || ('a' ≤ c && c ≤ 'z') || ('A' ≤ c && c ≤ 'Z')

/--
Drop the characters that satisfy `p` from both ends.
-/
def trimMatches (p : Char → Bool) (s : String) : String :=
  String.ofList ((s.toList.dropWhile p).rdropWhile p)

def trimStartMatches (p : Char → Bool) (s : String) : String := String.ofList (s.toList.dropWhile p)

def trimEndMatches (p : Char → Bool) (s : String) : String := String.ofList (s.toList.rdropWhile p)

def trim (s : String) : String := trimMatches isWhitespace s

def takeChars (n : Nat) (s : String) : String := String.ofList (s.toList.take n)

def toAsciiLowerChar (c : Char) : Char :=
  if 'A' ≤ c && c ≤ 'Z' then Char.ofNat (c.toNat + 32) else c

def toAsciiLower (s : String) : String := String.ofList (s.toList.map toAsciiLowerChar)

def eqIgnoreAsciiCase (s t : String) : Bool := toAsciiLower s = toAsciiLower t

def startsWith (s pre : String) : Bool := pre.toList.isPrefixOf s.toList

def contains (s piece : String) : Bool := s.toList.tails.any piece.toList.isPrefixOf

/--
How many characters stand before the first occurrence of a text, if there is one.
-/
def find (s piece : String) : Option Nat := s.toList.tails.findIdx? piece.toList.isPrefixOf

/--
Write a text in place of every occurrence of a character.
-/
def replace (c : Char) (piece s : String) : String :=
  String.ofList <| s.toList.flatMap fun d => if d = c then piece.toList else [d]

/--
Write a text in place of every occurrence of another one that is not empty, from left to right.
-/
def replaceStr (pat piece s : String) : String :=
  String.ofList (Replacement.replaceAll pat.toList piece.toList s.toList)

def splitWhitespace (s : String) : List String :=
  ((s.toList.splitOnP isWhitespace).filter (· ≠ [])).map String.ofList

def len (s : String) : Nat := s.utf8ByteSize

/--
The hexadecimal digits of a number, most significant first.
-/
def hexDigits (n : Nat) : String := String.ofList (Nat.toDigits 16 n)

/--
The pieces of a text between the occurrences of a separator.
-/
def splitOn (sep : Char) (s : String) : List String := (go s.toList).map String.ofList
where
  go : List Char → List (List Char)
    | [] => [[]]
    | c :: cs =>
      match go cs with
      | [] => [[c]]
      | piece :: pieces => if c = sep then [] :: piece :: pieces else (c :: piece) :: pieces

/--
The piece behind the last occurrence of a separator, if there is one.
-/
def afterLast (sep : Char) (s : String) : Option String :=
  if s.toList.contains sep then some (String.ofList (s.toList.rtakeWhile (· ≠ sep))) else none

/--
What follows a prefix, if the text begins with it.
-/
def stripPrefix (pre s : String) : Option String :=
  if startsWith s pre then some (String.ofList (s.toList.drop pre.toList.length)) else none

/--
The pieces before and behind the first occurrence of a separator, if there is one.
-/
def splitOnce (sep : Char) (s : String) : Option (String × String) :=
  if s.toList.contains sep then
    some (String.ofList (s.toList.takeWhile (· ≠ sep)),
      String.ofList ((s.toList.dropWhile (· ≠ sep)).drop 1))
  else
    none

/--
The pieces before and behind the last occurrence of a separator, if there is one.
-/
def rsplitOnce (sep : Char) (s : String) : Option (String × String) :=
  if s.toList.contains sep then
    some (String.ofList (s.toList.rdropWhile (· ≠ sep)).dropLast,
      String.ofList (s.toList.rtakeWhile (· ≠ sep)))
  else
    none

theorem toList_replace (c : Char) (piece s : String)
    : (replace c piece s).toList = s.toList.flatMap fun d => if d = c then piece.toList else [d] :=
  String.toList_ofList

theorem toList_replaceStr (pat piece s : String)
    : (replaceStr pat piece s).toList = Replacement.replaceAll pat.toList piece.toList s.toList :=
  String.toList_ofList

theorem contains_iff_isInfix {s piece : String} : contains s piece = true ↔ piece.toList <:+: s.toList := by
  simp only [contains, List.any_eq_true, List.mem_tails, List.isPrefixOf_iff_prefix]
  rw [List.infix_iff_prefix_suffix]
  simp only [and_comm]

theorem append_ne_append {a b : String} (n : Nat) (ha : n ≤ a.toList.length) (hb : n ≤ b.toList.length)
    (h : a.toList.take n ≠ b.toList.take n) (x y : String) : a ++ x ≠ b ++ y := by
  intro heq
  have hchars : (a ++ x).toList.take n = (b ++ y).toList.take n := by rw [heq]
  rw [String.toList_append, String.toList_append, List.take_append_of_le_length ha,
    List.take_append_of_le_length hb] at hchars
  exact h hchars

end Text

namespace Base64

def digit (c : Char) : Option Nat :=
  if 'A' ≤ c && c ≤ 'Z' then some (c.toNat - 'A'.toNat)
  else if 'a' ≤ c && c ≤ 'z' then some (c.toNat - 'a'.toNat + 26)
  else if '0' ≤ c && c ≤ '9' then some (c.toNat - '0'.toNat + 52)
  else if c = '+' then some 62
  else if c = '/' then some 63
  else none

def decode (s : String) : Option (List UInt8) := go s.toList
where
  go : List Char → Option (List UInt8)
    | [] => some []
    | [a, b, '=', '='] => do
      let n := (← digit a) * 64 + (← digit b)
      if n % 16 = 0 then some [(n / 16).toUInt8] else none
    | [a, b, c, '='] => do
      let n := ((← digit a) * 64 + (← digit b)) * 64 + (← digit c)
      if n % 4 = 0 then some [(n / 1024).toUInt8, (n / 4 % 256).toUInt8] else none
    | a :: b :: c :: d :: rest => do
      let n := (((← digit a) * 64 + (← digit b)) * 64 + (← digit c)) * 64 + (← digit d)
      return (n / 65536).toUInt8 :: (n / 256 % 256).toUInt8 :: (n % 256).toUInt8 :: (← go rest)
    | _ => none

end Base64
