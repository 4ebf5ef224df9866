import Mathlib.Tactic.IntervalCases
import Lqxp.Data.JsonText

/-!
This module contains the reader of JSON texts: it reads back what the serializer writes, and it does not notice
when characters of the strings in a text are written as escapes.
-/

namespace Json

open Lqxp

/--
What reads the beginning of a text, and returns what follows.
-/
abbrev Reader (α : Type) := List Char → Option (α × List Char)

def isSpace (c : Char) : Bool := [' ', '\n', '\r', '\t'].contains c

def skipSpace (cs : List Char) : List Char := cs.dropWhile isSpace

def expect (word cs : List Char) : Option (List Char) :=
  if word.isPrefixOf cs then some (cs.drop word.length) else none

def hexDigit (c : Char) : Option Nat :=
  if '0' ≤ c && c ≤ '9' then some (c.toNat - '0'.toNat)
  else if 'a' ≤ c && c ≤ 'f' then some (c.toNat - 'a'.toNat + 10)
  else if 'A' ≤ c && c ≤ 'F' then some (c.toNat - 'A'.toNat + 10)
  else none

def readHex : Reader Nat
  | a :: b :: c :: d :: rest => do
    let n := (← hexDigit a) * 16 + (← hexDigit b)
    let n := (n * 16 + (← hexDigit c)) * 16 + (← hexDigit d)
    return (n, rest)
  | _ => none

/--
The character behind `\u`. A surrogate stands with its other half only.
-/
def readUnicode : Reader Char := fun cs => do
  let (unit, rest) ← readHex cs
  if unit < 0xD800 || 0xE000 ≤ unit then
    return (Char.ofNat unit, rest)
  if 0xDC00 ≤ unit then
    none
  let (low, rest) ← readHex (← expect ['\\', 'u'] rest)
  if low < 0xDC00 || 0xE000 ≤ low then
    none
  return (Char.ofNat (0x10000 + (unit - 0xD800) * 0x400 + (low - 0xDC00)), rest)

def simpleEscape (c : Char) : Option Char :=
  match c with
  | '"' => some '"'
  | '\\' => some '\\'
  | '/' => some '/'
  | 'b' => some (Char.ofNat 0x8)
  | 'f' => some (Char.ofNat 0xC)
  | 'n' => some '\n'
  | 'r' => some '\r'
  | 't' => some '\t'
  | _ => none

/--
The character that what is behind a backslash stands for.
-/
def readEscape : Reader Char
  | [] => none
  | c :: rest => if c = 'u' then readUnicode rest else (simpleEscape c).map (·, rest)

def readChar : Reader Char
  | [] => none
  | c :: rest => if c = '\\' then readEscape rest else if c.toNat < 0x20 then none else some (c, rest)

/--
The characters up to the quote that ends a string.
-/
def readChars : Nat → Reader (List Char)
  | 0, _ => none
  | n + 1, cs =>
    if cs.head? = some '"' then
      some ([], cs.tail)
    else do
      let (c, rest) ← readChar cs
      let (chars, rest) ← readChars n rest
      return (c :: chars, rest)

def isWhole (digits : List Char) : Bool :=
  digits ≠ [] && digits.all Char.isDigit && (digits.head? ≠ some '0' || digits = ['0'])

def isExponent : List Char → Bool
  | [] => false
  | c :: rest =>
    let digits := if rest.head? = some '+' || rest.head? = some '-' then rest.tail else rest
    (c = 'e' || c = 'E') && digits ≠ [] && digits.all Char.isDigit

/--
Whether a text is a fraction, an exponent, or the first with the second.
-/
def isFraction : List Char → Bool
  | [] => false
  | c :: rest =>
    if c = '.' then
      rest.takeWhile Char.isDigit ≠ []
        && (rest.dropWhile Char.isDigit = [] || isExponent (rest.dropWhile Char.isDigit))
    else
      isExponent (c :: rest)

def unsigned (word : List Char) : List Char := if word.head? = some '-' then word.tail else word

def isFloat (word : List Char) : Bool :=
  isWhole ((unsigned word).takeWhile Char.isDigit) && isFraction ((unsigned word).dropWhile Char.isDigit)

def intOf (word : List Char) : Int :=
  if word.head? = some '-' then -(Nat.ofDigitChars 10 word.tail 0 : Int) else Nat.ofDigitChars 10 word 0

def numberOf (word : List Char) : Option Json :=
  if isWhole (unsigned word) then some (.int (intOf word))
  else if isFloat word then some (.float (String.ofList word))
  else none

def readNumber : Reader Json := fun cs =>
  (numberOf (cs.takeWhile isNumberChar)).map (·, cs.dropWhile isNumberChar)

/--
The values between commas, up to the bracket that ends them.
-/
def readSequence (one : Reader α) (close : Char) : Nat → Reader (List α)
  | 0, _ => none
  | n + 1, cs => do
    let (item, rest) ← one cs
    match expect [','] (skipSpace rest) with
    | some rest =>
      let (items, rest) ← readSequence one close n rest
      return (item :: items, rest)
    | none => return ([item], ← expect [close] (skipSpace rest))

def readList (one : Reader α) (close : Char) (n : Nat) : Reader (List α) := fun cs =>
  match expect [close] (skipSpace cs) with
  | some rest => some ([], rest)
  | none => readSequence one close n cs

def readField (one : Reader Json) (n : Nat) : Reader (String × Json) := fun cs => do
  let (key, rest) ← readChars n (← expect ['"'] (skipSpace cs))
  let (value, rest) ← one (← expect [':'] (skipSpace rest))
  return ((String.ofList key, value), rest)

/--
Read a value, with no more than `n` levels of nesting and `n` characters or values on each of them.
-/
def readValue : Nat → Reader Json
  | 0 => fun _ => none
  | n + 1 => fun cs =>
    let cs := skipSpace cs
    match cs.head? with
    | some '"' => (readChars n cs.tail).map fun (chars, rest) => (.str (String.ofList chars), rest)
    | some '[' => (readList (readValue n) ']' n cs.tail).map fun (items, rest) => (.arr items, rest)
    | some '{' => (readList (readField (readValue n) n) '}' n cs.tail).map fun (fields, rest) => (.obj fields, rest)
    | some 'n' => (expect "null".toList cs).map (.null, ·)
    | some 't' => (expect "true".toList cs).map (.bool true, ·)
    | some 'f' => (expect "false".toList cs).map (.bool false, ·)
    | _ => readNumber cs

/--
The value that a text is read as, if it is the text of one value.
-/
def parse (text : String) : Option Json :=
  match readValue text.toList.length text.toList with
  | some (value, rest) => if skipSpace rest = [] then some value else none
  | none => none

section Words

theorem expect_eq_some_iff {word cs rest : List Char} : expect word cs = some rest ↔ cs = word ++ rest := by
  unfold expect
  split
  next hbegins =>
    obtain ⟨tail, rfl⟩ := List.isPrefixOf_iff_prefix.1 hbegins
    rw [List.drop_left, Option.some.injEq, List.append_cancel_left_eq]
  next hbegins =>
    simp only [reduceCtorEq, false_iff]
    rintro rfl
    exact hbegins (List.isPrefixOf_iff_prefix.2 (List.prefix_append word rest))

theorem expect_append (word rest : List Char) : expect word (word ++ rest) = some rest :=
  expect_eq_some_iff.2 rfl

theorem expect_singleton_of_ne {c d : Char} (h : c ≠ d) (rest : List Char) : expect [c] (d :: rest) = none := by
  simp [expect, h]

theorem skipSpace_cons {c : Char} (h : isSpace c = false) (rest : List Char) : skipSpace (c :: rest) = c :: rest :=
  List.dropWhile_cons_of_neg (by simp [h])

end Words

section Escapes

/--
A reader that takes a word whatever follows, and no words but those with characters of `p`.
-/
def Reader.Takes (p : Char → Bool) (r : Reader α) : Prop :=
  ∀ cs a rest, r cs = some (a, rest) →
    ∃ word, cs = word ++ rest ∧ (∀ c ∈ word, p c) ∧ ∀ rest', r (word ++ rest') = some (a, rest')

def isEscapeChar (c : Char) : Bool := (hexDigit c).isSome || ['u', '\\', '"', '/', 'b', 'f', 'n', 'r', 't'].contains c

theorem takes_readHex : readHex.Takes isEscapeChar := by
  intro cs n rest h
  obtain ⟨a, b, c, d, rest', rfl⟩ : ∃ a b c d rest', cs = a :: b :: c :: d :: rest' := by
    unfold readHex at h
    split at h
    . exact ⟨_, _, _, _, _, rfl⟩
    . contradiction
  simp only [readHex, Option.bind_eq_bind, Option.bind_eq_some_iff, Option.pure_def, Option.some.injEq,
    Prod.mk.injEq] at h
  obtain ⟨x, hx, y, hy, z, hz, w, hw, hn, rfl⟩ := h
  refine ⟨[a, b, c, d], rfl, ?_, fun rest' => ?_⟩
  . simp [isEscapeChar, hx, hy, hz, hw]
  . simp [readHex, hx, hy, hz, hw, hn]

theorem takes_readUnicode : readUnicode.Takes isEscapeChar := by
  intro cs c rest h
  rw [readUnicode, Option.bind_eq_bind, Option.bind_eq_some_iff] at h
  obtain ⟨⟨unit, rest₁⟩, hunit, h⟩ := h
  obtain ⟨word₁, rfl, hword₁, hread₁⟩ := takes_readHex _ _ _ hunit
  dsimp only at h
  split at h
  next hplain =>
    obtain ⟨rfl, rfl⟩ := Prod.mk.inj (Option.some.inj h)
    refine ⟨word₁, rfl, hword₁, fun rest' => ?_⟩
    rw [readUnicode, hread₁, Option.bind_eq_bind, Option.bind_some]
    exact if_pos hplain
  next hplain =>
    split at h
    . contradiction
    next hhigh =>
      simp only [Option.bind_eq_bind, Option.bind_eq_some_iff] at h
      obtain ⟨rest₂, hrest₂, ⟨low, rest₃⟩, hlow, h⟩ := h
      obtain rfl := expect_eq_some_iff.1 hrest₂
      obtain ⟨word₂, rfl, hword₂, hread₂⟩ := takes_readHex _ _ _ hlow
      split at h
      . contradiction
      next hpair =>
        obtain ⟨rfl, rfl⟩ := Prod.mk.inj (Option.some.inj h)
        refine ⟨word₁ ++ (['\\', 'u'] ++ word₂), by simp only [List.append_assoc], ?_, fun rest' => ?_⟩
        . simp only [List.mem_append]
          rintro c (hc | hc | hc)
          . exact hword₁ c hc
          . rw [List.mem_cons, List.mem_singleton] at hc
            rcases hc with rfl | rfl
            . rfl
            . rfl
          . exact hword₂ c hc
        . simp only [readUnicode, List.append_assoc, hread₁, expect_append, hread₂, Option.bind_eq_bind,
            Option.bind_some, hplain, hhigh, hpair, Bool.false_eq_true, if_false, Option.pure_def]

theorem takes_readEscape : readEscape.Takes isEscapeChar := by
  intro cs c rest h
  cases cs with
  | nil => contradiction
  | cons d cs =>
    rw [readEscape] at h
    split at h
    next hd =>
      obtain ⟨word, rfl, hword, hread⟩ := takes_readUnicode _ _ _ h
      refine ⟨d :: word, rfl, List.forall_mem_cons.2 ⟨by rw [hd]; decide, hword⟩, fun rest' => ?_⟩
      rw [List.cons_append, readEscape, if_pos hd, hread]
    next hd =>
      obtain ⟨c', hc', heq⟩ := Option.map_eq_some_iff.1 h
      obtain ⟨rfl, rfl⟩ := Prod.mk.inj heq
      refine ⟨[d], rfl, List.forall_mem_singleton.2 ?_, fun rest' => ?_⟩
      . unfold simpleEscape at hc'
        split at hc'
        all_goals first | contradiction | decide
      . rw [List.singleton_append, readEscape, if_neg hd, hc', Option.map_some]

theorem readEscape_append {cs : List Char} {c : Char} (h : readEscape cs = some (c, [])) (rest : List Char)
    : readEscape (cs ++ rest) = some (c, rest) := by
  obtain ⟨word, rfl, -, hread⟩ := takes_readEscape _ _ _ h
  rw [List.append_nil]
  exact hread rest

end Escapes

section Spellings

/--
The characters that stand outside of strings or make up escapes.
-/
def isSyntaxChar (c : Char) : Bool :=
  isEscapeChar c || isNumberChar c || isSpace c || ",:[]{}nulltruefalse".toList.contains c

/--
Another way to write the characters of the strings in a text: some of them as escapes.
-/
structure Spelling (code : Char → List Char) : Prop where
  keeps : ∀ c, isSyntaxChar c → code c = [c]
  spells : ∀ c, code c = [c] ∨ ∃ word, code c = '\\' :: word ∧ readEscape word = some (c, [])

def respell (code : Char → List Char) (cs : List Char) : List Char := cs.flatMap code

/--
A reader that reads the same in a text written the other way.
-/
def Reader.Follows (code : Char → List Char) (r r' : Reader α) : Prop :=
  ∀ cs a rest, r cs = some (a, rest) → r' (respell code cs) = some (a, respell code rest)

variable {code : Char → List Char}

namespace Spelling

theorem respell_append (cs cs' : List Char) : respell code (cs ++ cs') = respell code cs ++ respell code cs' :=
  List.flatMap_append

variable (hcode : Spelling code)
include hcode

theorem respell_cons {c : Char} (hc : isSyntaxChar c) (cs : List Char) : respell code (c :: cs) = c :: respell code cs := by
  rw [respell, List.flatMap_cons, hcode.keeps c hc]
  rfl

theorem respell_word {word : List Char} (h : ∀ c ∈ word, isSyntaxChar c) : respell code word = word := by
  induction word with
  | nil => rfl
  | cons c word ih =>
    obtain ⟨hc, hword⟩ := List.forall_mem_cons.1 h
    rw [hcode.respell_cons hc, ih hword]

theorem exists_cons (c : Char) (cs : List Char)
    : ∃ d ds, respell code (c :: cs) = d :: ds ∧ (d = c ∧ ds = respell code cs ∨ d = '\\' ∧ ¬ isSyntaxChar c) := by
  rw [respell, List.flatMap_cons]
  rcases hcode.spells c with hc | ⟨word, hc, -⟩
  . rw [hc]
    exact ⟨_, _, rfl, .inl ⟨rfl, rfl⟩⟩
  . by_cases hsyntax : isSyntaxChar c
    . rw [hcode.keeps c hsyntax]
      exact ⟨_, _, rfl, .inl ⟨rfl, rfl⟩⟩
    . rw [hc]
      exact ⟨_, _, rfl, .inr ⟨rfl, hsyntax⟩⟩

theorem length_le (cs : List Char) : cs.length ≤ (respell code cs).length := by
  induction cs with
  | nil => exact Nat.zero_le _
  | cons c cs ih =>
    have hne : 0 < (code c).length := by
      rcases hcode.spells c with hc | ⟨word, hc, -⟩
      . simp [hc]
      . simp [hc]
    rw [respell, List.flatMap_cons, List.length_append, List.length_cons]
    rw [respell] at ih
    omega

theorem dropWhile_respell {p : Char → Bool} (hp : ∀ c, p c → isSyntaxChar c) (hslash : p '\\' = false) (cs : List Char)
    : (respell code cs).dropWhile p = respell code (cs.dropWhile p) := by
  induction cs with
  | nil => rfl
  | cons c cs ih =>
    by_cases hc : p c
    . rw [hcode.respell_cons (hp c hc), List.dropWhile_cons_of_pos hc, List.dropWhile_cons_of_pos hc, ih]
    . obtain ⟨d, ds, heq, hd⟩ := hcode.exists_cons c cs
      rw [List.dropWhile_cons_of_neg hc, heq, List.dropWhile_cons_of_neg]
      rcases hd with ⟨rfl, -⟩ | ⟨rfl, -⟩
      . exact hc
      . simp [hslash]

theorem takeWhile_respell {p : Char → Bool} (hp : ∀ c, p c → isSyntaxChar c) (hslash : p '\\' = false) (cs : List Char)
    : (respell code cs).takeWhile p = cs.takeWhile p := by
  induction cs with
  | nil => rfl
  | cons c cs ih =>
    by_cases hc : p c
    . rw [hcode.respell_cons (hp c hc), List.takeWhile_cons_of_pos hc, List.takeWhile_cons_of_pos hc, ih]
    . obtain ⟨d, ds, heq, hd⟩ := hcode.exists_cons c cs
      rw [List.takeWhile_cons_of_neg hc, heq, List.takeWhile_cons_of_neg]
      rcases hd with ⟨rfl, -⟩ | ⟨rfl, -⟩
      . exact hc
      . simp [hslash]

theorem skipSpace_respell (cs : List Char) : skipSpace (respell code cs) = respell code (skipSpace cs) :=
  hcode.dropWhile_respell (fun c hc => by simp [isSyntaxChar, hc]) (by decide) cs

theorem head_respell {c : Char} (hc : isSyntaxChar c) (hslash : c ≠ '\\') (cs : List Char)
    : (respell code cs).head? = some c ↔ cs.head? = some c := by
  cases cs with
  | nil => rfl
  | cons b cs =>
    obtain ⟨d, ds, heq, hd⟩ := hcode.exists_cons b cs
    rw [heq, List.head?_cons, List.head?_cons, Option.some.injEq, Option.some.injEq]
    rcases hd with ⟨rfl, -⟩ | ⟨rfl, hb⟩
    . rfl
    . refine ⟨fun h => absurd h.symm hslash, ?_⟩
      rintro rfl
      exact absurd hc hb

theorem expect_respell {word : List Char} (hword : word.all fun c => isSyntaxChar c && c != '\\') (cs : List Char)
    : expect word (respell code cs) = (expect word cs).map (respell code) := by
  induction word generalizing cs with
  | nil => simp [expect]
  | cons c word ih =>
    simp only [List.all_cons, Bool.and_eq_true, bne_iff_ne] at hword
    obtain ⟨⟨hc, hslash⟩, hword⟩ := hword
    have hstep (cs : List Char) : expect (c :: word) cs = if cs.head? = some c then expect word cs.tail else none := by
      cases cs with
      | nil => simp [expect]
      | cons d ds =>
        by_cases hcd : c = d
        . simp [expect, hcd]
        . simp [expect, hcd, Ne.symm hcd]
    rw [hstep, hstep]
    by_cases hhead : cs.head? = some c
    . obtain ⟨ds, rfl⟩ : ∃ ds, cs = c :: ds := by
        cases cs with
        | nil => contradiction
        | cons d ds => exact ⟨ds, by rw [Option.some.inj hhead]⟩
      rw [if_pos hhead, if_pos ((hcode.head_respell hc hslash _).2 hhead), hcode.respell_cons hc, List.tail_cons,
        List.tail_cons, ih hword]
    . rw [if_neg hhead, if_neg fun h => hhead ((hcode.head_respell hc hslash _).1 h)]
      rfl

theorem follows_readEscape : readEscape.Follows code readEscape := by
  intro cs c rest h
  obtain ⟨word, rfl, hword, hread⟩ := takes_readEscape _ _ _ h
  rw [respell_append, hcode.respell_word fun c hc => by simp [isSyntaxChar, hword c hc]]
  exact hread _

theorem follows_readChar : readChar.Follows code readChar := by
  intro cs c rest h
  cases cs with
  | nil => contradiction
  | cons d cs =>
    rw [readChar] at h
    split at h
    next hd =>
      rw [hcode.respell_cons (by rw [hd]; decide), readChar, if_pos hd]
      exact hcode.follows_readEscape _ _ _ h
    next hd =>
      split at h
      . contradiction
      next hcontrol =>
        obtain ⟨rfl, rfl⟩ := Prod.mk.inj (Option.some.inj h)
        rw [respell, List.flatMap_cons]
        rcases hcode.spells d with hcoded | ⟨word, hcoded, hread⟩
        . rw [hcoded, List.singleton_append, readChar, if_neg hd, if_neg hcontrol, respell]
        . rw [hcoded, List.cons_append, readChar, if_pos rfl, readEscape_append hread, respell]

theorem follows_readChars {n n' : Nat} (hn : n ≤ n') : (readChars n).Follows code (readChars n') := by
  induction n generalizing n' with
  | zero => exact fun cs chars rest h => nomatch h
  | succ n ih =>
    obtain ⟨n', rfl⟩ := Nat.exists_eq_succ_of_ne_zero (Nat.ne_of_gt (Nat.lt_of_lt_of_le n.succ_pos hn))
    intro cs chars rest h
    have hquote := hcode.head_respell (c := '"') (by decide) (by decide) cs
    rw [readChars] at h ⊢
    split at h
    next hhead =>
      obtain ⟨ds, rfl⟩ : ∃ ds, cs = '"' :: ds := List.head?_eq_some_iff.1 hhead
      obtain ⟨rfl, rfl⟩ := Prod.mk.inj (Option.some.inj h)
      rw [if_pos (hquote.2 hhead), hcode.respell_cons (by decide), List.tail_cons, List.tail_cons]
    next hhead =>
      rw [if_neg fun heq => hhead (hquote.1 heq)]
      simp only [Option.bind_eq_bind, Option.bind_eq_some_iff] at h
      obtain ⟨⟨c, rest₁⟩, hc, ⟨chars, rest₂⟩, hchars, h⟩ := h
      obtain ⟨rfl, rfl⟩ := Prod.mk.inj (Option.some.inj h)
      simp only [hcode.follows_readChar _ _ _ hc, ih (Nat.le_of_succ_le_succ hn) _ _ _ hchars, Option.bind_eq_bind,
        Option.bind_some, Option.pure_def]

theorem follows_readNumber : readNumber.Follows code readNumber := by
  have hsyntax (c : Char) (hc : isNumberChar c) : isSyntaxChar c := by simp [isSyntaxChar, hc]
  intro cs value rest h
  obtain ⟨value', hvalue, heq⟩ := Option.map_eq_some_iff.1 h
  obtain ⟨rfl, rfl⟩ := Prod.mk.inj heq
  rw [readNumber, hcode.takeWhile_respell hsyntax (by decide), hcode.dropWhile_respell hsyntax (by decide), hvalue,
    Option.map_some]

variable {one one' : Reader α} {close : Char}

theorem expect_skipSpace {c : Char} (hc : isSyntaxChar c) (hslash : c ≠ '\\') (cs : List Char)
    : expect [c] (skipSpace (respell code cs)) = (expect [c] (skipSpace cs)).map (respell code) := by
  rw [hcode.skipSpace_respell, hcode.expect_respell]
  simp [hc, hslash]

theorem follows_readSequence (hone : one.Follows code one') (hclose : isSyntaxChar close) (hslash : close ≠ '\\')
    {n n' : Nat} (hn : n ≤ n') : (readSequence one close n).Follows code (readSequence one' close n') := by
  induction n generalizing n' with
  | zero => exact fun cs items rest h => nomatch h
  | succ n ih =>
    obtain ⟨n', rfl⟩ := Nat.exists_eq_succ_of_ne_zero (Nat.ne_of_gt (Nat.lt_of_lt_of_le n.succ_pos hn))
    intro cs items rest h
    rw [readSequence, Option.bind_eq_bind, Option.bind_eq_some_iff] at h
    obtain ⟨⟨item, rest₁⟩, hitem, h⟩ := h
    rw [readSequence, hone _ _ _ hitem, Option.bind_eq_bind, Option.bind_some]
    dsimp only at h ⊢
    rw [hcode.expect_skipSpace (by decide) (by decide)]
    split at h
    next rest₂ hcomma =>
      simp only [Option.bind_eq_bind, Option.bind_eq_some_iff] at h
      obtain ⟨⟨items, rest₃⟩, hitems, h⟩ := h
      obtain ⟨rfl, rfl⟩ := Prod.mk.inj (Option.some.inj h)
      simp only [hcomma, Option.map_some, ih (Nat.le_of_succ_le_succ hn) _ _ _ hitems, Option.bind_eq_bind,
        Option.bind_some, Option.pure_def]
    next hcomma =>
      simp only [Option.bind_eq_bind, Option.bind_eq_some_iff] at h
      obtain ⟨rest₃, hend, h⟩ := h
      obtain ⟨rfl, rfl⟩ := Prod.mk.inj (Option.some.inj h)
      simp only [hcomma, Option.map_none, hcode.expect_skipSpace hclose hslash, hend, Option.map_some,
        Option.bind_eq_bind, Option.bind_some, Option.pure_def]

theorem follows_readList (hone : one.Follows code one') (hclose : isSyntaxChar close) (hslash : close ≠ '\\')
    {n n' : Nat} (hn : n ≤ n') : (readList one close n).Follows code (readList one' close n') := by
  intro cs items rest h
  rw [readList] at h ⊢
  rw [hcode.expect_skipSpace hclose hslash]
  split at h
  next rest₁ hend =>
    obtain ⟨rfl, rfl⟩ := Prod.mk.inj (Option.some.inj h)
    rw [hend, Option.map_some]
  next hend =>
    rw [hend, Option.map_none]
    exact hcode.follows_readSequence hone hclose hslash hn _ _ _ h

theorem follows_readField {one one' : Reader Json} (hone : one.Follows code one') {n n' : Nat} (hn : n ≤ n')
    : (readField one n).Follows code (readField one' n') := by
  rintro cs field rest h
  simp only [readField, Option.bind_eq_bind, Option.bind_eq_some_iff] at h
  obtain ⟨rest₁, hquote, ⟨key, rest₂⟩, hkey, rest₃, hcolon, ⟨value, rest₄⟩, hvalue, h⟩ := h
  obtain ⟨rfl, rfl⟩ := Prod.mk.inj (Option.some.inj h)
  simp only [readField, hcode.expect_skipSpace (c := '"') (by decide) (by decide), hquote,
    hcode.follows_readChars hn _ _ _ hkey, hcode.expect_skipSpace (c := ':') (by decide) (by decide), hcolon,
    hone _ _ _ hvalue, Option.map_some, Option.bind_eq_bind, Option.bind_some, Option.pure_def]

theorem follows_word {word : List Char} (hword : word.all fun c => isSyntaxChar c && c != '\\') (value : Json)
    : Reader.Follows code (fun cs => (expect word cs).map (value, ·)) (fun cs => (expect word cs).map (value, ·)) := by
  intro cs value' rest h
  obtain ⟨rest', hrest, heq⟩ := Option.map_eq_some_iff.1 h
  obtain ⟨rfl, rfl⟩ := Prod.mk.inj heq
  simp only [hcode.expect_respell hword, hrest, Option.map_some]

theorem follows_tail {r r' : Reader α} (h : r.Follows code r') (f : α → Json) {c : Char} (hc : isSyntaxChar c)
    {cs rest : List Char} {value : Json} (hhead : cs.head? = some c)
    (hread : ((r cs.tail).map fun (a, rest) => (f a, rest)) = some (value, rest))
    : ((r' (respell code cs).tail).map fun (a, rest) => (f a, rest)) = some (value, respell code rest) := by
  obtain ⟨ds, rfl⟩ := List.head?_eq_some_iff.1 hhead
  obtain ⟨⟨a, rest'⟩, ha, heq⟩ := Option.map_eq_some_iff.1 hread
  obtain ⟨rfl, rfl⟩ := Prod.mk.inj heq
  have hread' : r' (respell code ds) = some (a, respell code rest') := h _ _ _ ha
  rw [hcode.respell_cons hc, List.tail_cons, hread', Option.map_some]

theorem follows_readValue {n n' : Nat} (hn : n ≤ n') : (readValue n).Follows code (readValue n') := by
  induction n generalizing n' with
  | zero => exact fun cs value rest h => nomatch h
  | succ n ih =>
    obtain ⟨n', rfl⟩ := Nat.exists_eq_succ_of_ne_zero (Nat.ne_of_gt (Nat.lt_of_lt_of_le n.succ_pos hn))
    have hn := Nat.le_of_succ_le_succ hn
    intro cs value rest h
    have hhead {c : Char} (hc : isSyntaxChar c) (hslash : c ≠ '\\') (h : (skipSpace cs).head? = some c)
        : (respell code (skipSpace cs)).head? = some c := (hcode.head_respell hc hslash _).2 h
    simp only [readValue, hcode.skipSpace_respell] at h ⊢
    split at h
    next hc =>
      rw [hhead (by decide) (by decide) hc]
      exact hcode.follows_tail (hcode.follows_readChars hn) (fun chars => .str (String.ofList chars)) (by decide) hc h
    next hc =>
      rw [hhead (by decide) (by decide) hc]
      exact hcode.follows_tail (hcode.follows_readList (ih hn) (by decide) (by decide) hn) .arr (by decide) hc h
    next hc =>
      rw [hhead (by decide) (by decide) hc]
      exact hcode.follows_tail (hcode.follows_readList (hcode.follows_readField (ih hn) hn) (by decide) (by decide) hn)
        .obj (by decide) hc h
    next hc =>
      rw [hhead (by decide) (by decide) hc]
      exact hcode.follows_word (by decide) .null _ _ _ h
    next hc =>
      rw [hhead (by decide) (by decide) hc]
      exact hcode.follows_word (by decide) (.bool true) _ _ _ h
    next hc =>
      rw [hhead (by decide) (by decide) hc]
      exact hcode.follows_word (by decide) (.bool false) _ _ _ h
    next hquote hlist hobject hnull htrue hfalse =>
      have hread := hcode.follows_readNumber _ _ _ h
      split
      next hc => exact absurd ((hcode.head_respell (by decide) (by decide) _).1 hc) hquote
      next hc => exact absurd ((hcode.head_respell (by decide) (by decide) _).1 hc) hlist
      next hc => exact absurd ((hcode.head_respell (by decide) (by decide) _).1 hc) hobject
      next hc => exact absurd ((hcode.head_respell (by decide) (by decide) _).1 hc) hnull
      next hc => exact absurd ((hcode.head_respell (by decide) (by decide) _).1 hc) htrue
      next hc => exact absurd ((hcode.head_respell (by decide) (by decide) _).1 hc) hfalse
      next => exact hread

theorem parse_respell {text : String} {value : Json} (h : parse text = some value)
    : parse (String.ofList (respell code text.toList)) = some value := by
  rw [parse] at h ⊢
  split at h
  next value' rest hread =>
    split at h
    next hend =>
      obtain rfl := Option.some.inj h
      have hread := hcode.follows_readValue (hcode.length_le text.toList) _ _ _ hread
      rw [String.toList_ofList, hread]
      dsimp only
      rw [hcode.skipSpace_respell, hend]
      exact if_pos rfl
    . contradiction
  . contradiction

end Spelling

end Spellings

section Texts

/--
The values that the serializer writes: the text of a number that is no integer is one with a fraction or an
exponent.
-/
inductive Writable : Json → Prop where
  | null : Writable .null
  | bool (b : Bool) : Writable (.bool b)
  | int (n : Int) : Writable (.int n)
  | float {text : String} (hfloat : isFloat text.toList) : Writable (.float text)
  | str (s : String) : Writable (.str s)
  | arr {items : List Json} (hitems : ∀ item ∈ items, Writable item) : Writable (.arr items)
  | obj {fields : List (String × Json)} (hfields : ∀ field ∈ fields, Writable field.2) : Writable (.obj fields)

theorem renderElems_eq (items : List Json) : renderElems items = ",".intercalate (items.map render) := by
  induction items with
  | nil => rfl
  | cons item items ih =>
    cases items with
    | nil => simp [renderElems]
    | cons item' items => simp [renderElems, ih, String.intercalate_cons_cons]

theorem renderFields_eq (fields : List (String × Json)) : renderFields fields = ",".intercalate (fields.map renderField) := by
  induction fields with
  | nil => rfl
  | cons field fields ih =>
    cases fields with
    | nil => simp [renderFields]
    | cons field' fields => simp [renderFields, ih, String.intercalate_cons_cons]

theorem toList_render_arr (items : List Json)
    : (render (.arr items)).toList = '[' :: ([','].intercalate (items.map fun item => item.render.toList) ++ [']']) := by
  rw [render, renderElems_eq, String.toList_append, String.toList_append, String.toList_intercalate, List.map_map]
  rfl

theorem toList_render_obj (fields : List (String × Json))
    : (render (.obj fields)).toList
        = '{' :: ([','].intercalate (fields.map fun field => (renderField field).toList) ++ ['}']) := by
  rw [render, renderFields_eq, String.toList_append, String.toList_append, String.toList_intercalate, List.map_map]
  rfl

theorem readChar_escapeCode (c : Char) (rest : List Char) : readChar (escapeCode c ++ rest) = some (c, rest) := by
  by_cases hc : c ∈ escaped
  . have hall : (escaped.all fun c => (escapeCode c).head? = some '\\' && readEscape (escapeCode c).tail == some (c, []))
        = true := by decide +kernel
    have hread := List.all_eq_true.1 hall c hc
    rw [Bool.and_eq_true, decide_eq_true_eq, beq_iff_eq] at hread
    obtain ⟨word, hword⟩ := List.head?_eq_some_iff.1 hread.1
    rw [hword, List.tail_cons] at hread
    rw [hword, List.cons_append, readChar, if_pos rfl, readEscape_append hread.2]
  . rw [escapeCode_of_not_mem hc, List.singleton_append, readChar, if_neg, if_neg]
    . intro hcontrol
      refine hc (.tail _ (.tail _ (List.mem_map.2 ⟨c.toNat, List.mem_range.2 hcontrol, Char.ofNat_toNat c⟩)))
    . rintro rfl
      exact hc (.tail _ (.head _))

theorem readChars_flatMap {chars : List Char} {n : Nat} (hn : chars.length < n) (rest : List Char)
    : readChars n (chars.flatMap escapeCode ++ '"' :: rest) = some (chars, rest) := by
  induction chars generalizing n with
  | nil =>
    obtain ⟨n, rfl⟩ := Nat.exists_eq_succ_of_ne_zero (Nat.ne_of_gt hn)
    rfl
  | cons c chars ih =>
    obtain ⟨n, rfl⟩ := Nat.exists_eq_succ_of_ne_zero (Nat.ne_of_gt (Nat.zero_lt_of_lt hn))
    rw [List.flatMap_cons, List.append_assoc, readChars, if_neg, readChar_escapeCode]
    . simp only [ih (Nat.lt_of_succ_lt_succ hn), Option.bind_eq_bind, Option.bind_some, Option.pure_def]
    . rcases escapeCode_cons c with ⟨-, word, hcode⟩ | ⟨hc, hcode⟩
      . simp [hcode]
      . rw [hcode, List.singleton_append, List.head?_cons, Option.some.injEq]
        rintro rfl
        exact hc (.head _)

theorem length_le_flatMap_escapeCode (chars : List Char) : chars.length ≤ (chars.flatMap escapeCode).length := by
  induction chars with
  | nil => exact Nat.zero_le _
  | cons c chars ih =>
    have hne : 0 < (escapeCode c).length := by
      rcases escapeCode_cons c with ⟨-, word, hcode⟩ | ⟨hc, hcode⟩
      . simp [hcode]
      . simp [hcode]
    rw [List.flatMap_cons, List.length_append, List.length_cons]
    omega

theorem head_toString_ne {n : Nat} (hn : 0 < n) : (toString n).toList.head? ≠ some '0' := by
  rw [Nat.toString_eq_repr, Nat.toList_repr]
  induction n using Nat.strong_induction_on with
  | _ n ih =>
    by_cases hlt : n < 10
    . rw [Nat.toDigits_of_lt_base hlt]
      interval_cases n <;> decide
    . rw [Nat.toDigits_of_base_le (by omega) (by omega), List.head?_append_of_ne_nil _ Nat.toDigits_ne_nil]
      exact ih (n / 10) (by omega) (by omega)

theorem isWhole_toString (n : Nat) : isWhole (toString n).toList := by
  have hdigits : (toString n).toList.all Char.isDigit := List.all_eq_true.2 fun c hc => Text.isDigit_of_mem_toString hc
  rw [isWhole, hdigits, Bool.and_true, Bool.and_eq_true, decide_eq_true_eq, Bool.or_eq_true, decide_eq_true_eq,
    decide_eq_true_eq]
  refine ⟨(isNumber_nat n).1, ?_⟩
  rcases Nat.eq_zero_or_pos n with rfl | hn
  . exact .inr rfl
  . exact .inl (head_toString_ne hn)

theorem numberOf_toString (n : Int) : numberOf (toString n).toList = some (.int n) := by
  have hvalue (n : Nat) : Nat.ofDigitChars 10 (toString n).toList 0 = n := by
    rw [Nat.toString_eq_repr, Nat.toList_repr, Nat.ofDigitChars_ten_toDigits]
  rw [numberOf, toList_int]
  split
  next hn =>
    have hhead : (toString n.toNat).toList.head? ≠ some '-' := by
      intro hminus
      exact Text.not_mem_toString (by decide) n.toNat (List.mem_of_mem_head? hminus)
    rw [unsigned, intOf, if_neg hhead, if_pos (isWhole_toString _), if_neg hhead, hvalue, Int.toNat_of_nonneg hn]
  next hn =>
    have hwhole := isWhole_toString (-n).toNat
    rw [unsigned, intOf, List.head?_cons, if_pos rfl, List.tail_cons, if_pos hwhole, if_pos rfl, hvalue,
      Int.toNat_of_nonneg (by omega), Int.neg_neg]

theorem isNumberChar_of_isExponent {cs : List Char} (h : isExponent cs) : ∀ c ∈ cs, isNumberChar c := by
  cases cs with
  | nil => exact fun c hc => nomatch hc
  | cons c rest =>
    simp only [isExponent, Bool.and_eq_true, Bool.or_eq_true, decide_eq_true_eq, List.all_eq_true] at h
    obtain ⟨⟨hmark, -⟩, hdigits⟩ := h
    refine List.forall_mem_cons.2 ⟨by rcases hmark with rfl | rfl <;> decide, ?_⟩
    split at hdigits
    next hsign =>
      cases rest with
      | nil => exact fun c hc => nomatch hc
      | cons sign digits =>
        refine List.forall_mem_cons.2 ⟨?_, fun c hc => isNumberChar_of_isDigit (hdigits c hc)⟩
        rw [List.head?_cons, Option.some.injEq, Option.some.injEq] at hsign
        rcases hsign with rfl | rfl <;> decide
    next => exact fun c hc => isNumberChar_of_isDigit (hdigits c hc)

theorem isNumberChar_of_isFraction {cs : List Char} (h : isFraction cs) : ∀ c ∈ cs, isNumberChar c := by
  cases cs with
  | nil => exact fun c hc => nomatch hc
  | cons c rest =>
    rw [isFraction] at h
    split at h
    next hpoint =>
      simp only [Bool.and_eq_true, Bool.or_eq_true, decide_eq_true_eq] at h
      refine List.forall_mem_cons.2 ⟨by rw [hpoint]; decide, fun d hd => ?_⟩
      rw [← List.takeWhile_append_dropWhile (p := Char.isDigit) (l := rest), List.mem_append] at hd
      rcases hd with hd | hd
      . exact isNumberChar_of_isDigit (List.mem_takeWhile_imp hd)
      . rcases h.2 with hnil | hexponent
        . rw [hnil] at hd
          contradiction
        . exact isNumberChar_of_isExponent hexponent d hd
    next => exact isNumberChar_of_isExponent h

theorem isNumber_of_isFloat {word : List Char} (h : isFloat word) : IsNumber word := by
  rw [isFloat, Bool.and_eq_true] at h
  have hdigits : ∀ c ∈ unsigned word, isNumberChar c := by
    intro c hc
    rw [← List.takeWhile_append_dropWhile (p := Char.isDigit) (l := unsigned word), List.mem_append] at hc
    rcases hc with hc | hc
    . exact isNumberChar_of_isDigit (List.mem_takeWhile_imp hc)
    . exact isNumberChar_of_isFraction h.2 c hc
  cases word with
  | nil => exact absurd h.2 (by decide)
  | cons c rest =>
    refine ⟨List.cons_ne_nil _ _, ?_⟩
    by_cases hminus : c = '-'
    . refine List.forall_mem_cons.2 ⟨by rw [hminus]; decide, ?_⟩
      rwa [unsigned, List.head?_cons, hminus, if_pos rfl, List.tail_cons] at hdigits
    . rwa [unsigned, List.head?_cons, if_neg (by simp [hminus])] at hdigits

theorem numberOf_of_isFloat {text : String} (h : isFloat text.toList) : numberOf text.toList = some (.float text) := by
  rw [numberOf, if_neg, if_pos h, String.ofList_toList]
  intro hwhole
  rw [isFloat, Bool.and_eq_true] at h
  simp only [isWhole, Bool.and_eq_true, List.all_eq_true] at hwhole
  have hnil : (unsigned text.toList).dropWhile Char.isDigit = [] := List.dropWhile_eq_nil_iff.2 hwhole.1.2
  rw [hnil] at h
  exact absurd h.2 (by decide)

theorem readNumber_append {word x : List Char} {value : Json} (hword : IsNumber word) (hx : Ends x)
    (hvalue : numberOf word = some value) : readNumber (word ++ x) = some (value, x) := by
  have hx' : x.takeWhile isNumberChar = [] ∧ x.dropWhile isNumberChar = x := by
    cases x with
    | nil => exact ⟨rfl, rfl⟩
    | cons c x =>
      have hc : ¬ isNumberChar c := by simp [hx c rfl]
      exact ⟨List.takeWhile_cons_of_neg hc, List.dropWhile_cons_of_neg hc⟩
  rw [readNumber, List.takeWhile_append_of_pos hword.2, List.dropWhile_append_of_pos hword.2, hx'.1, hx'.2,
    List.append_nil, hvalue, Option.map_some]

def isFirstChar (c : Char) : Bool := isNumberChar c || ['"', '[', '{', 'n', 't', 'f'].contains c

theorem exists_first {value : Json} (h : value.Writable) : ∃ c cs, value.render.toList = c :: cs ∧ isFirstChar c := by
  have hnumber {cs : List Char} (hcs : IsNumber cs) : ∃ c rest, cs = c :: rest ∧ isFirstChar c := by
    obtain ⟨c, rest, rfl⟩ := List.exists_cons_of_ne_nil hcs.1
    exact ⟨c, rest, rfl, by simp [isFirstChar, hcs.2 c (.head _)]⟩
  cases h with
  | null => exact ⟨_, _, rfl, by decide⟩
  | bool b =>
    cases b with
    | true => exact ⟨_, _, rfl, by decide⟩
    | false => exact ⟨_, _, rfl, by decide⟩
  | int n => exact hnumber (isNumber_int n)
  | float hfloat => exact hnumber (isNumber_of_isFloat hfloat)
  | str s => exact ⟨_, _, toList_renderStr s, by decide⟩
  | arr _ => exact ⟨_, _, toList_render_arr _, by decide⟩
  | obj _ => exact ⟨_, _, toList_render_obj _, by decide⟩

theorem not_isSpace_of_isFirstChar {c : Char} (h : isFirstChar c) : isSpace c = false := by
  rw [Bool.eq_false_iff]
  intro hspace
  simp only [isSpace, List.contains_iff_mem, List.mem_cons, List.not_mem_nil, or_false] at hspace
  rcases hspace with rfl | rfl | rfl | rfl
  all_goals exact absurd h (by decide)

variable {one : Reader α} {text : α → List Char} {close : Char}

theorem readSequence_intercalate (hclose : isSpace close = false) (hends : isNumberChar close = false)
    (hcomma : close ≠ ',') {items : List α} (hne : items ≠ [])
    (hone : ∀ item ∈ items, ∀ x, Ends x → one (text item ++ x) = some (item, x)) {n : Nat} (hn : items.length ≤ n)
    (x : List Char)
    : readSequence one close n ([','].intercalate (items.map text) ++ close :: x) = some (items, x) := by
  induction items generalizing n with
  | nil => contradiction
  | cons item items ih =>
    obtain ⟨n, rfl⟩ := Nat.exists_eq_succ_of_ne_zero (Nat.ne_of_gt (Nat.zero_lt_of_lt hn))
    obtain ⟨hitem, hitems⟩ := List.forall_mem_cons.1 hone
    cases items with
    | nil =>
      have hend : expect [close] (close :: x) = some x := expect_append [close] x
      rw [List.map_singleton, List.intercalate_singleton, readSequence, hitem _ (ends_cons hends x),
        Option.bind_eq_bind, Option.bind_some]
      dsimp only
      rw [skipSpace_cons hclose, expect_singleton_of_ne hcomma.symm]
      dsimp only
      rw [hend]
      rfl
    | cons item' items =>
      have hrest := ih (List.cons_ne_nil _ _) hitems (Nat.le_of_succ_le_succ hn)
      have hnext (y : List Char) : expect [','] (',' :: y) = some y := expect_append [','] y
      rw [List.map_cons, List.map_cons, List.intercalate_cons_cons, ← List.map_cons (f := text), List.append_assoc,
        List.append_assoc, List.singleton_append, readSequence, hitem _ (ends_cons (by decide) _), Option.bind_eq_bind,
        Option.bind_some]
      dsimp only
      rw [skipSpace_cons (by decide), hnext]
      dsimp only
      rw [hrest]
      rfl

theorem readList_intercalate (hclose : isSpace close = false) (hends : isNumberChar close = false)
    (hcomma : close ≠ ',') {items : List α}
    (hfirst : ∀ item ∈ items, ∃ c cs, text item = c :: cs ∧ isSpace c = false ∧ c ≠ close)
    (hone : ∀ item ∈ items, ∀ x, Ends x → one (text item ++ x) = some (item, x)) {n : Nat} (hn : items.length ≤ n)
    (x : List Char) : readList one close n ([','].intercalate (items.map text) ++ close :: x) = some (items, x) := by
  have hend : expect [close] (close :: x) = some x := expect_append [close] x
  cases items with
  | nil =>
    rw [List.map_nil, List.intercalate_nil, List.nil_append, readList, skipSpace_cons hclose, hend]
  | cons item items =>
    obtain ⟨c, cs, hitem, hspace, hne⟩ := hfirst item (.head _)
    have hread := readSequence_intercalate hclose hends hcomma (List.cons_ne_nil item items) hone hn x
    obtain ⟨ds, hds⟩ : ∃ ds, [','].intercalate ((item :: items).map text) = c :: ds := by
      cases items with
      | nil => exact ⟨cs, by rw [List.map_singleton, List.intercalate_singleton, hitem]⟩
      | cons item' items =>
        rw [List.map_cons, List.map_cons, List.intercalate_cons_cons, hitem]
        exact ⟨_, rfl⟩
    rw [readList]
    rw [hds, List.cons_append] at hread ⊢
    rw [skipSpace_cons hspace, expect_singleton_of_ne hne.symm]
    exact hread

theorem length_le_intercalate {items : List α} (h : ∀ item ∈ items, text item ≠ [])
    : items.length ≤ ([','].intercalate (items.map text)).length
        ∧ ∀ item ∈ items, (text item).length ≤ ([','].intercalate (items.map text)).length := by
  induction items with
  | nil => exact ⟨Nat.zero_le _, fun item hitem => nomatch hitem⟩
  | cons item items ih =>
    obtain ⟨hitem, hitems⟩ := List.forall_mem_cons.1 h
    have hpos := List.length_pos_of_ne_nil hitem
    cases items with
    | nil =>
      rw [List.map_singleton, List.intercalate_singleton]
      exact ⟨hpos, fun other hother => by rw [List.mem_singleton.1 hother]⟩
    | cons item' items =>
      obtain ⟨hlength, hall⟩ := ih hitems
      rw [List.map_cons, List.map_cons, List.intercalate_cons_cons, ← List.map_cons (f := text)]
      simp only [List.length_append, List.length_singleton]
      refine ⟨by rw [List.length_cons]; omega, List.forall_mem_cons.2 ⟨by omega, fun other hother => ?_⟩⟩
      have := hall other hother
      omega

theorem toList_renderField (field : String × Json)
    : (renderField field).toList = '"' :: (field.1.toList.flatMap escapeCode ++ '"' :: ':' :: field.2.render.toList) := by
  obtain ⟨key, value⟩ := field
  simp [renderField, toList_renderStr]

theorem readField_append {field : String × Json} {x : List Char} {n : Nat} {one : Reader Json}
    (hn : (renderField field).toList.length ≤ n) (hone : one (field.2.render.toList ++ x) = some (field.2, x))
    : readField one n ((renderField field).toList ++ x) = some (field, x) := by
  have hchars : field.1.toList.length < n := by
    have := length_le_flatMap_escapeCode field.1.toList
    rw [toList_renderField] at hn
    simp only [List.length_cons, List.length_append] at hn
    omega
  have hquote (y : List Char) : expect ['"'] ('"' :: y) = some y := expect_append ['"'] y
  have hcolon (y : List Char) : expect [':'] (':' :: y) = some y := expect_append [':'] y
  rw [toList_renderField, List.cons_append, List.append_assoc, List.cons_append, List.cons_append, readField,
    skipSpace_cons (by decide), hquote]
  simp only [Option.bind_eq_bind, Option.bind_some, readChars_flatMap hchars, skipSpace_cons (show isSpace ':' = false by decide),
    hcolon, hone, String.ofList_toList, Option.pure_def]

theorem readValue_number {word x : List Char} {value : Json} (hword : IsNumber word) (hx : Ends x)
    (hvalue : numberOf word = some value) (n : Nat) : readValue (n + 1) (word ++ x) = some (value, x) := by
  have hread := readNumber_append hword hx hvalue
  obtain ⟨c, cs, rfl⟩ := List.exists_cons_of_ne_nil hword.1
  have hc := hword.2 c (.head _)
  have hne {d : Char} (hd : isNumberChar d = false) : some c ≠ some d := by
    rintro ⟨⟩
    rw [hd] at hc
    contradiction
  have hspace : isSpace c = false := not_isSpace_of_isFirstChar (by simp [isFirstChar, hc])
  rw [List.cons_append] at hread ⊢
  simp only [readValue, skipSpace_cons hspace, List.head?_cons]
  split
  next heq => exact absurd heq (hne (by decide))
  next heq => exact absurd heq (hne (by decide))
  next heq => exact absurd heq (hne (by decide))
  next heq => exact absurd heq (hne (by decide))
  next heq => exact absurd heq (hne (by decide))
  next heq => exact absurd heq (hne (by decide))
  next => exact hread

theorem readValue_render {value : Json} (h : value.Writable) {n : Nat} (hn : value.render.toList.length ≤ n)
    {x : List Char} (hx : Ends x) : readValue n (value.render.toList ++ x) = some (value, x) := by
  have hpos : 0 < value.render.toList.length := by
    obtain ⟨c, cs, hfirst, -⟩ := exists_first h
    rw [hfirst]
    exact Nat.succ_pos _
  obtain ⟨n, rfl⟩ := Nat.exists_eq_succ_of_ne_zero (Nat.ne_of_gt (Nat.lt_of_lt_of_le hpos hn))
  induction h generalizing n x with
  | null => exact congrArg (Option.map (Json.null, ·)) (expect_append "null".toList x)
  | bool b =>
    cases b with
    | true => exact congrArg (Option.map (Json.bool true, ·)) (expect_append "true".toList x)
    | false => exact congrArg (Option.map (Json.bool false, ·)) (expect_append "false".toList x)
  | int k => exact readValue_number (isNumber_int k) hx (numberOf_toString k) n
  | float hfloat => exact readValue_number (isNumber_of_isFloat hfloat) hx (numberOf_of_isFloat hfloat) n
  | str s =>
    have hlength := length_le_flatMap_escapeCode s.toList
    have hread : readChars n (s.toList.flatMap escapeCode ++ '"' :: x) = some (s.toList, x) := by
      refine readChars_flatMap ?_ x
      simp only [render, toList_renderStr, List.length_cons, List.length_append] at hn
      omega
    rw [render, toList_renderStr, List.cons_append, List.append_assoc, List.singleton_append]
    simp only [readValue, skipSpace_cons (show isSpace '"' = false by decide), List.head?_cons, List.tail_cons, hread,
      Option.map_some, String.ofList_toList]
  | @arr items hitems ih =>
    have hne : ∀ item ∈ items, item.render.toList ≠ [] := by
      intro item hitem
      obtain ⟨c, cs, hfirst, -⟩ := exists_first (hitems item hitem)
      rw [hfirst]
      exact List.cons_ne_nil _ _
    obtain ⟨hlength, hall⟩ := length_le_intercalate hne
    rw [toList_render_arr, List.length_cons, List.length_append, List.length_singleton] at hn
    have hread : readList (readValue n) ']' n ([','].intercalate (items.map fun item => item.render.toList) ++ ']' :: x)
        = some (items, x) :=
      readList_intercalate (by decide) (by decide) (by decide) ?_ ?_ (by omega) x
    . rw [toList_render_arr, List.cons_append, List.append_assoc, List.singleton_append]
      simp only [readValue, skipSpace_cons (show isSpace '[' = false by decide), List.head?_cons, List.tail_cons, hread,
        Option.map_some]
    . intro item hitem
      obtain ⟨c, cs, hfirst, hc⟩ := exists_first (hitems item hitem)
      refine ⟨c, cs, hfirst, not_isSpace_of_isFirstChar hc, ?_⟩
      rintro rfl
      contradiction
    . intro item hitem y hy
      have hitemLength := hall item hitem
      have hitemPos := List.length_pos_of_ne_nil (hne item hitem)
      obtain ⟨m, rfl⟩ := Nat.exists_eq_succ_of_ne_zero (show n ≠ 0 by omega)
      exact ih item hitem hy hitemPos m (by omega)
  | @obj fields hfields ih =>
    have hne : ∀ field ∈ fields, (renderField field).toList ≠ [] := by
      intro field hfield
      rw [toList_renderField]
      exact List.cons_ne_nil _ _
    obtain ⟨hlength, hall⟩ := length_le_intercalate hne
    rw [toList_render_obj, List.length_cons, List.length_append, List.length_singleton] at hn
    have hread : readList (readField (readValue n) n) '}' n
        ([','].intercalate (fields.map fun field => (renderField field).toList) ++ '}' :: x) = some (fields, x) :=
      readList_intercalate (by decide) (by decide) (by decide) ?_ ?_ (by omega) x
    . rw [toList_render_obj, List.cons_append, List.append_assoc, List.singleton_append]
      simp only [readValue, skipSpace_cons (show isSpace '{' = false by decide), List.head?_cons, List.tail_cons, hread,
        Option.map_some]
    . intro field hfield
      exact ⟨_, _, toList_renderField field, by decide, by decide⟩
    . intro field hfield y hy
      have hfieldN : (renderField field).toList.length ≤ n := by
        have := hall field hfield
        omega
      have hvalueLength : field.2.render.toList.length < (renderField field).toList.length := by
        rw [toList_renderField]
        simp only [List.length_cons, List.length_append]
        omega
      have hvaluePos : 0 < field.2.render.toList.length := by
        obtain ⟨c, cs, hfirst, -⟩ := exists_first (hfields field hfield)
        rw [hfirst]
        exact Nat.succ_pos _
      obtain ⟨m, rfl⟩ := Nat.exists_eq_succ_of_ne_zero (show n ≠ 0 by omega)
      exact readField_append hfieldN (ih field hfield hy hvaluePos m (by omega))

theorem parse_render {value : Json} (h : value.Writable) : parse value.render = some value := by
  have hread := readValue_render h (Nat.le_refl _) ends_nil
  rw [List.append_nil] at hread
  rw [parse, hread]
  rfl

end Texts

end Json
