import Mathlib.Tactic.IntervalCases
import Lqxp.Data.Text

/-!
This module contains texts that are made of fields with a separator between them, and the numbers that
such texts carry.
-/

namespace Text

def join (sep : Char) (fields : List String) : String :=
  String.ofList ([sep].intercalate (fields.map String.toList))

@[simp]
theorem toList_join_singleton (sep : Char) (field : String)
    : (join sep [field]).toList = field.toList := by
  simp [join]

@[simp]
theorem toList_join_cons (sep : Char) (field field' : String) (fields : List String)
    : (join sep (field :: field' :: fields)).toList
        = field.toList ++ sep :: (join sep (field' :: fields)).toList := by
  simp only [join, String.toList_ofList, List.map_cons, List.intercalate_cons_cons,
    List.append_assoc, List.singleton_append]

/--
Parse an unsigned 64 bit number, the way the standard library does: one plus sign may stand before the
digits, and zeros may lead them.
-/
def parseU64 (s : String) : Option Nat :=
  let digits :=
    match s.toList with
    | '+' :: rest => rest
    | digits => digits
  if digits ≠ [] && digits.all Char.isDigit then
    let n := Nat.ofDigitChars 10 digits 0
    if n < 2 ^ 64 then some n else none
  else
    none

/--
Parse a signed 64 bit number, the way the standard library does.
-/
def parseI64 (s : String) : Option Int :=
  let (sign, digits) : Int × List Char :=
    match s.toList with
    | '+' :: rest => (1, rest)
    | '-' :: rest => (-1, rest)
    | digits => (1, digits)
  if digits ≠ [] && digits.all Char.isDigit then
    let n := sign * Nat.ofDigitChars 10 digits 0
    if -2 ^ 63 ≤ n && n < 2 ^ 63 then some n else none
  else
    none

def isLowerHexDigit (c : Char) : Bool := c.isDigit || ('a' ≤ c && c ≤ 'f')

theorem isLowerHexDigit_digitChar {d : Nat} (h : d < 16) : isLowerHexDigit d.digitChar := by
  interval_cases d <;> decide

@[simp]
theorem toList_hexDigits (n : Nat) : (hexDigits n).toList = Nat.toDigits 16 n := by
  simp [hexDigits]

theorem isLowerHexDigit_of_mem_hexDigits {n : Nat} {c : Char} (h : c ∈ (hexDigits n).toList)
    : isLowerHexDigit c := by
  rw [hexDigits, String.toList_ofList] at h
  induction n using Nat.strongRecOn with
  | ind n ih =>
    rw [Nat.toDigits_eq_if (by omega)] at h
    split at h
    next hlt =>
      obtain rfl := List.mem_singleton.1 h
      exact isLowerHexDigit_digitChar hlt
    next hge =>
      rcases List.mem_append.1 h with h | h
      . exact ih (n / 16) (by omega) h
      . obtain rfl := List.mem_singleton.1 h
        exact isLowerHexDigit_digitChar (Nat.mod_lt _ (by omega))

theorem length_hexDigits_le {n k : Nat} (hk : 0 < k) (h : n < 16 ^ k)
    : (hexDigits n).toList.length ≤ k := by
  rw [hexDigits, String.toList_ofList]
  exact (Nat.length_toDigits_le_iff (by omega) hk).2 h

theorem utf8Size_of_isLowerHexDigit {c : Char} (h : isLowerHexDigit c) : c.utf8Size = 1 := by
  rw [Char.utf8Size_eq_one_iff]
  simp only [isLowerHexDigit, Char.isDigit, Bool.or_eq_true, Bool.and_eq_true, decide_eq_true_eq] at h
  rcases h with ⟨-, h⟩ | ⟨-, h⟩
  . exact UInt32.le_trans h (by decide)
  . exact UInt32.le_trans h (by decide)

theorem len_eq_length {s : String} (h : ∀ c ∈ s.toList, c.utf8Size = 1) : len s = s.toList.length := by
  have hsize : ∀ cs : List Char, (∀ c ∈ cs, c.utf8Size = 1) →
      (String.ofList cs).utf8ByteSize = cs.length := by
    intro cs hcs
    induction cs with
    | nil => rfl
    | cons c cs ih =>
      rw [String.ofList_cons, String.utf8ByteSize_append, String.utf8ByteSize_singleton,
        hcs c (.head _), ih fun c hc => hcs c (.tail _ hc), List.length_cons, Nat.add_comm]
  rw [len, ← hsize s.toList h, String.ofList_toList]

theorem len_hexDigits (n : Nat) : len (hexDigits n) = (Nat.toDigits 16 n).length := by
  rw [len_eq_length fun c hc => utf8Size_of_isLowerHexDigit (isLowerHexDigit_of_mem_hexDigits hc), toList_hexDigits]

theorem isDigit_of_mem_toString {n : Nat} {c : Char} (h : c ∈ (toString n).toList) : c.isDigit := by
  rw [Nat.toString_eq_repr, Nat.toList_repr] at h
  exact Nat.isDigit_of_mem_toDigits (by omega) (by omega) h

theorem toString_inj {m n : Nat} (h : toString m = toString n) : m = n := by
  rw [Nat.toString_eq_repr, Nat.toString_eq_repr] at h
  have hdigits := congrArg String.toList h
  rw [Nat.toList_repr, Nat.toList_repr] at hdigits
  rw [← Nat.ofDigitChars_ten_toDigits (n := m), hdigits, Nat.ofDigitChars_ten_toDigits]

theorem parseU64_toString {m n : Nat} (h : parseU64 (toString n) = some m) : m = n := by
  have hplus : ∀ rest, (toString n).toList ≠ '+' :: rest := by
    intro rest heq
    have hmem : '+' ∈ (toString n).toList := by
      rw [heq]
      exact List.mem_cons_self
    have := isDigit_of_mem_toString hmem
    contradiction
  rw [parseU64] at h
  split at h
  next rest heq => exact absurd heq (hplus rest)
  next =>
    rw [Nat.toString_eq_repr, Nat.toList_repr, Nat.ofDigitChars_ten_toDigits] at h
    simp only [Option.ite_none_right_eq_some, Option.some.injEq] at h
    exact h.2.2.symm

section Separators

variable {sep : Char}

theorem append_sep_left_inj {a b x y : List Char} (ha : sep ∉ a) (hb : sep ∉ b)
    (h : a ++ sep :: x = b ++ sep :: y) : a = b ∧ x = y := by
  induction a generalizing b with
  | nil =>
    cases b with
    | nil => simpa using h
    | cons c b =>
      simp only [List.nil_append, List.cons_append, List.cons.injEq] at h
      simp [h.1] at hb
  | cons c a ih =>
    cases b with
    | nil =>
      simp only [List.nil_append, List.cons_append, List.cons.injEq] at h
      simp [h.1] at ha
    | cons d b =>
      simp only [List.cons_append, List.cons.injEq] at h
      obtain ⟨rfl, hx⟩ := ih (fun hc => ha (.tail _ hc)) (fun hd => hb (.tail _ hd)) h.2
      exact ⟨by rw [h.1], hx⟩

theorem append_sep_right_inj {a b x y : List Char} (ha : sep ∉ a) (hb : sep ∉ b)
    (h : x ++ sep :: a = y ++ sep :: b) : x = y ∧ a = b := by
  have hrev := congrArg List.reverse h
  simp only [List.reverse_append, List.reverse_cons, List.append_assoc, List.singleton_append] at hrev
  obtain ⟨hab, hxy⟩ := append_sep_left_inj (by simpa using ha) (by simpa using hb) hrev
  exact ⟨List.reverse_injective hxy, List.reverse_injective hab⟩

theorem toList_join_concat {fields : List String} (hne : fields ≠ []) (last : String)
    : (join sep (fields ++ [last])).toList = (join sep fields).toList ++ sep :: last.toList := by
  induction fields with
  | nil => contradiction
  | cons field fields ih =>
    cases fields with
    | nil => simp
    | cons field' fields =>
      rw [List.cons_append, List.cons_append, toList_join_cons, ← List.cons_append, ih (by simp),
        toList_join_cons, List.append_assoc, List.cons_append]

theorem join_cons_inj {field field' : String} {fields fields' : List String} (hne : fields ≠ [])
    (hne' : fields' ≠ []) (hfield : sep ∉ field.toList) (hfield' : sep ∉ field'.toList)
    (h : join sep (field :: fields) = join sep (field' :: fields'))
    : field = field' ∧ join sep fields = join sep fields' := by
  obtain ⟨f, fs, rfl⟩ := List.exists_cons_of_ne_nil hne
  obtain ⟨f', fs', rfl⟩ := List.exists_cons_of_ne_nil hne'
  have htext := congrArg String.toList h
  rw [toList_join_cons, toList_join_cons] at htext
  obtain ⟨hfirst, hrest⟩ := append_sep_left_inj hfield hfield' htext
  exact ⟨String.toList_inj.1 hfirst, String.toList_inj.1 hrest⟩

theorem join_concat_inj {last last' : String} (fields fields' : List String) (hne : fields ≠ [])
    (hne' : fields' ≠ []) (hlast : sep ∉ last.toList) (hlast' : sep ∉ last'.toList)
    (h : join sep (fields ++ [last]) = join sep (fields' ++ [last']))
    : join sep fields = join sep fields' ∧ last = last' := by
  have htext := congrArg String.toList h
  rw [toList_join_concat hne, toList_join_concat hne'] at htext
  obtain ⟨hinit, hend⟩ := append_sep_right_inj hlast hlast' htext
  exact ⟨String.toList_inj.1 hinit, String.toList_inj.1 hend⟩

theorem not_mem_toString {c : Char} (hc : c.isDigit = false) (n : Nat) : c ∉ (toString n).toList := by
  intro hmem
  have hdigit := isDigit_of_mem_toString hmem
  rw [hc] at hdigit
  contradiction

theorem not_mem_hexDigits {c : Char} (hc : isLowerHexDigit c = false) (n : Nat)
    : c ∉ (hexDigits n).toList := by
  intro hmem
  have hdigit := isLowerHexDigit_of_mem_hexDigits hmem
  rw [hc] at hdigit
  contradiction

private theorem splitOn_go_ne_nil (x : List Char) : splitOn.go sep x ≠ [] := by
  cases x with
  | nil => simp [splitOn.go]
  | cons c x =>
    rw [splitOn.go]
    split
    . simp
    . split <;> simp

private theorem splitOn_go_append {a : List Char} (ha : sep ∉ a) (x : List Char)
    : splitOn.go sep (a ++ sep :: x) = a :: splitOn.go sep x := by
  induction a with
  | nil =>
    rw [List.nil_append, splitOn.go]
    split
    next h => exact absurd h (splitOn_go_ne_nil x)
    next piece pieces h => simp [h]
  | cons c a ih =>
    rw [List.cons_append, splitOn.go, ih fun hc => ha (.tail _ hc)]
    have hc : c ≠ sep := fun heq => ha (by simp [heq])
    simp [hc]

private theorem splitOn_go_eq {a : List Char} (ha : sep ∉ a) : splitOn.go sep a = [a] := by
  induction a with
  | nil => rfl
  | cons c a ih =>
    rw [splitOn.go, ih fun hc => ha (.tail _ hc)]
    have hc : c ≠ sep := fun heq => ha (by simp [heq])
    simp [hc]

theorem splitOn_join {fields : List String} (hne : fields ≠ [])
    (h : ∀ field ∈ fields, sep ∉ field.toList) : splitOn sep (join sep fields) = fields := by
  rw [splitOn]
  induction fields with
  | nil => contradiction
  | cons field fields ih =>
    cases fields with
    | nil =>
      rw [toList_join_singleton, splitOn_go_eq (h field (by simp))]
      simp
    | cons field' fields =>
      rw [toList_join_cons, splitOn_go_append (h field (by simp)), List.map_cons, String.ofList_toList,
        ih (by simp) fun f hf => h f (.tail _ hf)]

theorem splitOn_eq_singleton {s : String} (h : sep ∉ s.toList) : splitOn sep s = [s] := by
  have hjoin : join sep [s] = s := String.toList_inj.1 (toList_join_singleton sep s)
  have hsplit : splitOn sep (join sep [s]) = [s] := splitOn_join (List.cons_ne_nil s []) (by simpa using h)
  rwa [hjoin] at hsplit

theorem not_mem_of_mem_splitOn {s piece : String} (h : piece ∈ splitOn sep s) : sep ∉ piece.toList := by
  have hgo : ∀ cs : List Char, ∀ piece ∈ splitOn.go sep cs, sep ∉ piece := by
    intro cs
    induction cs with
    | nil => simp [splitOn.go]
    | cons c cs ih =>
      intro piece hpiece
      rw [splitOn.go] at hpiece
      split at hpiece
      next hnil =>
        exact absurd hnil (splitOn_go_ne_nil cs)
      next first pieces hpieces =>
        rw [hpieces] at ih
        split at hpiece
        . rcases List.mem_cons.1 hpiece with rfl | hmem
          . exact List.not_mem_nil
          . exact ih piece hmem
        next hne =>
          rcases List.mem_cons.1 hpiece with rfl | hmem
          . exact List.not_mem_cons_of_ne_of_not_mem (Ne.symm hne) (ih first (.head _))
          . exact ih piece (.tail _ hmem)
  obtain ⟨cs, hcs, rfl⟩ := List.mem_map.1 h
  rw [String.toList_ofList]
  exact hgo _ cs hcs

@[simp]
theorem stripPrefix_append (pre s : String) : stripPrefix pre (pre ++ s) = some s := by
  rw [stripPrefix, if_pos (by simp [startsWith])]
  simp

theorem splitOnce_append {a : String} (ha : sep ∉ a.toList) (x : String)
    : splitOnce sep (a ++ String.singleton sep ++ x) = some (a, x) := by
  have hne : ∀ c ∈ a.toList, decide (c ≠ sep) := fun c hc => decide_eq_true fun heq => ha (heq ▸ hc)
  simp only [splitOnce, String.toList_append, String.toList_singleton, List.append_assoc,
    List.singleton_append]
  rw [if_pos (by simp), List.takeWhile_append_of_pos hne, List.dropWhile_append_of_pos hne]
  simp

theorem rsplitOnce_append {x : String} (hx : sep ∉ x.toList) (a : String)
    : rsplitOnce sep (a ++ String.singleton sep ++ x) = some (a, x) := by
  have hne : ∀ c ∈ x.toList.reverse, decide (c ≠ sep) := by
    intro c hc
    refine decide_eq_true fun heq => hx ?_
    simpa [heq] using hc
  simp only [rsplitOnce, String.toList_append, String.toList_singleton, List.append_assoc,
    List.singleton_append]
  rw [if_pos (by simp), List.rdropWhile, List.rtakeWhile, List.reverse_append, List.reverse_cons,
    List.append_assoc, List.takeWhile_append_of_pos hne, List.dropWhile_append_of_pos hne]
  simp

end Separators

section Trimming

variable {p q : Char → Bool} {before core after cs : List Char} {s : String}

/--
Neither the first character nor the last one satisfies `p`.
-/
structure Trimmed (p : Char → Bool) (cs : List Char) : Prop where
  head : ∀ c ∈ cs.head?, p c = false
  last : ∀ c ∈ cs.getLast?, p c = false

theorem trimmed_iff_all
    : Trimmed p cs ↔ (cs.head?.all (!p ·) && cs.getLast?.all (!p ·)) = true := by
  simp only [Bool.and_eq_true, Option.all_eq_true, Bool.not_eq_true']
  constructor
  . intro h
    exact ⟨h.head, h.last⟩
  . intro ⟨hhead, hlast⟩
    exact ⟨hhead, hlast⟩

instance (p : Char → Bool) (cs : List Char) : Decidable (Trimmed p cs) :=
  decidable_of_iff _ trimmed_iff_all.symm

theorem trimmed_or_iff : Trimmed (fun c => p c || q c) cs ↔ Trimmed p cs ∧ Trimmed q cs := by
  constructor
  . intro h
    have hhead := fun c hc => Bool.or_eq_false_iff.1 (h.head c hc)
    have hlast := fun c hc => Bool.or_eq_false_iff.1 (h.last c hc)
    exact ⟨⟨fun c hc => (hhead c hc).1, fun c hc => (hlast c hc).1⟩,
      ⟨fun c hc => (hhead c hc).2, fun c hc => (hlast c hc).2⟩⟩
  . intro ⟨hp, hq⟩
    constructor
    . intro c hc
      simp [hp.head c hc, hq.head c hc]
    . intro c hc
      simp [hp.last c hc, hq.last c hc]

theorem trimmed_of_forall (h : ∀ c ∈ cs, p c = false) : Trimmed p cs := by
  constructor
  . intro c hc
    apply h
    apply List.mem_of_mem_head? hc
  . intro c hc
    apply h
    apply List.mem_of_mem_getLast? hc

theorem Trimmed.append_left (h : Trimmed p core) (hne : core ≠ []) (hbefore : ∀ c ∈ before, p c = false)
    : Trimmed p (before ++ core) := by
  constructor
  . intro c hc
    rw [List.head?_append, Option.mem_def, Option.or_eq_some_iff] at hc
    cases hc with
    | inl hc =>
      apply hbefore
      apply List.mem_of_mem_head? hc
    | inr hc => apply h.head _ hc.2
  . intro c hc
    rw [List.getLast?_append_of_ne_nil before hne] at hc
    apply h.last _ hc

theorem toList_trimMatches (p : Char → Bool) (s : String)
    : (trimMatches p s).toList = (s.toList.dropWhile p).rdropWhile p := by
  apply String.toList_ofList

theorem exists_append_trimMatches (p : Char → Bool) (s : String) : ∃ before after,
    s.toList = before ++ (trimMatches p s).toList ++ after ∧ (∀ c ∈ before, p c) ∧ ∀ c ∈ after, p c := by
  refine ⟨s.toList.takeWhile p, (s.toList.dropWhile p).rtakeWhile p, ?_, ?_, ?_⟩
  . rw [toList_trimMatches, List.append_assoc, List.rdropWhile_append_rtakeWhile, List.takeWhile_append_dropWhile]
  . intro c hc
    apply List.mem_takeWhile_imp hc
  . intro c hc
    apply List.mem_rtakeWhile_imp hc

theorem exists_append_trim (s : String) : ∃ before after, s.toList = before ++ (trim s).toList ++ after
    ∧ (∀ c ∈ before, isWhitespace c) ∧ ∀ c ∈ after, isWhitespace c := by
  apply exists_append_trimMatches

theorem trimmed_trimMatches (p : Char → Bool) (s : String) : Trimmed p (trimMatches p s).toList := by
  rw [toList_trimMatches]
  constructor
  . intro c hc
    obtain ⟨rest, hrest⟩ := List.rdropWhile_prefix p (s.toList.dropWhile p)
    have hhead : (s.toList.dropWhile p).head? = some c := by
      rw [← hrest, List.head?_append, Option.mem_def.1 hc]
      simp
    have hnot := List.head?_dropWhile_not p s.toList
    rw [hhead] at hnot
    apply hnot
  . intro c hc
    obtain ⟨hne, rfl⟩ := List.mem_getLast?_eq_getLast hc
    apply Bool.eq_false_iff.2
    apply List.rdropWhile_last_not

theorem rdropWhile_append_of_pos (hafter : ∀ c ∈ after, p c) : (cs ++ after).rdropWhile p = cs.rdropWhile p := by
  rw [List.rdropWhile, List.reverse_append, List.dropWhile_append_of_pos]
  . rw [List.rdropWhile]
  . intro c hc
    apply hafter
    apply List.mem_reverse.1 hc

namespace Trimmed

theorem dropWhile_append (h : Trimmed p core) (hne : core ≠ []) (after : List Char)
    : (core ++ after).dropWhile p = core ++ after := by
  cases core with
  | nil => contradiction
  | cons c core =>
    rw [List.cons_append, List.dropWhile_cons_of_neg]
    simp [h.head c rfl]

theorem rdropWhile_append (h : Trimmed p core) (after : List Char)
    : (core ++ after).rdropWhile p = core ++ after.rdropWhile p := by
  induction after using List.reverseRecOn with
  | nil =>
    rw [List.append_nil, List.rdropWhile_nil, List.append_nil, List.rdropWhile_eq_self_iff]
    intro hne
    simp [h.last _ (List.getLast_mem_getLast? hne)]
  | append_singleton after c ih =>
    rw [← List.append_assoc, List.rdropWhile_concat, List.rdropWhile_concat, ih, List.append_assoc]
    split
    . rfl
    . rfl

theorem trim_append (h : Trimmed p core) (hne : core ≠ []) (hbefore : ∀ c ∈ before, p c) (after : List Char)
    : ((before ++ (core ++ after)).dropWhile p).rdropWhile p = core ++ after.rdropWhile p := by
  rw [List.dropWhile_append_of_pos hbefore, h.dropWhile_append hne, h.rdropWhile_append]

theorem toList_trimMatches (h : Trimmed p core) (hs : s.toList = before ++ core ++ after)
    (hbefore : ∀ c ∈ before, p c) (hafter : ∀ c ∈ after, p c) : (trimMatches p s).toList = core := by
  rw [Text.toList_trimMatches, hs, List.append_assoc]
  by_cases hne : core = []
  . have hnil : (before ++ (core ++ after)).dropWhile p = [] := by
      rw [hne, List.nil_append, List.dropWhile_append_of_pos hbefore, List.dropWhile_eq_nil_iff]
      apply hafter
    rw [hnil, hne, List.rdropWhile_nil]
  . rw [h.trim_append hne hbefore, List.rdropWhile_eq_nil_iff.2 hafter, List.append_nil]

theorem trimMatches_eq_self (h : Trimmed p s.toList) : trimMatches p s = s := by
  have hs : s.toList = [] ++ s.toList ++ [] := by simp
  apply String.toList_inj.1
  apply h.toList_trimMatches hs
  . simp
  . simp

end Trimmed

theorem trim_eq_self (h : Trimmed isWhitespace s.toList) : trim s = s := by
  apply h.trimMatches_eq_self

end Trimming

theorem not_isWhitespace_of_isNameChar {c : Char} (h : (isAsciiAlphanumeric c || c = '_' || c = '-') = true)
    : isWhitespace c = false := by
  have hrange : 0x20 < c.toNat ∧ c.toNat < 0x80 := by
    simp only [isAsciiAlphanumeric, Bool.or_eq_true, Bool.and_eq_true, decide_eq_true_eq] at h
    rcases h with (((⟨hc, hc'⟩ | ⟨hc, hc'⟩) | ⟨hc, hc'⟩) | rfl) | rfl
    . exact ⟨Nat.lt_of_lt_of_le (by decide) hc, Nat.lt_of_le_of_lt hc' (by decide)⟩
    . exact ⟨Nat.lt_of_lt_of_le (by decide) hc, Nat.lt_of_le_of_lt hc' (by decide)⟩
    . exact ⟨Nat.lt_of_lt_of_le (by decide) hc, Nat.lt_of_le_of_lt hc' (by decide)⟩
    . decide
    . decide
  simp only [isWhitespace, List.contains_eq_mem, List.mem_cons, List.not_mem_nil, or_false, Bool.or_eq_false_iff,
    Bool.and_eq_false_iff, decide_eq_false_iff_not]
  omega

theorem parseI64_toString {n : Nat} (h : n < 2 ^ 63) : parseI64 (toString n) = some (n : Int) := by
  have hsign {sign : Char} (hsign : sign.isDigit = false) (rest : List Char)
      : (toString n).toList ≠ sign :: rest := by
    intro heq
    exact not_mem_toString hsign n (heq ▸ List.mem_cons_self)
  rw [parseI64]
  split
  next sign digits hdigits =>
    split at hdigits
    next rest heq => exact absurd heq (hsign rfl rest)
    next rest heq => exact absurd heq (hsign rfl rest)
    next =>
      obtain ⟨rfl, rfl⟩ := Prod.mk.inj hdigits
      have hne : (toString n).toList ≠ [] := by
        rw [Nat.toString_eq_repr, Nat.toList_repr]
        exact Nat.toDigits_ne_nil
      have hall : (toString n).toList.all Char.isDigit :=
        List.all_eq_true.2 fun c hc => isDigit_of_mem_toString hc
      have hvalue : Nat.ofDigitChars 10 (toString n).toList 0 = n := by
        rw [Nat.toString_eq_repr, Nat.toList_repr, Nat.ofDigitChars_ten_toDigits]
      simp only [hne, hall, hvalue, ne_eq, not_false_eq_true, decide_true, Bool.and_self, if_true,
        Int.one_mul]
      rw [if_pos]
      simp only [Bool.and_eq_true, decide_eq_true_eq]
      omega

end Text
