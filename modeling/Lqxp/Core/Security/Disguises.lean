import Mathlib.Data.Bool.AllAny
import Lqxp.Core.Usernames
import Lqxp.Data.Fields
import Lqxp.Data.Readings

/-!
This module contains when a reserved username in disguise is refused. The characters that look like letters are also
separators, so that a name has many readings, of which only two are tested.
-/

namespace Lqxp

/--
What the standard library says of the characters of ASCII, of white space, and of texts in lower case: but for one
character, these are made character by character.
-/
structure CharacterTables (x : Externals) (lowerChar : Char → List Char) : Prop where
  lower : ∀ s, 'Σ' ∉ s.toList → x.toLowercase s = String.ofList (s.toList.flatMap lowerChar)
  sigma : lowerChar 'Σ' = ['σ']
  ne_nil : ∀ c, lowerChar c ≠ []
  ascii : ∀ c, c.toNat < 0x80 → lowerChar c = [Text.toAsciiLowerChar c]
  whitespace : ∀ c, Text.isWhitespace c → lowerChar c = [c]
  alphanumeric : ∀ c, c.toNat < 0x80 → x.isAlphanumeric c = Text.isAsciiAlphanumeric c

def smallLetters : List Char := "abcdefghijklmnopqrstuvwxyz".toList

def acceptedMarks : List Char := "_.- #@'\"()[]!?".toList

def lookAlikes : List Char := ['0', '1', '!', '|', '3', '4', '5', '$', '7', '@']

/--
A reserved username of letters in disguise: each character is a mark that is left out, or it is read as the letters
that it looks like.
-/
structure Disguise (lowerChar : Char → List Char) (username reserved : String) : Prop where
  isReserved : reserved ∈ reservedUsernames
  letters : ∀ c ∈ reserved.toList, c ∈ smallLetters
  reads : Reads (· ∈ acceptedMarks) (fun c => (lowerChar c).map unleet) username.toList reserved.toList

/--
A name that the validators do not give away.
-/
def Forbidden (name : List Char) : Prop :=
  name ≠ [] ∧ (String.ofList name ∈ reservedUsernames
    ∨ ∃ brand ∈ reservedUsernameSubstrings, Text.contains (String.ofList name) brand)

/--
The first reading that is tested: everything but letters and digits is left out.
-/
def separatorsDropped (lowerChar : Char → List Char) (username : String) : List Char :=
  (username.toList.flatMap lowerChar).filter Text.isAsciiAlphanumeric

/--
The second reading that is tested: everything that looks like a letter is one.
-/
def lookAlikesRead (lowerChar : Char → List Char) (username : String) : List Char :=
  ((username.toList.flatMap lowerChar).map unleet).filter Text.isAsciiAlphanumeric

/--
What gives a disguise away: its length, a character that no username has, or one of two readings.
-/
inductive GivesAway (lowerChar : Char → List Char) (username : String) : Prop where
  | short (h : ((Text.trim username).toList.flatMap lowerChar).length < usernameMin)
  | long (h : usernameMax < ((Text.trim username).toList.flatMap lowerChar).length)
  | bar (h : '|' ∈ username.toList.flatMap lowerChar)
  | dollar (h : '$' ∈ username.toList.flatMap lowerChar)
  | separators (h : Forbidden (separatorsDropped lowerChar username))
  | lookAlikes (h : Forbidden (lookAlikesRead lowerChar username))

def Refuses (x : Externals) (username : String) : Prop :=
  (∃ e, validateRegistrationUsername x username = .error e) ∧ ∃ e, validateUsername x username = .error e

section Characters

def plainChars : List Char := smallLetters ++ lookAlikes ++ acceptedMarks

theorem mem_plainChars {c : Char} : c ∈ plainChars ↔ (c ∈ smallLetters ∨ c ∈ lookAlikes) ∨ c ∈ acceptedMarks := by
  rw [plainChars, List.mem_append, List.mem_append]

theorem letter_or_lookAlike {c : Char} (h : unleet c ∈ smallLetters) : c ∈ smallLetters ∨ c ∈ lookAlikes := by
  unfold unleet at h
  split at h
  all_goals first | exact .inr (by decide) | exact .inl h

theorem checked_of_plain : ∀ c ∈ plainChars, (c.toNat < 0x80 ∧ (unleet c).toNat < 0x80) ∧ Text.toAsciiLowerChar c = c
    ∧ (c ≠ ' ' → Text.isWhitespace c = false)
    ∧ ((Text.isAsciiAlphanumeric c || "_.- #@'\"()[]!?".toList.contains c) = true ↔ c ≠ '|' ∧ c ≠ '$') :=
  List.all_iff_forall_prop.1 (by decide +kernel)

theorem ascii_of_plain : ∀ c ∈ plainChars, c.toNat < 0x80 ∧ (unleet c).toNat < 0x80 :=
  fun c hc => (checked_of_plain c hc).1

theorem toAsciiLowerChar_of_plain : ∀ c ∈ plainChars, Text.toAsciiLowerChar c = c :=
  fun c hc => (checked_of_plain c hc).2.1

theorem isWhitespace_of_plain : ∀ c ∈ plainChars, c ≠ ' ' → Text.isWhitespace c = false :=
  fun c hc => (checked_of_plain c hc).2.2.1

theorem space_not_read : ' ' ∉ smallLetters ∧ ' ' ∉ lookAlikes := by
  decide +kernel

theorem marks_of_plain : ∀ c ∈ plainChars, (Text.isAsciiAlphanumeric c || "_.- #@'\"()[]!?".toList.contains c) = true
    ↔ c ≠ '|' ∧ c ≠ '$' :=
  fun c hc => (checked_of_plain c hc).2.2.2

end Characters

variable {x : Externals} {lowerChar : Char → List Char} {username reserved name : String}

section Plain

variable (hx : CharacterTables x lowerChar)
include hx

theorem lowerChar_of_plain {c : Char} (h : c ∈ plainChars) : lowerChar c = [c] := by
  rw [hx.ascii c (ascii_of_plain c h).1, toAsciiLowerChar_of_plain c h]

theorem isUsernameChar_of_plain {c : Char} (h : c ∈ plainChars) : isUsernameChar x c = true ↔ c ≠ '|' ∧ c ≠ '$' := by
  rw [isUsernameChar, hx.alphanumeric c (ascii_of_plain c h).1]
  exact marks_of_plain c h

theorem normalizeUsername_of_plain (hplain : ∀ c ∈ name.toList, c ∈ plainChars) (htrim : Text.trim name = name)
    : normalizeUsername x name = name := by
  have hsigma : 'Σ' ∉ name.toList := fun h => absurd (ascii_of_plain _ (hplain _ h)).1 (by decide)
  have hsame : name.toList.flatMap lowerChar = name.toList := by
    rw [List.flatMap_congr fun c hc => lowerChar_of_plain hx (hplain c hc)]
    exact List.flatMap_singleton' _
  rw [normalizeUsername, htrim, hx.lower name hsigma, hsame, String.ofList_toList]

end Plain

namespace Disguise

variable (hx : CharacterTables x lowerChar) (h : Disguise lowerChar username reserved)
include hx h

theorem plain_of_mem {c d : Char} (hc : c ∈ username.toList) (hd : d ∈ lowerChar c)
    : d ∈ plainChars ∧ (d = ' ' → c = ' ') := by
  rcases h.reads.droppable_or_subset hc with hmark | hread
  . rw [lowerChar_of_plain hx (mem_plainChars.2 (.inr hmark)), List.mem_singleton] at hd
    subst hd
    exact ⟨mem_plainChars.2 (.inr hmark), id⟩
  . have hletter := letter_or_lookAlike (h.letters _ (hread (List.mem_map_of_mem hd)))
    refine ⟨mem_plainChars.2 (.inl hletter), ?_⟩
    rintro rfl
    exact (hletter.elim space_not_read.1 space_not_read.2).elim

theorem not_sigma : 'Σ' ∉ username.toList := by
  intro hmem
  have hsigma : 'σ' ∈ lowerChar 'Σ' := by
    rw [hx.sigma]
    exact List.mem_singleton_self _
  exact absurd (ascii_of_plain _ (h.plain_of_mem hx hmem hsigma).1).1 (by decide)

theorem eq_of_isWhitespace {c : Char} (hc : c ∈ username.toList) (hspace : Text.isWhitespace c) : c = ' ' := by
  have hmem : c ∈ lowerChar c := by
    rw [hx.whitespace c hspace]
    exact List.mem_singleton_self c
  by_contra hne
  exact absurd hspace (Bool.eq_false_iff.1 (isWhitespace_of_plain c (h.plain_of_mem hx hc hmem).1 hne))

theorem exists_normal : (normalizeUsername x username).toList = (Text.trim username).toList.flatMap lowerChar
    ∧ (∀ c ∈ (Text.trim username).toList, c ∈ username.toList)
    ∧ ∃ before after, username.toList.flatMap lowerChar = before ++ (normalizeUsername x username).toList ++ after
      ∧ (∀ c ∈ before, c = ' ') ∧ ∀ c ∈ after, c = ' ' := by
  obtain ⟨before, after, hsplit, hbefore, hafter⟩ := Text.exists_append_trim username
  have hsub : ∀ c ∈ before ++ (Text.trim username).toList ++ after, c ∈ username.toList := by
    rw [hsplit]
    exact fun c hc => hc
  obtain ⟨hsub, hsubAfter⟩ := List.forall_mem_append.1 hsub
  obtain ⟨hsubBefore, hsubTrim⟩ := List.forall_mem_append.1 hsub
  have hnormal : (normalizeUsername x username).toList = (Text.trim username).toList.flatMap lowerChar := by
    rw [normalizeUsername, hx.lower _ fun hmem => h.not_sigma hx (hsubTrim _ hmem), String.toList_ofList]
  refine ⟨hnormal, hsubTrim, before.flatMap lowerChar, after.flatMap lowerChar, ?_, ?_, ?_⟩
  . rw [hnormal, hsplit, List.flatMap_append, List.flatMap_append]
  all_goals
    intro d hd
    obtain ⟨c, hc, hd⟩ := List.mem_flatMap.1 hd
  . rw [hx.whitespace c (hbefore c hc), List.mem_singleton] at hd
    exact hd.trans (h.eq_of_isWhitespace hx (hsubBefore c hc) (hbefore c hc))
  . rw [hx.whitespace c (hafter c hc), List.mem_singleton] at hd
    exact hd.trans (h.eq_of_isWhitespace hx (hsubAfter c hc) (hafter c hc))

theorem plain_normal : ∀ d ∈ (normalizeUsername x username).toList, d ∈ plainChars := by
  obtain ⟨hnormal, hsub, -⟩ := h.exists_normal hx
  rw [hnormal]
  intro d hd
  obtain ⟨c, hc, hd⟩ := List.mem_flatMap.1 hd
  exact (h.plain_of_mem hx (hsub c hc) hd).1

theorem trim_normal : Text.trim (normalizeUsername x username) = normalizeUsername x username := by
  obtain ⟨hnormal, hsub, -⟩ := h.exists_normal hx
  have hinner : ∀ c ∈ (Text.trim username).toList, Text.isWhitespace c = false → ∀ d ∈ lowerChar c,
      Text.isWhitespace d = false := by
    intro c hc hsolid d hd
    obtain ⟨hplain, hblank⟩ := h.plain_of_mem hx (hsub c hc) hd
    refine isWhitespace_of_plain d hplain ?_
    rintro rfl
    exact absurd hsolid (by rw [hblank rfl]; decide)
  have hends : Text.Trimmed Text.isWhitespace (Text.trim username).toList := Text.trimmed_trimMatches _ username
  refine Text.trim_eq_self ⟨fun d hd => ?_, fun d hd => ?_⟩
  all_goals rw [hnormal] at hd
  . cases htrim : (Text.trim username).toList with
    | nil => simp [htrim] at hd
    | cons c cs =>
      rw [htrim, List.flatMap_cons, List.head?_append_of_ne_nil _ (hx.ne_nil c)] at hd
      exact hinner c (by simp [htrim]) (hends.head c (by simp [htrim])) d
        (List.mem_of_mem_head? hd)
  . rcases List.eq_nil_or_concat (Text.trim username).toList with htrim | ⟨cs, c, htrim⟩
    . simp [htrim] at hd
    . rw [htrim, List.concat_eq_append, List.flatMap_append, List.flatMap_singleton,
        List.getLast?_append_of_ne_nil _ (hx.ne_nil c)] at hd
      exact hinner c (by simp [htrim]) (hends.last c (by simp [htrim])) d
        (List.mem_of_mem_getLast? hd)

end Disguise

section Refusals

theorem validateUsernameWithMax_error_iff {max : Nat} : (∃ e, validateUsernameWithMax x username max = .error e)
    ↔ (normalizeUsername x username).toList.length < usernameMin
      ∨ max < (normalizeUsername x username).toList.length
      ∨ hitsReservedUsername x (normalizeUsername x username)
      ∨ (normalizeUsername x username).toList.all (isUsernameChar x) = false := by
  simp only [validateUsernameWithMax]
  split
  next hlength =>
    refine ⟨fun _ => ?_, fun _ => ⟨_, rfl⟩⟩
    simp only [Bool.or_eq_true, decide_eq_true_eq] at hlength
    exact hlength.elim .inl fun hmax => .inr (.inl hmax)
  next hlength =>
    simp only [Bool.or_eq_true, decide_eq_true_eq, not_or] at hlength
    split
    next hhits => exact ⟨fun _ => .inr (.inr (.inl hhits)), fun _ => ⟨_, rfl⟩⟩
    next hhits =>
      split
      next hbad => exact ⟨fun _ => .inr (.inr (.inr (by simpa using hbad))), fun _ => ⟨_, rfl⟩⟩
      next hgood =>
        refine ⟨fun ⟨e, he⟩ => (by cases he), fun hwrong => ?_⟩
        rcases hwrong with hmin | hmax | hhit | hbad
        . exact absurd hmin hlength.1
        . exact absurd hmax hlength.2
        . exact absurd hhit hhits
        . exact absurd hbad (by simpa using hgood)

theorem hitsReservedUsername_iff : hitsReservedUsername x username = true
    ↔ Forbidden ((normalizeUsername x username).toList.filter x.isAlphanumeric)
      ∨ Forbidden (((normalizeUsername x username).toList.map unleet).filter x.isAlphanumeric) := by
  have hne (cs : List Char) : (String.ofList cs ≠ "") ↔ cs ≠ [] := by
    rw [Ne, ← String.toList_inj, String.toList_ofList]
    rfl
  simp only [hitsReservedUsername, reservedUsernameKeys, Forbidden, List.any_cons, List.any_nil, Bool.or_false,
    Bool.or_eq_true, Bool.and_eq_true, decide_eq_true_eq, hne, List.contains_iff_mem, List.any_eq_true]

theorem refuses_iff : Refuses x username ↔ ∃ e, validateUsername x username = .error e := by
  refine ⟨And.right, fun h => ⟨?_, h⟩⟩
  have hmax : usernameRegisterMax ≤ usernameMax := by decide
  exact validateUsernameWithMax_error_iff.2
    ((validateUsernameWithMax_error_iff.1 h).imp_right (Or.imp_left fun hlong => Nat.lt_of_le_of_lt hmax hlong))

end Refusals

namespace Disguise

section Readings

variable (hx : CharacterTables x lowerChar) (h : Disguise lowerChar username reserved)
include hx h

theorem filter_lowered {p : Char → Bool} (hp : p ' ' = false)
    : (username.toList.flatMap lowerChar).filter p = (normalizeUsername x username).toList.filter p := by
  obtain ⟨-, -, before, after, hlower, hbefore, hafter⟩ := h.exists_normal hx
  have hnone (blanks : List Char) (hblanks : ∀ c ∈ blanks, c = ' ') : blanks.filter p = [] :=
    List.filter_eq_nil_iff.2 fun c hc => by simp [hblanks c hc, hp]
  rw [hlower, List.filter_append, List.filter_append, hnone before hbefore, hnone after hafter, List.nil_append,
    List.append_nil]

theorem mem_lowered {c : Char} (hc : c ≠ ' ')
    : c ∈ username.toList.flatMap lowerChar ↔ c ∈ (normalizeUsername x username).toList := by
  have hfilter (cs : List Char) : c ∈ cs ↔ c ∈ cs.filter (fun d => d == c) := by
    rw [List.mem_filter, beq_self_eq_true, and_iff_left rfl]
  rw [hfilter, h.filter_lowered (p := fun d => d == c) hx (beq_false_of_ne hc.symm), ← hfilter]

theorem separatorsDropped_eq : separatorsDropped lowerChar username
    = (normalizeUsername x username).toList.filter x.isAlphanumeric := by
  rw [separatorsDropped, h.filter_lowered hx (by decide)]
  exact List.filter_congr fun c hc => (hx.alphanumeric c (ascii_of_plain c (h.plain_normal hx c hc)).1).symm

theorem lookAlikesRead_eq : lookAlikesRead lowerChar username
    = ((normalizeUsername x username).toList.map unleet).filter x.isAlphanumeric := by
  rw [lookAlikesRead, List.filter_map, List.filter_map, h.filter_lowered hx (by decide)]
  refine congrArg (List.map unleet) (List.filter_congr fun c hc => ?_)
  exact (hx.alphanumeric _ (ascii_of_plain c (h.plain_normal hx c hc)).2).symm

theorem all_isUsernameChar_eq_false : (normalizeUsername x username).toList.all (isUsernameChar x) = false
    ↔ '|' ∈ username.toList.flatMap lowerChar ∨ '$' ∈ username.toList.flatMap lowerChar := by
  rw [h.mem_lowered hx (by decide), h.mem_lowered hx (by decide), List.all_eq_false]
  constructor
  . rintro ⟨c, hc, hbad⟩
    rw [isUsernameChar_of_plain hx (h.plain_normal hx c hc), not_and_or, not_not, not_not] at hbad
    rcases hbad with rfl | rfl
    . exact .inl hc
    . exact .inr hc
  . rintro (hc | hc)
    all_goals
      refine ⟨_, hc, fun hgood => ?_⟩
      have hgood := (isUsernameChar_of_plain hx (h.plain_normal hx _ hc)).1 hgood
    . exact hgood.1 rfl
    . exact hgood.2 rfl

end Readings

section Regular

variable (h : Disguise lowerChar username reserved)
include h

theorem forbidden : Forbidden reserved.toList := by
  have hne : ∀ name ∈ reservedUsernames, name.toList ≠ [] := by decide
  refine ⟨hne reserved h.isReserved, .inl ?_⟩
  rw [String.ofList_toList]
  exact h.isReserved

theorem isAsciiAlphanumeric_of_mem : ∀ c ∈ reserved.toList, Text.isAsciiAlphanumeric c = true := by
  have hletters : ∀ c ∈ smallLetters, Text.isAsciiAlphanumeric c = true :=
    List.all_iff_forall_prop.1 (by decide +kernel)
  exact fun c hc => hletters c (h.letters c hc)

theorem givesAway_of_read (hx : CharacterTables x lowerChar)
    (hreads : Reads (fun c => c ∈ acceptedMarks ∧ c ∉ Lqxp.lookAlikes) (fun c => (lowerChar c).map unleet)
      username.toList reserved.toList) : GivesAway lowerChar username := by
  have hmarks : ∀ c ∈ acceptedMarks, c ∉ Lqxp.lookAlikes → Text.isAsciiAlphanumeric (unleet c) = false :=
    List.all_iff_forall_prop.1 (by decide +kernel)
  have hreading := hreads.filter_flatMap_eq (p := Text.isAsciiAlphanumeric) (fun c hc d hd => ?_)
    h.isAsciiAlphanumeric_of_mem
  . refine .lookAlikes ?_
    rw [lookAlikesRead, List.map_flatMap, hreading]
    exact h.forbidden
  . rw [lowerChar_of_plain hx (mem_plainChars.2 (.inr hc.1)), List.map_singleton, List.mem_singleton] at hd
    rw [hd]
    exact hmarks c hc.1 hc.2

theorem givesAway_of_dropped (hx : CharacterTables x lowerChar)
    (hreads : Reads (· ∈ acceptedMarks) lowerChar username.toList reserved.toList) : GivesAway lowerChar username := by
  have hmarks : ∀ c ∈ acceptedMarks, Text.isAsciiAlphanumeric c = false :=
    List.all_iff_forall_prop.1 (by decide +kernel)
  have hreading := hreads.filter_flatMap_eq (p := Text.isAsciiAlphanumeric) (fun c hc d hd => ?_)
    h.isAsciiAlphanumeric_of_mem
  . refine .separators ?_
    rw [separatorsDropped, hreading]
    exact h.forbidden
  . rw [lowerChar_of_plain hx (mem_plainChars.2 (.inr hc)), List.mem_singleton] at hd
    rw [hd]
    exact hmarks c hc

end Regular

end Disguise

/--
A disguise is refused exactly when something gives it away: a name in which one mark is left out and another is read
as a letter can pass.
-/
theorem refusesDisguise_iff (hx : CharacterTables x lowerChar) (h : Disguise lowerChar username reserved)
    : Refuses x username ↔ GivesAway lowerChar username := by
  have hself : normalizeUsername x (normalizeUsername x username) = normalizeUsername x username :=
    normalizeUsername_of_plain hx (h.plain_normal hx) (h.trim_normal hx)
  rw [refuses_iff, validateUsername, validateUsernameWithMax_error_iff, hitsReservedUsername_iff, hself,
    h.all_isUsernameChar_eq_false hx, ← h.separatorsDropped_eq hx, ← h.lookAlikesRead_eq hx, (h.exists_normal hx).1]
  constructor
  . rintro (hshort | hlong | (hsep | hlook) | (hbar | hdollar))
    . exact .short hshort
    . exact .long hlong
    . exact .separators hsep
    . exact .lookAlikes hlook
    . exact .bar hbar
    . exact .dollar hdollar
  . intro haway
    cases haway with
    | short h => exact .inl h
    | long h => exact .inr (.inl h)
    | bar h => exact .inr (.inr (.inr (.inl h)))
    | dollar h => exact .inr (.inr (.inr (.inr h)))
    | separators h => exact .inr (.inr (.inl (.inl h)))
    | lookAlikes h => exact .inr (.inr (.inl (.inr h)))

section Ascii

def asciiLowerChar (c : Char) : List Char := if c = 'Σ' then ['σ'] else [Text.toAsciiLowerChar c]

/--
A standard library for ASCII and one Greek letter.
-/
def asciiExternals : Externals where
  hashSecret _ secret := secret
  verifySecret secret hash := secret = hash
  isAlphanumeric := Text.isAsciiAlphanumeric
  sqlLower := Text.toAsciiLower
  sqlLike pattern text := pattern = text
  blocklistTerms := []
  toLowercase s := String.ofList (s.toList.flatMap asciiLowerChar)

theorem characterTables_ascii : CharacterTables asciiExternals asciiLowerChar where
  lower _ _ := rfl
  sigma := rfl
  ne_nil c := by
    rw [asciiLowerChar]
    split <;> exact List.cons_ne_nil _ _
  ascii c hc := by
    rw [asciiLowerChar, if_neg]
    rintro rfl
    exact absurd hc (by decide)
  whitespace c hc := by
    have hne : c ≠ 'Σ' := by
      rintro rfl
      exact absurd hc (by decide)
    have hcapital : ¬('A' ≤ c && c ≤ 'Z') = true := by
      rw [Bool.and_eq_true_iff, decide_eq_true_eq, decide_eq_true_eq]
      rintro ⟨hle : 65 ≤ c.toNat, hge : c.toNat ≤ 90⟩
      simp only [Text.isWhitespace, Bool.or_eq_true, Bool.and_eq_true, decide_eq_true_eq, List.contains_iff_mem,
        List.mem_cons, List.not_mem_nil, or_false] at hc
      omega
    rw [asciiLowerChar, if_neg hne, Text.toAsciiLowerChar, if_neg hcapital]
  alphanumeric _ _ := rfl

theorem disguise_adm1n : Disguise asciiLowerChar "!adm1n" "admin" where
  isReserved := by decide
  letters := List.all_iff_forall_prop.1 (by decide)
  reads := .drop (by decide) (.read_single (by decide) (.read_single (by decide) (.read_single (by decide)
    (.read_single (by decide) (.read_single (by decide) .nil)))))

theorem not_refuses_adm1n : CharacterTables asciiExternals asciiLowerChar ∧ Disguise asciiLowerChar "!adm1n" "admin"
    ∧ ¬Refuses asciiExternals "!adm1n" := by
  refine ⟨characterTables_ascii, disguise_adm1n, ?_⟩
  have hpasses : validateRegistrationUsername asciiExternals "!adm1n" = .ok "!adm1n" := rfl
  rintro ⟨⟨e, he⟩, -⟩
  rw [hpasses] at he
  cases he

theorem refusesDisguise_iff_adm1n : (Refuses asciiExternals "adm1n" ↔ GivesAway asciiLowerChar "adm1n")
    ∧ GivesAway asciiLowerChar "adm1n" := by
  have hdisguise : Disguise asciiLowerChar "adm1n" "admin" :=
    { isReserved := by decide
      letters := List.all_iff_forall_prop.1 (by decide)
      reads := .read_single (by decide) (.read_single (by decide) (.read_single (by decide)
        (.read_single (by decide) (.read_single (by decide) .nil)))) }
  exact ⟨refusesDisguise_iff characterTables_ascii hdisguise,
    hdisguise.givesAway_of_read characterTables_ascii (.read_single (by decide) (.read_single (by decide)
      (.read_single (by decide) (.read_single (by decide) (.read_single (by decide) .nil)))))⟩

end Ascii

end Lqxp
