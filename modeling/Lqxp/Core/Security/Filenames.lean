import Lqxp.Core.Security
import Lqxp.Data.Fields

/-!
This module contains the proof of what the normalization of file names makes of a value, and for which values that is a
name in normal form.
-/

namespace Lqxp

/--
A name of a file in normal form. What counts as space at its ends is given by `space`.
-/
structure IsCleanName (space : Char → Bool) (maxLen : Nat) (name : String) : Prop where
  ne_empty : name ≠ ""
  length_le : name.toList.length ≤ maxLen
  unreserved : ∀ c ∈ name.toList, isReservedFilenameChar c = false
  trimmed : Text.Trimmed (fun c => c = '.' || space c) name.toList

/--
White space that is no control character, so that it is not replaced.
-/
def isPlainSpace (c : Char) : Bool := Text.isWhitespace c && !Text.isControl c

/--
The characters that are to be removed at the ends of a name.
-/
def isEdgeChar (c : Char) : Bool := c = '.' || isPlainSpace c

/--
What a value consists of: a name, and around it plain white space, then dots, then white space of any kind. What lies
between the white space on the outside neither begins nor ends with white space.
-/
structure Layers (value : List Char) where
  outerFront : List Char
  dotsFront : List Char
  spacesFront : List Char
  name : List Char
  spacesBack : List Char
  dotsBack : List Char
  outerBack : List Char
  value_eq : value = outerFront ++ (dotsFront ++ (spacesFront ++ name ++ spacesBack) ++ dotsBack) ++ outerBack
  outer : ∀ c ∈ outerFront ++ outerBack, Text.isWhitespace c
  dots : ∀ c ∈ dotsFront ++ dotsBack, c = '.'
  spaces : ∀ c ∈ spacesFront ++ spacesBack, isPlainSpace c
  trimmed : Text.Trimmed Text.isWhitespace (dotsFront ++ (spacesFront ++ name ++ spacesBack) ++ dotsBack)

section Characters

def filenameChar (c : Char) : Char := if isReservedFilenameChar c then '_' else c

theorem isPlainSpace_of_isReserved {c : Char} (h : isReservedFilenameChar c) : isPlainSpace c = false := by
  have hall : (['/', '\\', ':', '*', '?', '"', '<', '>', '|'].all fun c => !isPlainSpace c) = true := by decide
  rw [isReservedFilenameChar, Bool.or_eq_true, List.contains_iff_mem] at h
  cases h with
  | inl hcontrol => rw [isPlainSpace, hcontrol, Bool.not_true, Bool.and_false]
  | inr hmem =>
    have hplain := List.all_eq_true.1 hall c hmem
    rwa [Bool.not_eq_true'] at hplain

theorem isWhitespace_filenameChar (c : Char) : Text.isWhitespace (filenameChar c) = isPlainSpace c := by
  rw [filenameChar]
  split
  next hreserved =>
    rw [isPlainSpace_of_isReserved hreserved]
    decide
  next hnot =>
    rw [isReservedFilenameChar, Bool.or_eq_true, not_or, Bool.not_eq_true] at hnot
    rw [isPlainSpace, hnot.1, Bool.not_false, Bool.and_true]

theorem filenameChar_eq_dot_iff (c : Char) : filenameChar c = '.' ↔ c = '.' := by
  rw [filenameChar]
  split
  next hreserved =>
    constructor
    . intro hdot
      contradiction
    . intro hdot
      rw [hdot] at hreserved
      contradiction
  next => rfl

theorem not_isReserved_filenameChar (c : Char) : isReservedFilenameChar (filenameChar c) = false := by
  rw [filenameChar]
  split
  . decide
  next hnot => rwa [Bool.not_eq_true] at hnot

theorem filenameChar_of_not_isReserved {c : Char} (h : isReservedFilenameChar c = false) : filenameChar c = c := by
  rw [filenameChar, h]
  simp

theorem trimmed_map_iff (cs : List Char)
    : Text.Trimmed (fun c => c = '.' || Text.isWhitespace c) (cs.map filenameChar) ↔ Text.Trimmed isEdgeChar cs := by
  have hchar (c : Char) : (decide (filenameChar c = '.') || Text.isWhitespace (filenameChar c)) = isEdgeChar c := by
    rw [isWhitespace_filenameChar, isEdgeChar]
    simp only [filenameChar_eq_dot_iff]
  constructor
  . intro h
    constructor
    . intro c hc
      rw [← hchar]
      apply h.head
      simp [Option.mem_def.1 hc]
    . intro c hc
      rw [← hchar]
      apply h.last
      simp [Option.mem_def.1 hc]
  . intro h
    constructor
    . intro c hc
      rw [List.head?_map, Option.mem_def, Option.map_eq_some_iff] at hc
      obtain ⟨d, hd, rfl⟩ := hc
      rw [hchar]
      apply h.head _ hd
    . intro c hc
      rw [List.getLast?_map, Option.mem_def, Option.map_eq_some_iff] at hc
      obtain ⟨d, hd, rfl⟩ := hc
      rw [hchar]
      apply h.last _ hd

theorem isDot_map {dots : List Char} (h : ∀ c ∈ dots, c = '.') : ∀ c ∈ dots.map filenameChar, decide (c = '.') := by
  intro c hc
  obtain ⟨d, hd, rfl⟩ := List.mem_map.1 hc
  rw [decide_eq_true_eq, filenameChar_eq_dot_iff]
  apply h d hd

theorem isSpace_map {spaces : List Char} (h : ∀ c ∈ spaces, isPlainSpace c)
    : ∀ c ∈ spaces.map filenameChar, Text.isWhitespace c ∧ decide (c = '.') = false := by
  intro c hc
  obtain ⟨d, hd, rfl⟩ := List.mem_map.1 hc
  have hspace := h d hd
  constructor
  . rwa [isWhitespace_filenameChar]
  . rw [decide_eq_false_iff_not, filenameChar_eq_dot_iff]
    intro hdot
    rw [hdot] at hspace
    contradiction

end Characters

section Stripping

def strippedName (value : String) : String :=
  Text.trim (Text.trimMatches (· = '.') (String.ofList ((Text.trim value).toList.map filenameChar)))

theorem sanitizeFilename_eq (value fallback : String) (maxLen : Nat)
    : sanitizeFilename value fallback maxLen
        = Text.takeChars maxLen (if strippedName value = "" then fallback else strippedName value) := rfl

theorem not_isReserved_of_mem_strippedName {value : String} {c : Char} (h : c ∈ (strippedName value).toList)
    : isReservedFilenameChar c = false := by
  have hsub (p : Char → Bool) (s : String) {c : Char} (hc : c ∈ (Text.trimMatches p s).toList) : c ∈ s.toList := by
    obtain ⟨before, after, hs, -, -⟩ := Text.exists_append_trimMatches p s
    simp [hs, hc]
  have hmem := hsub _ _ (hsub _ _ h)
  rw [String.toList_ofList] at hmem
  obtain ⟨d, -, rfl⟩ := List.mem_map.1 hmem
  apply not_isReserved_filenameChar

theorem sanitizeFilename_eq_self {name fallback : String} {maxLen : Nat}
    (h : IsCleanName Text.isWhitespace maxLen name)
    : sanitizeFilename name fallback maxLen = name := by
  obtain ⟨hdot, hspace⟩ := Text.trimmed_or_iff.1 h.trimmed
  have htrim : Text.trim name = name := Text.trim_eq_self hspace
  have hid : ∀ c ∈ name.toList, filenameChar c = id c := by
    intro c hc
    apply filenameChar_of_not_isReserved (h.unreserved c hc)
  have hstripped : strippedName name = name := by
    rw [strippedName, htrim, List.map_congr_left hid, List.map_id, String.ofList_toList, hdot.trimMatches_eq_self,
      htrim]
  rw [sanitizeFilename_eq, hstripped, if_neg h.ne_empty, Text.takeChars, List.take_of_length_le h.length_le,
    String.ofList_toList]

theorem IsCleanName.maxLen_pos {space : Char → Bool} {maxLen : Nat} {name : String} (h : IsCleanName space maxLen name)
    : 0 < maxLen := by
  have hpos : 0 < name.toList.length := by
    rw [List.length_pos_iff, ne_eq, String.toList_eq_nil_iff]
    apply h.ne_empty
  have := h.length_le
  omega

theorem isCleanName_sanitizeFilename_iff {fallback : String} {maxLen : Nat}
    (hfallback : IsCleanName (· = ' ') maxLen fallback) (value : String)
    : IsCleanName Text.isWhitespace maxLen (sanitizeFilename value fallback maxLen)
        ↔ Text.Trimmed (fun c => c = '.' || Text.isWhitespace c) (sanitizeFilename value fallback maxLen).toList := by
  constructor
  . intro h
    apply h.trimmed
  . intro h
    refine ⟨?_, ?_, ?_, h⟩
    . intro hempty
      rw [sanitizeFilename_eq, Text.takeChars, String.ofList_eq_empty_iff, List.take_eq_nil_iff,
        String.toList_eq_nil_iff] at hempty
      have hnil := hempty.resolve_left (Nat.ne_of_gt hfallback.maxLen_pos)
      split at hnil
      . apply hfallback.ne_empty hnil
      . contradiction
    . rw [sanitizeFilename_eq, Text.takeChars, String.toList_ofList]
      apply List.length_take_le
    . intro c hc
      rw [sanitizeFilename_eq, Text.takeChars, String.toList_ofList] at hc
      have hmem := List.mem_of_mem_take hc
      split at hmem
      . apply hfallback.unreserved c hmem
      . apply not_isReserved_of_mem_strippedName hmem

theorem exists_layers (value : String)
    : ∃ l : Layers value.toList, (strippedName value).toList = l.name.map filenameChar := by
  obtain ⟨outerFront, outerBack, hvalue, houterFront, houterBack⟩ := Text.exists_append_trim value
  obtain ⟨dotsFront', dotsBack', hdotted, hdotsFront, hdotsBack⟩ :=
    Text.exists_append_trimMatches (· = '.') (String.ofList ((Text.trim value).toList.map filenameChar))
  obtain ⟨spacesFront', spacesBack', hspaced, hspacesFront, hspacesBack⟩ := Text.exists_append_trim
    (Text.trimMatches (· = '.') (String.ofList ((Text.trim value).toList.map filenameChar)))
  -- The layers of the written text are written for layers of the value.
  rw [hspaced, String.toList_ofList] at hdotted
  obtain ⟨rest, dotsBack, hlayers, hwritten, rfl⟩ := List.map_eq_append_iff.1 hdotted
  obtain ⟨dotsFront, rest', rfl, rfl, hwritten'⟩ := List.map_eq_append_iff.1 hwritten
  obtain ⟨rest'', spacesBack, rfl, hwritten'', rfl⟩ := List.map_eq_append_iff.1 hwritten'
  obtain ⟨spacesFront, name, rfl, rfl, hname⟩ := List.map_eq_append_iff.1 hwritten''
  refine ⟨⟨outerFront, dotsFront, spacesFront, name, spacesBack, dotsBack, outerBack, ?_, ?_, ?_, ?_, ?_⟩, hname.symm⟩
  . rw [← hlayers]
    apply hvalue
  . rw [List.forall_mem_append]
    exact ⟨houterFront, houterBack⟩
  . rw [List.forall_mem_append]
    constructor
    . intro c hc
      rw [← filenameChar_eq_dot_iff]
      apply of_decide_eq_true (hdotsFront _ (List.mem_map_of_mem hc))
    . intro c hc
      rw [← filenameChar_eq_dot_iff]
      apply of_decide_eq_true (hdotsBack _ (List.mem_map_of_mem hc))
  . rw [List.forall_mem_append]
    constructor
    . intro c hc
      rw [← isWhitespace_filenameChar]
      apply hspacesFront _ (List.mem_map_of_mem hc)
    . intro c hc
      rw [← isWhitespace_filenameChar]
      apply hspacesBack _ (List.mem_map_of_mem hc)
  . rw [← hlayers]
    apply Text.trimmed_trimMatches

end Stripping

namespace Layers

variable {value : String} {maxLen : Nat} (l : Layers value.toList)

theorem toList_trim
    : (Text.trim value).toList = l.dotsFront ++ (l.spacesFront ++ l.name ++ l.spacesBack) ++ l.dotsBack := by
  obtain ⟨hfront, hback⟩ := List.forall_mem_append.1 l.outer
  apply l.trimmed.toList_trimMatches l.value_eq hfront hback

theorem strippedName_of_nil (hname : l.name = []) : strippedName value = "" := by
  obtain ⟨hdotsFront, hdotsBack⟩ := List.forall_mem_append.1 l.dots
  have hspaces := isSpace_map l.spaces
  have hdotted : (Text.trimMatches (· = '.') (String.ofList ((Text.trim value).toList.map filenameChar))).toList
      = (l.spacesFront ++ l.spacesBack).map filenameChar := by
    have hsolid := Text.trimmed_of_forall fun c hc => (hspaces c hc).2
    apply hsolid.toList_trimMatches _ (isDot_map hdotsFront) (isDot_map hdotsBack)
    rw [String.toList_ofList, l.toList_trim, hname, List.append_nil, List.map_append, List.map_append]
  have hdropped : ((l.spacesFront ++ l.spacesBack).map filenameChar).dropWhile Text.isWhitespace = [] := by
    rw [List.dropWhile_eq_nil_iff]
    intro c hc
    apply (hspaces c hc).1
  rw [← String.toList_eq_nil_iff, strippedName, Text.trim, Text.toList_trimMatches, hdotted, hdropped,
    List.rdropWhile_nil]

theorem toList_strippedName (hkept : Text.Trimmed isEdgeChar (l.name.take maxLen)) (hne : l.name.take maxLen ≠ [])
    : ∃ more, (strippedName value).toList = (l.name.take maxLen).map filenameChar ++ more
      ∧ (l.name.drop maxLen = [] → more = []) := by
  obtain ⟨hdotsFront, hdotsBack⟩ := List.forall_mem_append.1 l.dots
  obtain ⟨hspacesFront, hspacesBack⟩ := List.forall_mem_append.1 l.spaces
  rw [← trimmed_map_iff, Text.trimmed_or_iff] at hkept
  have hne' : (l.name.take maxLen).map filenameChar ≠ [] := by
    rwa [ne_eq, List.map_eq_nil_iff]
  have hwritten : (Text.trim value).toList.map filenameChar = l.dotsFront.map filenameChar
      ++ ((l.spacesFront.map filenameChar ++ (l.name.take maxLen).map filenameChar)
        ++ (l.name.drop maxLen ++ l.spacesBack ++ l.dotsBack).map filenameChar) := by
    have hname : l.name.map filenameChar
        = (l.name.take maxLen).map filenameChar ++ (l.name.drop maxLen).map filenameChar := by
      rw [← List.map_append, List.take_append_drop]
    rw [l.toList_trim]
    simp only [List.map_append, hname, List.append_assoc]
  have hdots := hkept.1.append_left hne' fun c hc => (isSpace_map hspacesFront c hc).2
  rw [strippedName, Text.trim, Text.toList_trimMatches, Text.toList_trimMatches, String.toList_ofList, hwritten]
  rw [hdots.trim_append (List.append_ne_nil_of_right_ne_nil _ hne') (isDot_map hdotsFront), List.append_assoc]
  rw [hkept.2.trim_append hne' fun c hc => (isSpace_map hspacesFront c hc).1]
  refine ⟨_, rfl, ?_⟩
  -- Behind a name that is not cut there are only layers.
  intro hdrop
  rw [hdrop, List.nil_append, List.map_append, Text.rdropWhile_append_of_pos (isDot_map hdotsBack),
    List.rdropWhile_eq_nil_iff]
  intro c hc
  apply (isSpace_map hspacesBack c _).1
  apply (List.rdropWhile_prefix _ _).subset hc

theorem toList_sanitizeFilename (hkept : Text.Trimmed isEdgeChar (l.name.take maxLen)) (hname : l.name ≠ [])
    (hmax : 0 < maxLen) (fallback : String)
    : (sanitizeFilename value fallback maxLen).toList = (l.name.take maxLen).map filenameChar := by
  have hne : l.name.take maxLen ≠ [] := by
    rw [ne_eq, List.take_eq_nil_iff, not_or]
    exact ⟨by omega, hname⟩
  obtain ⟨more, hmore, hend⟩ := l.toList_strippedName hkept hne
  have hstripped : strippedName value ≠ "" := by
    rw [ne_eq, ← String.toList_eq_nil_iff, hmore, List.append_eq_nil_iff, List.map_eq_nil_iff]
    intro hnil
    apply hne hnil.1
  rw [sanitizeFilename_eq, if_neg hstripped, Text.takeChars, String.toList_ofList, hmore]
  by_cases hdrop : l.name.drop maxLen = []
  . rw [hend hdrop, List.append_nil, List.take_of_length_le]
    rw [List.length_map]
    apply List.length_take_le
  . rw [List.drop_eq_nil_iff] at hdrop
    apply List.take_left'
    rw [List.length_map, List.length_take]
    omega

end Layers

/--
A name comes out in normal form if and only if its value has dots and white space around it only in layers that are
removed, and is not cut behind a dot or white space.
-/
theorem sanitizeFilename_normalized_iff {fallback : String} {maxLen : Nat}
    (hfallback : IsCleanName (· = ' ') maxLen fallback) (value : String)
    : (IsCleanName Text.isWhitespace maxLen (sanitizeFilename value fallback maxLen)
          ∧ sanitizeFilename (sanitizeFilename value fallback maxLen) fallback maxLen
            = sanitizeFilename value fallback maxLen)
        ↔ ∃ l : Layers value.toList, Text.Trimmed isEdgeChar (l.name.take maxLen)
          ∧ (l.name = [] → Text.Trimmed Text.isWhitespace fallback.toList) := by
  rw [and_iff_left_of_imp sanitizeFilename_eq_self, isCleanName_sanitizeFilename_iff hfallback]
  have hfallen (l : Layers value.toList) (hname : l.name = []) : sanitizeFilename value fallback maxLen = fallback := by
    rw [sanitizeFilename_eq, if_pos (l.strippedName_of_nil hname), Text.takeChars,
      List.take_of_length_le hfallback.length_le, String.ofList_toList]
  constructor
  . intro h
    obtain ⟨l, hl⟩ := exists_layers value
    refine ⟨l, ?_, ?_⟩
    . by_cases hname : l.name = []
      . rw [hname, List.take_nil]
        apply Text.trimmed_of_forall
        simp
      . have hstripped : strippedName value ≠ "" := by
          rw [ne_eq, ← String.toList_eq_nil_iff, hl, List.map_eq_nil_iff]
          assumption
        rw [sanitizeFilename_eq, if_neg hstripped, Text.takeChars, String.toList_ofList, hl, ← List.map_take] at h
        rwa [trimmed_map_iff] at h
    . intro hname
      rw [hfallen l hname, Text.trimmed_or_iff] at h
      apply h.2
  . intro ⟨l, hkept, hspace⟩
    by_cases hname : l.name = []
    . rw [hfallen l hname, Text.trimmed_or_iff]
      exact ⟨(Text.trimmed_or_iff.1 hfallback.trimmed).1, hspace hname⟩
    . rwa [l.toList_sanitizeFilename hkept hname hfallback.maxLen_pos, trimmed_map_iff]

theorem isCleanName_file : IsCleanName (· = ' ') 128 "file" where
  ne_empty := by decide
  length_le := by decide
  unreserved := by
    simp only [← Bool.not_eq_true', ← List.all_eq_true]
    decide
  trimmed := by decide

/--
White space and dots around a name are removed, and a question mark in it is replaced.
-/
theorem sanitizeFilename_normalized_iff_report
    : sanitizeFilename " ..report?.pdf. " "file" 128 = "report_.pdf"
        ∧ IsCleanName Text.isWhitespace 128 (sanitizeFilename " ..report?.pdf. " "file" 128)
        ∧ sanitizeFilename (sanitizeFilename " ..report?.pdf. " "file" 128) "file" 128
          = sanitizeFilename " ..report?.pdf. " "file" 128 := by
  let l : Layers " ..report?.pdf. ".toList := {
    outerFront := [' '], dotsFront := ['.', '.'], spacesFront := [], name := "report?.pdf".toList, spacesBack := [],
    dotsBack := ['.'], outerBack := [' '], value_eq := by decide +kernel, outer := List.all_eq_true.1 (by decide),
    dots := by simp, spaces := by simp, trimmed := by decide +kernel }
  have hkept : Text.Trimmed isEdgeChar (l.name.take 128) := by decide +kernel
  constructor
  . decide +kernel
  . apply (sanitizeFilename_normalized_iff isCleanName_file _).2
    refine ⟨l, hkept, ?_⟩
    intro hnil
    apply absurd hnil
    decide +kernel

/--
A dot comes to light when the dots and the white space in front of it are removed.
-/
theorem not_sanitizeFilename_normalized
    : ¬ ∀ value fallback maxLen, 1 ≤ maxLen → IsCleanName (· = ' ') maxLen fallback →
      IsCleanName Text.isWhitespace maxLen (sanitizeFilename value fallback maxLen)
        ∧ sanitizeFilename (sanitizeFilename value fallback maxLen) fallback maxLen
          = sanitizeFilename value fallback maxLen := by
  intro h
  have hprofile : sanitizeFilename ". .profile" "file" 128 = ".profile" := by decide +kernel
  have hagain : sanitizeFilename ".profile" "file" 128 = "profile" := by decide +kernel
  have hsame := (h ". .profile" "file" 128 (by decide) isCleanName_file).2
  rw [hprofile, hagain] at hsame
  contradiction

-- A name can also end with a dot because it is cut there.
example : sanitizeFilename "minutes.txt" "file" 8 = "minutes." := by decide +kernel

end Lqxp
