import Lqxp.Data.Text

/-!
This module contains what the preview of a link is made from: the search for the link of a message that is worth a
preview, and the attributes of its page, in which entities of HTML are decoded.
-/

namespace Lqxp

/--
The characters that end a link: white space and the delimiters of markup and of quotations.
-/
def endsUrl (c : Char) : Bool :=
  Text.isWhitespace c || [0x3C, 0x3E, 0x22, 0x27, 0x60, 0x5C].contains c.toNat

/--
The link at the start of a text, up to the character that ends it.
-/
def urlPrefix (cs : List Char) : Option (List Char) :=
  ["https://".toList, "http://".toList].findSome? fun scheme =>
    if scheme.isPrefixOf cs then
      let rest := (cs.drop scheme.length).takeWhile (!endsUrl ·)
      if rest.isEmpty then none else some (scheme ++ rest)
    else
      none

def findFirstUrl (text : String) : Option String := (go text.toList).map String.ofList
where
  go : List Char → Option (List Char)
    | [] => none
    | c :: cs => (urlPrefix (c :: cs)).or (go cs)

def decodeHtmlEntities (s : String) : String :=
  let s := Text.replaceStr "&amp;" "&" s
  let s := Text.replaceStr "&lt;" "<" s
  let s := Text.replaceStr "&gt;" ">" s
  let s := Text.replaceStr "&quot;" "\"" s
  let s := Text.replaceStr "&#39;" "'" s
  let s := Text.replaceStr "&#x27;" "'" s
  let s := Text.replaceStr "&apos;" "'" s
  Text.replaceStr "&nbsp;" " " s

/--
The value of an attribute of a tag, which stands in quotes.
-/
def extractAttr (tag attr : String) : Option String := do
  let needle := attr ++ "="
  let start ← Text.find (Text.toAsciiLower tag) needle
  match tag.toList.drop (start + needle.toList.length) with
  | [] => none
  | q :: slice =>
    if q ≠ '"' ∧ q ≠ '\'' then
      none
    else if slice.contains q then
      some (Text.trim (decodeHtmlEntities (String.ofList (slice.takeWhile (· ≠ q)))))
    else
      none

section Entities

/--
How a character is written in the text of a page.
-/
def htmlCode (c : Char) : List Char :=
  if c = '&' then "&amp;".toList
  else if c = '<' then "&lt;".toList
  else if c = '>' then "&gt;".toList
  else if c = '"' then "&quot;".toList
  else if c = '\'' then "&#39;".toList
  else [c]

def escapeHtml (s : String) : String := String.ofList (s.toList.flatMap htmlCode)

/--
The entity of the ampersand, without the sign that all of them begin with.
-/
def ampTail : List Char := ['a', 'm', 'p', ';']

/--
The entities of the other characters that are escaped.
-/
def markupEntities : List (List Char × List Char) :=
  [("&lt;".toList, ['<']), ("&gt;".toList, ['>']), ("&quot;".toList, ['"']), ("&#39;".toList, ['\''])]

def otherEntities : List (List Char × List Char) :=
  [("&#x27;".toList, ['\'']), ("&apos;".toList, ['\'']), ("&nbsp;".toList, [' '])]

theorem toList_decodeHtmlEntities (s : String)
    : (decodeHtmlEntities s).toList
        = Replacement.replaceEach (('&' :: ampTail, ['&']) :: (markupEntities ++ otherEntities)) s.toList := by
  simp [decodeHtmlEntities, Text.toList_replaceStr, Replacement.replaceEach, ampTail, markupEntities, otherEntities]

theorem codes_markupEntities : Replacement.Codes '&' markupEntities := by decide +kernel

theorem apart_ampTail : ∀ e ∈ markupEntities, ¬ '&' :: ampTail <+: e.1 ∧ ¬ e.1 <+: '&' :: ampTail := by
  simp [ampTail, markupEntities]

theorem htmlCode_eq : htmlCode = Replacement.codeOf (('&' :: ampTail, ['&']) :: markupEntities) := by
  funext c
  simp only [htmlCode, markupEntities, Replacement.codeOf, List.singleton_inj, eq_comm (b := c)]
  rfl

theorem toList_decodeHtmlEntities_escapeHtml (s : String)
    : (decodeHtmlEntities (escapeHtml s)).toList
        = Replacement.replaceEach (markupEntities ++ otherEntities) s.toList := by
  rw [toList_decodeHtmlEntities, escapeHtml, String.toList_ofList, htmlCode_eq, Replacement.replaceEach_cons]
  rw [codes_markupEntities.replaceAll_mark apart_ampTail]
  rw [codes_markupEntities.replaceEach_flatMap]

theorem shortens_entities : Replacement.Shortens (markupEntities ++ otherEntities) := by
  unfold Replacement.Shortens
  decide +kernel

/--
An escaped text is decoded to the text again if and only if no other entity than that of the ampersand occurs in it.
-/
theorem decodeHtmlEntities_escapeHtml_iff (s : String)
    : decodeHtmlEntities (escapeHtml s) = s
        ↔ ∀ entity ∈ ["&lt;", "&gt;", "&quot;", "&#39;", "&#x27;", "&apos;", "&nbsp;"],
          Text.contains s entity = false := by
  rw [← String.toList_inj, toList_decodeHtmlEntities_escapeHtml, shortens_entities.replaceEach_eq_self_iff]
  simp only [markupEntities, otherEntities, List.cons_append, List.nil_append, List.forall_mem_cons,
    ← Bool.not_eq_true, Text.contains_iff_isInfix, List.not_mem_nil, false_implies, implies_true]

theorem not_decodeHtmlEntities_escapeHtml : ¬ ∀ s, decodeHtmlEntities (escapeHtml s) = s := by
  intro h
  have hlt : decodeHtmlEntities (escapeHtml "&lt;") = "<" := by decide +kernel
  have hsame := h "&lt;"
  rw [hlt] at hsame
  contradiction

end Entities

section Attributes

theorem quote_not_mem_escapeHtml (s : String) : '"' ∉ (escapeHtml s).toList := by
  have hcodes : ∀ e ∈ ('&' :: ampTail, ['&']) :: markupEntities, '"' ∉ e.1 := by simp [ampTail, markupEntities]
  rw [escapeHtml, String.toList_ofList, List.mem_flatMap]
  intro ⟨c, _, hc⟩
  rw [htmlCode_eq] at hc
  cases Replacement.codeOf_cases (('&' :: ampTail, ['&']) :: markupEntities) c with
  | inl hcode =>
    rw [hcode, List.mem_singleton] at hc
    rw [← hc] at hcode
    revert hcode
    decide +kernel
  | inr hcode =>
    obtain ⟨e, he, hcode⟩ := hcode
    rw [hcode] at hc
    apply hcodes e he hc

theorem extractAttr_written {before attr value after : String} {start : Nat}
    (hfind : Text.find (Text.toAsciiLower (before ++ "\"" ++ escapeHtml value ++ "\"" ++ after)) (attr ++ "=")
      = some start)
    (hstart : start + (attr ++ "=").toList.length = before.toList.length)
    : extractAttr (before ++ "\"" ++ escapeHtml value ++ "\"" ++ after) attr
        = some (Text.trim (decodeHtmlEntities (escapeHtml value))) := by
  have htag : (before ++ "\"" ++ escapeHtml value ++ "\"" ++ after).toList
      = before.toList ++ '"' :: ((escapeHtml value).toList ++ '"' :: after.toList) := by
    simp
  have hslice : ((escapeHtml value).toList ++ '"' :: after.toList).takeWhile (· ≠ '"') = (escapeHtml value).toList := by
    rw [List.takeWhile_append_of_pos]
    . simp
    . intro c hc
      rw [decide_eq_true_eq]
      intro hquote
      rw [hquote] at hc
      apply quote_not_mem_escapeHtml value hc
  rw [extractAttr, hfind, Option.bind_eq_bind, Option.bind_some, htag, hstart, List.drop_left]
  dsimp only
  rw [if_neg (by simp), if_pos (by simp), hslice, String.ofList_toList]

example : extractAttr "<META Property='og:title' content='a &lt; b '>" "content" = some "a < b" := by decide +kernel

end Attributes

end Lqxp
