import Lqxp.Core.Models
import Lqxp.Linkpreview
import Lqxp.Linkpreview.Targets

/-!
This module contains how the preview of a link is read off its page, and what it consists of: each part is the first
that the page offers for it, and none is longer than may be.
-/

namespace Lqxp

namespace Fetching

/--
A parsed link with its text.
-/
structure Link extends Url where
  text : String
  deriving DecidableEq

/--
The parser of links and what else the fetcher takes from elsewhere.
-/
structure Parsers where
  parseUrl : String → Option Link
  join : Link → String → Option Link
  /-- The address that a text is itself, so that it need not be resolved. -/
  socketAddr : String → Option SocketAddr
  fromUtf8Lossy : List UInt8 → String
  /-- The characters of words, in regular expressions. -/
  isWordChar : Char → Bool

section Tags

/--
A text begins with a piece in small letters, in letters of any size.
-/
def beginsWith (piece : String) (cs : List Char) : Bool :=
  (cs.take piece.toList.length).map Text.toAsciiLowerChar = piece.toList

variable (isWordChar : Char → Bool)

def metaTag (cs : List Char) : Option (List Char) :=
  let rest := cs.drop 5
  if beginsWith "<meta" cs && !rest.head?.any isWordChar && rest.contains '>' then
    some (cs.take 5 ++ rest.takeWhile (· ≠ '>') ++ ['>'])
  else
    none

/--
The tags of metadata of a page. After a tag that is found, the search goes on behind it.
-/
def metaTags (html : String) : List String := (go 0 html.toList).map String.ofList
where
  go : Nat → List Char → List (List Char)
    | _, [] => []
    | skip + 1, _ :: cs => go skip cs
    | 0, c :: cs =>
      match metaTag isWordChar (c :: cs) with
      | some tag => tag :: go (tag.length - 1) cs
      | none => go 0 cs

def beforeTitleEnd : List Char → Option (List Char)
  | [] => none
  | c :: cs => if beginsWith "</title>" (c :: cs) then some [] else (beforeTitleEnd cs).map (c :: ·)

def titleAt (cs : List Char) : Option (List Char) :=
  if beginsWith "<title" cs then
    match (cs.drop 6).dropWhile (· ≠ '>') with
    | [] => none
    | _ :: body => beforeTitleEnd body
  else
    none

def findTitle (html : String) : Option String := (go html.toList).map String.ofList
where
  go : List Char → Option (List Char)
    | [] => none
    | c :: cs => (titleAt (c :: cs)).or (go cs)

end Tags

section Impl

variable (parsers : Parsers)

def truncate (s : String) (maxChars : Nat) : String := Text.takeChars maxChars s

def titleProperties : List String := ["og:title", "twitter:title"]

def descriptionProperties : List String := ["og:description", "twitter:description", "description"]

def imageProperties : List String := ["og:image", "twitter:image", "twitter:image:src"]

def tagProperty (tag : String) : String :=
  (((extractAttr tag "property").or (extractAttr tag "name")).map Text.toAsciiLower).getD ""

def tagContent (tag : String) : String := (extractAttr tag "content").getD ""

def applyTag (base : Link) (preview : LinkPreview) (tag : String) : LinkPreview :=
  let prop := tagProperty tag
  let content := tagContent tag
  if content = "" then
    preview
  else if titleProperties.contains prop && preview.title = "" then
    { preview with title := truncate content 300 }
  else if descriptionProperties.contains prop && preview.description = "" then
    { preview with description := truncate content 500 }
  else if imageProperties.contains prop && preview.image = "" then
    match parsers.join base content with
    | some resolved =>
      if resolved.scheme = "http" || resolved.scheme = "https" then
        { preview with image := truncate resolved.text 600 }
      else
        preview
    | none => preview
  else if prop = "og:site_name" && preview.siteName = "" then
    { preview with siteName := truncate content 80 }
  else
    preview

/--
The title of the page itself, for a preview that has none.
-/
def titleFromPage (html : String) (preview : LinkPreview) : LinkPreview :=
  if preview.title = "" then
    match findTitle html with
    | some title => { preview with title := truncate (decodeHtmlEntities (Text.trim title)) 300 }
    | none => preview
  else
    preview

def parseOg (html : String) (base : Link) : Option LinkPreview :=
  let preview := (metaTags parsers.isWordChar html).foldl (applyTag parsers base) { url := base.text }
  let preview := titleFromPage html preview
  let preview := if preview.siteName = "" then { preview with siteName := base.hostStr.getD "" } else preview
  if preview.title = "" && preview.description = "" && preview.image = "" then none else some preview

end Impl

section Spec

/--
A part that is filled in unless it is there already.
-/
def fill (part offer : String) : String := if part = "" then offer else part

@[simp]
theorem fill_nil_left (offer : String) : fill "" offer = offer := if_pos rfl

@[simp]
theorem fill_nil_right (part : String) : fill part "" = part := by
  rw [fill]
  split
  next h => exact h.symm
  next => rfl

theorem fill_of_ne {part : String} (h : part ≠ "") (offer : String) : fill part offer = part := if_neg h

theorem fill_fill (part offer offer' : String) : fill (fill part offer) offer' = fill part (fill offer offer') := by
  by_cases h : part = ""
  . rw [h, fill_nil_left, fill_nil_left]
  . rw [fill_of_ne h, fill_of_ne h, fill_of_ne h]

def firstOffer (offers : List String) : String := (offers.find? (· ≠ "")).getD ""

theorem firstOffer_cons (offer : String) (offers : List String)
    : firstOffer (offer :: offers) = fill offer (firstOffer offers) := by
  by_cases h : offer = ""
  . rw [h, fill_nil_left, firstOffer, List.find?_cons_of_neg (by simp), firstOffer]
  . rw [fill_of_ne h, firstOffer, List.find?_cons_of_pos (by simp [h]), Option.getD_some]

variable (parsers : Parsers)

/--
What a tag offers for a part that some properties stand for.
-/
def offered (properties : List String) (limit : Nat) (tag : String) : String :=
  if properties.contains (tagProperty tag) then truncate (tagContent tag) limit else ""

/--
What a tag offers as an image: a link to the web.
-/
def offeredImage (base : Link) (tag : String) : String :=
  if imageProperties.contains (tagProperty tag) && tagContent tag ≠ "" then
    match parsers.join base (tagContent tag) with
    | some resolved => if resolved.scheme = "http" || resolved.scheme = "https" then truncate resolved.text 600 else ""
    | none => ""
  else
    ""

def pageTitle (html : String) : String :=
  ((findTitle html).map fun title => truncate (decodeHtmlEntities (Text.trim title)) 300).getD ""

def pagePreview (html : String) (base : Link) : LinkPreview where
  url := base.text
  title := fill (firstOffer ((metaTags parsers.isWordChar html).map (offered titleProperties 300))) (pageTitle html)
  description := firstOffer ((metaTags parsers.isWordChar html).map (offered descriptionProperties 500))
  image := firstOffer ((metaTags parsers.isWordChar html).map (offeredImage parsers base))
  siteName := fill (firstOffer ((metaTags parsers.isWordChar html).map (offered ["og:site_name"] 80)))
    (base.hostStr.getD "")

/--
A preview of which nothing can be shown.
-/
def IsBlank (preview : LinkPreview) : Prop := preview.title = "" ∧ preview.description = "" ∧ preview.image = ""

instance (preview : LinkPreview) : Decidable (IsBlank preview) :=
  inferInstanceAs (Decidable (preview.title = "" ∧ preview.description = "" ∧ preview.image = ""))

end Spec

section Refinement

variable {parsers : Parsers}

theorem apart_titleProperties : ∀ prop ∈ titleProperties,
    prop ∉ descriptionProperties ∧ prop ∉ imageProperties ∧ prop ≠ "og:site_name" := by
  decide

theorem apart_descriptionProperties : ∀ prop ∈ descriptionProperties,
    prop ∉ imageProperties ∧ prop ≠ "og:site_name" := by
  decide

theorem apart_imageProperties : ∀ prop ∈ imageProperties, prop ≠ "og:site_name" := by
  decide

theorem truncate_nil (n : Nat) : truncate "" n = "" := by
  rw [truncate, Text.takeChars, String.toList_empty, List.take_nil, String.ofList_nil]

theorem applyTag_eq (base : Link) (preview : LinkPreview) (tag : String)
    : applyTag parsers base preview tag
        = { url := preview.url
            title := fill preview.title (offered titleProperties 300 tag)
            description := fill preview.description (offered descriptionProperties 500 tag)
            image := fill preview.image (offeredImage parsers base tag)
            siteName := fill preview.siteName (offered ["og:site_name"] 80 tag) } := by
  by_cases hcontent : tagContent tag = ""
  . have hnone (properties : List String) (limit : Nat) : offered properties limit tag = "" := by
      rw [offered, hcontent, truncate_nil, ite_self]
    have himage : offeredImage parsers base tag = "" := by simp [offeredImage, hcontent]
    simp [applyTag, hcontent, hnone, himage]
  by_cases htitle : tagProperty tag ∈ titleProperties
  . obtain ⟨hdescription, himage, hsite⟩ := apart_titleProperties _ htitle
    by_cases hempty : preview.title = ""
    . simp [applyTag, offered, offeredImage, hcontent, htitle, hdescription, himage, hsite, hempty]
    . simp [applyTag, offered, offeredImage, hcontent, htitle, hdescription, himage, hsite, hempty, fill_of_ne]
  by_cases hdescription : tagProperty tag ∈ descriptionProperties
  . obtain ⟨himage, hsite⟩ := apart_descriptionProperties _ hdescription
    by_cases hempty : preview.description = ""
    . simp [applyTag, offered, offeredImage, hcontent, htitle, hdescription, himage, hsite, hempty]
    . simp [applyTag, offered, offeredImage, hcontent, htitle, hdescription, himage, hsite, hempty, fill_of_ne]
  by_cases himage : tagProperty tag ∈ imageProperties
  . have hsite := apart_imageProperties _ himage
    cases hjoin : parsers.join base (tagContent tag) with
    | none => simp [applyTag, offered, offeredImage, hcontent, htitle, hdescription, himage, hsite, hjoin]
    | some resolved =>
      by_cases hweb : resolved.scheme = "http" ∨ resolved.scheme = "https"
      . by_cases hempty : preview.image = ""
        . simp [applyTag, offered, offeredImage, hcontent, htitle, hdescription, himage, hsite, hjoin, hweb, hempty]
        . simp [applyTag, offered, offeredImage, hcontent, htitle, hdescription, himage, hsite, hempty, fill_of_ne]
      . simp [applyTag, offered, offeredImage, hcontent, htitle, hdescription, himage, hsite, hjoin, hweb]
  by_cases hsite : tagProperty tag = "og:site_name"
  . rw [hsite] at htitle hdescription himage
    by_cases hempty : preview.siteName = ""
    . simp [applyTag, offered, offeredImage, hcontent, htitle, hdescription, himage, hsite, hempty]
    . simp [applyTag, offered, offeredImage, hcontent, htitle, hdescription, himage, hsite, hempty, fill_of_ne]
  . simp [applyTag, offered, offeredImage, hcontent, htitle, hdescription, himage, hsite]

theorem foldl_applyTag (base : Link) (preview : LinkPreview) (tags : List String)
    : tags.foldl (applyTag parsers base) preview
        = { url := preview.url
            title := fill preview.title (firstOffer (tags.map (offered titleProperties 300)))
            description := fill preview.description (firstOffer (tags.map (offered descriptionProperties 500)))
            image := fill preview.image (firstOffer (tags.map (offeredImage parsers base)))
            siteName := fill preview.siteName (firstOffer (tags.map (offered ["og:site_name"] 80))) } := by
  induction tags generalizing preview with
  | nil => simp [firstOffer]
  | cons tag tags ih =>
    rw [List.foldl_cons, ih, applyTag_eq]
    simp only [fill_fill, List.map_cons, firstOffer_cons]

theorem titleFromPage_eq (html : String) (preview : LinkPreview)
    : titleFromPage html preview = { preview with title := fill preview.title (pageTitle html) } := by
  rw [titleFromPage, pageTitle]
  split
  next hempty =>
    cases findTitle html with
    | none => rw [Option.map_none, Option.getD_none, fill_nil_right]
    | some title => rw [hempty, fill_nil_left, Option.map_some, Option.getD_some]
  next hne => rw [fill_of_ne hne]

theorem siteName_eq (name : String) (preview : LinkPreview)
    : (if preview.siteName = "" then { preview with siteName := name } else preview)
        = { preview with siteName := fill preview.siteName name } := by
  split
  next hempty => rw [hempty, fill_nil_left]
  next hne => rw [fill_of_ne hne]

/--
What is read off a page is its preview, part by part, unless nothing of it can be shown.
-/
theorem parseOg_eq (html : String) (base : Link)
    : parseOg parsers html base
        = if IsBlank (pagePreview parsers html base) then none else some (pagePreview parsers html base) := by
  rw [parseOg, foldl_applyTag, titleFromPage_eq, siteName_eq]
  simp only [fill_nil_left]
  refine if_congr ?_ rfl rfl
  simp only [IsBlank, pagePreview, Bool.and_eq_true, decide_eq_true_eq, and_assoc]

end Refinement

section Bounds

variable {parsers : Parsers}

/--
The parts of the preview of a link are no longer than may be. Where no site is named, its host stands for it.
-/
structure Bounded (base : Link) (preview : LinkPreview) : Prop where
  url : preview.url = base.text
  title : preview.title.toList.length ≤ 300
  description : preview.description.toList.length ≤ 500
  image : preview.image.toList.length ≤ 600
  siteName : preview.siteName.toList.length ≤ 80 ∨ preview.siteName = base.hostStr.getD ""

theorem length_truncate_le (s : String) (n : Nat) : (truncate s n).toList.length ≤ n := by
  rw [truncate, Text.takeChars, String.toList_ofList, List.length_take]
  exact Nat.min_le_left _ _

theorem length_fill_le {part offer : String} {n : Nat} (hpart : part.toList.length ≤ n)
    (hoffer : offer.toList.length ≤ n) : (fill part offer).toList.length ≤ n := by
  rw [fill]
  split
  . exact hoffer
  . exact hpart

theorem length_offered_le (properties : List String) (limit : Nat) (tag : String)
    : (offered properties limit tag).toList.length ≤ limit := by
  rw [offered]
  split
  . exact length_truncate_le _ _
  . exact Nat.zero_le _

theorem length_offeredImage_le (base : Link) (tag : String) : (offeredImage parsers base tag).toList.length ≤ 600 := by
  rw [offeredImage]
  split
  . split
    . split
      . exact length_truncate_le _ _
      . exact Nat.zero_le _
    . exact Nat.zero_le _
  . exact Nat.zero_le _

theorem length_pageTitle_le (html : String) : (pageTitle html).toList.length ≤ 300 := by
  rw [pageTitle]
  cases findTitle html with
  | none => exact Nat.zero_le _
  | some title =>
    rw [Option.map_some, Option.getD_some]
    exact length_truncate_le _ _

theorem Bounded.applyTag {base : Link} {preview : LinkPreview} (h : Bounded base preview) (tag : String)
    : Bounded base (applyTag parsers base preview tag) := by
  have hoffer := length_offered_le ["og:site_name"] 80 tag
  have hsite : (fill preview.siteName (offered ["og:site_name"] 80 tag)).toList.length ≤ 80
      ∨ fill preview.siteName (offered ["og:site_name"] 80 tag) = base.hostStr.getD "" := by
    rcases h.siteName with hshort | hhost
    . exact .inl (length_fill_le hshort hoffer)
    by_cases hempty : preview.siteName = ""
    . rw [hempty, fill_nil_left]
      exact .inl hoffer
    . rw [fill_of_ne hempty]
      exact .inr hhost
  rw [applyTag_eq]
  exact ⟨h.url, length_fill_le h.title (length_offered_le _ _ _),
    length_fill_le h.description (length_offered_le _ _ _), length_fill_le h.image (length_offeredImage_le _ _), hsite⟩

theorem Bounded.titleFromPage {base : Link} {preview : LinkPreview} (h : Bounded base preview) (html : String)
    : Bounded base (titleFromPage html preview) := by
  rw [titleFromPage_eq]
  exact { h with title := length_fill_le h.title (length_pageTitle_le html) }

end Bounds

end Fetching

end Lqxp
