import Lqxp.Core.Digests
import Lqxp.Data.JsonText
import Lqxp.Services.Phantom.Blocks

/-!
This module contains what the canonical text of a JSON value says about the value, and that of the prekeys of an
account about these.
-/

namespace Json

open Lqxp

/--
A value whose objects have distinct keys. The text of a number with a fraction or an exponent is not the one of an
integer.
-/
inductive WellFormed : Json → Prop where
  | null : WellFormed .null
  | bool (b : Bool) : WellFormed (.bool b)
  | int (n : Int) : WellFormed (.int n)
  | float {text : String} (hnumber : IsNumber text.toList) (hfraction : ∀ n : Int, text ≠ toString n)
    : WellFormed (.float text)
  | str (s : String) : WellFormed (.str s)
  | arr {items : List Json} (hitems : ∀ item ∈ items, WellFormed item) : WellFormed (.arr items)
  | obj {fields : List (String × Json)} (hkeys : (fields.map (·.1)).Nodup)
    (hfields : ∀ field ∈ fields, WellFormed field.2) : WellFormed (.obj fields)

mutual

/--
Two values are equal up to the order of the keys of the objects in them.
-/
def Same : Json → Json → Prop
  | .arr items, .arr items' => SameItems items items'
  | .obj fields, .obj fields' => fields.length = fields'.length ∧ SameFields fields fields'
  | value, value' => value = value'

def SameItems : List Json → List Json → Prop
  | [], [] => True
  | item :: items, item' :: items' => Same item item' ∧ SameItems items items'
  | _, _ => False

def SameFields : List (String × Json) → List (String × Json) → Prop
  | [], _ => True
  | (key, value) :: fields, fields' => (∃ value', (key, value') ∈ fields' ∧ Same value value') ∧ SameFields fields fields'

end

end Json

namespace Lqxp

open Unambiguous

section Texts

theorem canonicalItems_eq_map (items : List Json) : canonicalItems items = items.map canonicalJson := by
  induction items with
  | nil => rfl
  | cons item items ih => rw [canonicalItems, ih, List.map_cons]

theorem canonicalFields_eq_map (fields : List (String × Json))
    : canonicalFields fields = fields.map fun field => (field.1, canonicalJson field.2) := by
  induction fields with
  | nil => rfl
  | cons field fields ih => rw [canonicalFields, ih, List.map_cons]

/--
The fields of an object with the texts of their values, in order.
-/
def canonicalParts (fields : List (String × Json)) : List (String × String) :=
  (fields.map fun field => (field.1, canonicalJson field.2)).mergeSort fun a b => a.1 ≤ b.1

def partText (part : String × String) : List Char := (Json.renderStr part.1).toList ++ ':' :: part.2.toList

theorem toList_canonicalJson_arr (items : List Json)
    : (canonicalJson (.arr items)).toList
        = '[' :: ([','].intercalate (items.map fun item => (canonicalJson item).toList) ++ [']']) := by
  rw [canonicalJson, canonicalItems_eq_map, String.toList_append, String.toList_append, String.toList_intercalate,
    List.map_map]
  rfl

theorem toList_canonicalJson_obj (fields : List (String × Json))
    : (canonicalJson (.obj fields)).toList
        = '{' :: ([','].intercalate ((canonicalParts fields).map partText) ++ ['}']) := by
  rw [canonicalJson, canonicalFields_eq_map, String.toList_append, String.toList_append, String.toList_intercalate,
    List.map_map]
  have hpart : (String.toList ∘ fun part : String × String => Json.renderStr part.1 ++ ":" ++ part.2) = partText := by
    funext part
    simp [partText]
  rw [hpart]
  rfl

def kindOf (c : Char) : Nat :=
  if c = 'n' then 0
  else if c = 't' then 1
  else if c = 'f' then 2
  else if c = '"' then 3
  else if c = '[' then 4
  else if c = '{' then 5
  else if isNumberChar c then 6
  else 7

def kind : Json → Nat
  | .null => 0
  | .bool true => 1
  | .bool false => 2
  | .str _ => 3
  | .arr _ => 4
  | .obj _ => 5
  | .int _ => 6
  | .float _ => 6

theorem kindOf_of_isNumberChar {c : Char} (h : isNumberChar c) : kindOf c = 6 := by
  have hne {d : Char} (hd : isNumberChar d = false) : c ≠ d := by
    rintro rfl
    rw [hd] at h
    contradiction
  simp only [kindOf, hne (show isNumberChar 'n' = false by decide), hne (show isNumberChar 't' = false by decide),
    hne (show isNumberChar 'f' = false by decide), hne (show isNumberChar '"' = false by decide),
    hne (show isNumberChar '[' = false by decide), hne (show isNumberChar '{' = false by decide), h, if_false, if_true]

theorem exists_head {value : Json} (h : value.WellFormed)
    : ∃ c cs, (canonicalJson value).toList = c :: cs ∧ kindOf c = kind value := by
  have hnumber {cs : List Char} (hcs : IsNumber cs) : ∃ c rest, cs = c :: rest ∧ kindOf c = 6 := by
    obtain ⟨c, rest, rfl⟩ := List.exists_cons_of_ne_nil hcs.1
    exact ⟨c, rest, rfl, kindOf_of_isNumberChar (hcs.2 c (.head _))⟩
  cases h with
  | null => exact ⟨_, _, rfl, rfl⟩
  | bool b =>
    cases b with
    | true => exact ⟨_, _, rfl, rfl⟩
    | false => exact ⟨_, _, rfl, rfl⟩
  | int n => exact hnumber (isNumber_int n)
  | float htext => exact hnumber htext
  | str s => exact ⟨'"', _, toList_renderStr s, rfl⟩
  | arr _ => exact ⟨_, _, toList_canonicalJson_arr _, rfl⟩
  | obj _ _ => exact ⟨_, _, toList_canonicalJson_obj _, rfl⟩

theorem kind_lt (value : Json) : kind value < 7 := by
  cases value with
  | bool b => cases b <;> decide
  | _ => simp [kind]

theorem exists_head_ne {value : Json} (h : value.WellFormed) {stop : Char} (hstop : kindOf stop = 7)
    : ∃ c cs, (canonicalJson value).toList = c :: cs ∧ c ≠ stop := by
  obtain ⟨c, cs, hcs, hkind⟩ := exists_head h
  refine ⟨c, cs, hcs, ?_⟩
  rintro rfl
  have := kind_lt value
  omega

theorem kind_eq_of_append_eq {u v : Json} (hu : u.WellFormed) (hv : v.WellFormed) {x y : List Char}
    (h : (canonicalJson u).toList ++ x = (canonicalJson v).toList ++ y) : kind u = kind v := by
  obtain ⟨c, cs, hc, hkindu⟩ := exists_head hu
  obtain ⟨d, ds, hd, hkindv⟩ := exists_head hv
  rw [hc, hd] at h
  rw [← hkindu, ← hkindv, (List.cons.inj h).1]

theorem delimits_texts {items : List Json}
    (h : ∀ item ∈ items, ∀ {v x y}, v.WellFormed → Ends x → Ends y →
      (canonicalJson item).toList ++ x = (canonicalJson v).toList ++ y →
        (canonicalJson item).toList = (canonicalJson v).toList ∧ x = y)
    : Delimits (· ∈ items.map fun item => (canonicalJson item).toList)
        (fun q => ∃ v : Json, v.WellFormed ∧ (canonicalJson v).toList = q) Ends := by
  rintro p q x y hp ⟨v, hv, rfl⟩ hx hy heq
  obtain ⟨item, hitem, rfl⟩ := List.mem_map.1 hp
  exact h item hitem hv hx hy heq

theorem mem_canonicalParts {fields : List (String × Json)} {part : String × String}
    : part ∈ canonicalParts fields ↔ ∃ field ∈ fields, (field.1, canonicalJson field.2) = part := by
  rw [canonicalParts, List.mem_mergeSort, List.mem_map]

theorem delimits_parts {fields : List (String × Json)}
    (h : ∀ field ∈ fields, ∀ {v x y}, v.WellFormed → Ends x → Ends y →
      (canonicalJson field.2).toList ++ x = (canonicalJson v).toList ++ y →
        (canonicalJson field.2).toList = (canonicalJson v).toList ∧ x = y)
    : Delimits (· ∈ (canonicalParts fields).map partText)
        (fun q => ∃ (key : String) (v : Json), v.WellFormed ∧ partText (key, canonicalJson v) = q) Ends := by
  rintro p q x y hp ⟨key, v, hv, rfl⟩ hx hy heq
  obtain ⟨part, hpart, rfl⟩ := List.mem_map.1 hp
  obtain ⟨field, hfield, rfl⟩ := mem_canonicalParts.1 hpart
  rw [partText, partText, List.append_assoc, List.append_assoc] at heq
  obtain ⟨hkey, hrest⟩ := renderStr_append_inj heq
  obtain ⟨htext, hxy⟩ := h field hfield hv hx hy (List.cons.inj hrest).2
  refine ⟨?_, hxy⟩
  rw [partText, partText, hkey, htext]

theorem canonicalJson_arr_append_inj {items items' : List Json} (hitems : ∀ item ∈ items, item.WellFormed)
    (hitems' : ∀ item ∈ items', item.WellFormed) {x y : List Char}
    (hdelimits : Delimits (· ∈ items.map fun item => (canonicalJson item).toList)
      (fun q => ∃ v : Json, v.WellFormed ∧ (canonicalJson v).toList = q) Ends)
    (h : (canonicalJson (.arr items)).toList ++ x = (canonicalJson (.arr items')).toList ++ y)
    : items.map (fun item => (canonicalJson item).toList) = items'.map (fun item => (canonicalJson item).toList)
        ∧ x = y := by
  rw [toList_canonicalJson_arr, toList_canonicalJson_arr, List.cons_append, List.cons_append, List.append_assoc,
    List.append_assoc] at h
  refine hdelimits.intercalate_inj ']' ?_ (ends_cons (by decide)) (ends_cons (by decide)) (by decide)
    (fun p hp => hp) ?_ (List.cons.inj h).2
  . rintro p (hp | ⟨v, hv, rfl⟩)
    . obtain ⟨item, hitem, rfl⟩ := List.mem_map.1 hp
      exact exists_head_ne (hitems item hitem) rfl
    . exact exists_head_ne hv rfl
  . intro q hq
    obtain ⟨item, hitem, rfl⟩ := List.mem_map.1 hq
    exact ⟨item, hitems' item hitem, rfl⟩

theorem canonicalJson_obj_append_inj {fields fields' : List (String × Json)}
    (hfields' : ∀ field ∈ fields', field.2.WellFormed) {x y : List Char}
    (hdelimits : Delimits (· ∈ (canonicalParts fields).map partText)
      (fun q => ∃ (key : String) (v : Json), v.WellFormed ∧ partText (key, canonicalJson v) = q) Ends)
    (h : (canonicalJson (.obj fields)).toList ++ x = (canonicalJson (.obj fields')).toList ++ y)
    : (canonicalParts fields).map partText = (canonicalParts fields').map partText ∧ x = y := by
  rw [toList_canonicalJson_obj, toList_canonicalJson_obj, List.cons_append, List.cons_append, List.append_assoc,
    List.append_assoc] at h
  have hhead (part : String × String) : ∃ c cs, partText part = c :: cs ∧ c ≠ '}' :=
    ⟨'"', _, by rw [partText, toList_renderStr, List.cons_append], by decide⟩
  refine hdelimits.intercalate_inj '}' ?_ (ends_cons (by decide)) (ends_cons (by decide)) (by decide)
    (fun p hp => hp) ?_ (List.cons.inj h).2
  . rintro p (hp | ⟨key, v, -, rfl⟩)
    . obtain ⟨part, -, rfl⟩ := List.mem_map.1 hp
      exact hhead part
    . exact hhead _
  . intro q hq
    obtain ⟨part, hpart, rfl⟩ := List.mem_map.1 hq
    obtain ⟨field, hfield, rfl⟩ := mem_canonicalParts.1 hpart
    exact ⟨field.1, field.2, hfields' field hfield, rfl⟩

theorem canonicalJson_append_inj {u v : Json} (hu : u.WellFormed) (hv : v.WellFormed) {x y : List Char}
    (hx : Ends x) (hy : Ends y) (h : (canonicalJson u).toList ++ x = (canonicalJson v).toList ++ y)
    : (canonicalJson u).toList = (canonicalJson v).toList ∧ x = y := by
  have hkind := kind_eq_of_append_eq hu hv h
  induction hu generalizing v x y with
  | null =>
    cases hv with
    | null => exact ⟨rfl, List.append_cancel_left h⟩
    | bool b => cases b <;> simp [kind] at hkind
    | _ => simp [kind] at hkind
  | bool b =>
    cases hv with
    | bool b' =>
      obtain rfl : b = b' := by cases b <;> cases b' <;> simp [kind] at hkind <;> rfl
      exact ⟨rfl, List.append_cancel_left h⟩
    | _ => cases b <;> simp [kind] at hkind
  | int n =>
    cases hv with
    | int n' => exact (isNumber_int n).append_inj (isNumber_int n') hx hy h
    | float htext => exact (isNumber_int n).append_inj htext hx hy h
    | bool b => cases b <;> simp [kind] at hkind
    | _ => simp [kind] at hkind
  | float htext =>
    cases hv with
    | int n' => exact htext.append_inj (isNumber_int n') hx hy h
    | float htext' => exact htext.append_inj htext' hx hy h
    | bool b => cases b <;> simp [kind] at hkind
    | _ => simp [kind] at hkind
  | str s =>
    cases hv with
    | str s' =>
      obtain ⟨rfl, hxy⟩ := renderStr_append_inj h
      exact ⟨rfl, hxy⟩
    | bool b => cases b <;> simp [kind] at hkind
    | _ => simp [kind] at hkind
  | @arr items hitems ih =>
    cases hv with
    | @arr items' hitems' =>
      have hdelimits := delimits_texts fun item hitem {v x y} hv hx hy h =>
        ih item hitem hv hx hy h (kind_eq_of_append_eq (hitems item hitem) hv h)
      obtain ⟨hmap, hxy⟩ := canonicalJson_arr_append_inj hitems hitems' hdelimits h
      exact ⟨by rw [toList_canonicalJson_arr, toList_canonicalJson_arr, hmap], hxy⟩
    | bool b => cases b <;> simp [kind] at hkind
    | _ => simp [kind] at hkind
  | @obj fields hkeys hfields ih =>
    cases hv with
    | @obj fields' hkeys' hfields' =>
      have hdelimits := delimits_parts fun field hfield {v x y} hv hx hy h =>
        ih field hfield hv hx hy h (kind_eq_of_append_eq (hfields field hfield) hv h)
      obtain ⟨hmap, hxy⟩ := canonicalJson_obj_append_inj hfields' hdelimits h
      exact ⟨by rw [toList_canonicalJson_obj, toList_canonicalJson_obj, hmap], hxy⟩
    | bool b => cases b <;> simp [kind] at hkind
    | _ => simp [kind] at hkind

end Texts

section Equality

theorem sameFields_iff {fields fields' : List (String × Json)}
    : Json.SameFields fields fields'
        ↔ ∀ field ∈ fields, ∃ value', (field.1, value') ∈ fields' ∧ Json.Same field.2 value' := by
  induction fields with
  | nil => simp [Json.SameFields]
  | cons field fields ih =>
    rw [Json.SameFields, ih, List.forall_mem_cons]

theorem sameItems_of_map_eq {items items' : List Json}
    (h : ∀ item ∈ items, ∀ item' ∈ items', canonicalJson item = canonicalJson item' → Json.Same item item')
    (hmap : items.map canonicalJson = items'.map canonicalJson) : Json.SameItems items items' := by
  induction items generalizing items' with
  | nil =>
    obtain rfl : items' = [] := List.map_eq_nil_iff.1 hmap.symm
    trivial
  | cons item items ih =>
    cases items' with
    | nil => contradiction
    | cons item' items' =>
      obtain ⟨hitem, hitems⟩ := List.cons.inj hmap
      refine ⟨h item (.head _) item' (.head _) hitem, ih (fun item hitem item' hitem' => ?_) hitems⟩
      exact h item (.tail _ hitem) item' (.tail _ hitem')

theorem map_eq_of_sameItems {items items' : List Json}
    (h : ∀ item ∈ items, ∀ item' ∈ items', Json.Same item item' → canonicalJson item = canonicalJson item')
    (hsame : Json.SameItems items items') : items.map canonicalJson = items'.map canonicalJson := by
  induction items generalizing items' with
  | nil =>
    cases items' with
    | nil => rfl
    | cons item' items' => exact hsame.elim
  | cons item items ih =>
    cases items' with
    | nil => exact hsame.elim
    | cons item' items' =>
      rw [List.map_cons, List.map_cons, h item (.head _) item' (.head _) hsame.1,
        ih (fun item hitem item' hitem' => h item (.tail _ hitem) item' (.tail _ hitem')) hsame.2]

theorem partText_injective : Function.Injective partText := by
  rintro ⟨key, text⟩ ⟨key', text'⟩ h
  obtain ⟨hkey, hrest⟩ := renderStr_append_inj h
  exact Prod.ext hkey (String.toList_inj.1 (List.cons.inj hrest).2)

theorem canonicalParts_eq_of_perm {fields fields' : List (String × Json)} (hkeys : (fields.map (·.1)).Nodup)
    (h : (fields.map fun field => (field.1, canonicalJson field.2)).Perm
      (fields'.map fun field => (field.1, canonicalJson field.2)))
    : canonicalParts fields = canonicalParts fields' := by
  have htrans (a b c : String × String) : decide (a.1 ≤ b.1) = true → decide (b.1 ≤ c.1) = true
      → decide (a.1 ≤ c.1) = true := by
    simp only [decide_eq_true_eq]
    exact String.le_trans
  have htotal (a b : String × String) : (decide (a.1 ≤ b.1) || decide (b.1 ≤ a.1)) = true := by
    simp only [Bool.or_eq_true, decide_eq_true_eq]
    exact String.le_total a.1 b.1
  have hnodup : ((canonicalParts fields).map (·.1)).Nodup := by
    refine (List.Perm.nodup_iff ((List.mergeSort_perm _ _).map _)).2 ?_
    rwa [List.map_map]
  have hperm : (canonicalParts fields).Perm (canonicalParts fields') :=
    (List.mergeSort_perm _ _).trans (h.trans (List.mergeSort_perm _ _).symm)
  refine hperm.eq_of_pairwise (fun a b ha hb hab hba => ?_) (List.pairwise_mergeSort htrans htotal _)
    (List.pairwise_mergeSort htrans htotal _)
  have hkey : a.1 = b.1 := String.le_antisymm (of_decide_eq_true hab) (of_decide_eq_true hba)
  exact List.inj_on_of_nodup_map hnodup ha (hperm.mem_iff.2 hb) hkey

theorem same_of_canonicalJson_eq {u v : Json} (hu : u.WellFormed) (hv : v.WellFormed)
    (h : canonicalJson u = canonicalJson v) : u.Same v := by
  have happend : (canonicalJson u).toList ++ [] = (canonicalJson v).toList ++ [] := by rw [h]
  have hkind := kind_eq_of_append_eq hu hv happend
  induction hu generalizing v with
  | null =>
    cases hv with
    | null => rfl
    | bool b => cases b <;> simp [kind] at hkind
    | _ => simp [kind] at hkind
  | bool b =>
    cases hv with
    | bool b' =>
      obtain rfl : b = b' := by cases b <;> cases b' <;> simp [kind] at hkind <;> rfl
      rfl
    | _ => cases b <;> simp [kind] at hkind
  | int n =>
    cases hv with
    | int n' =>
      obtain rfl := toString_int_inj h
      rfl
    | float htext hfraction => exact absurd h.symm (hfraction n)
    | bool b => cases b <;> simp [kind] at hkind
    | _ => simp [kind] at hkind
  | float htext hfraction =>
    cases hv with
    | int n' => exact absurd h (hfraction n')
    | float htext' hfraction' => exact congrArg Json.float h
    | bool b => cases b <;> simp [kind] at hkind
    | _ => simp [kind] at hkind
  | str s =>
    cases hv with
    | str s' => exact congrArg Json.str (renderStr_append_inj happend).1
    | bool b => cases b <;> simp [kind] at hkind
    | _ => simp [kind] at hkind
  | @arr items hitems ih =>
    cases hv with
    | @arr items' hitems' =>
      have hdelimits := delimits_texts fun item hitem {v x y} hv hx hy h =>
        canonicalJson_append_inj (hitems item hitem) hv hx hy h
      obtain ⟨hmap, -⟩ := canonicalJson_arr_append_inj hitems hitems' hdelimits happend
      refine sameItems_of_map_eq (fun item hitem item' hitem' heq => ?_) ?_
      . have happend : (canonicalJson item).toList ++ [] = (canonicalJson item').toList ++ [] := by rw [heq]
        exact ih item hitem (hitems' item' hitem') heq happend
          (kind_eq_of_append_eq (hitems item hitem) (hitems' item' hitem') happend)
      . have hinj := List.map_injective_iff.2 (fun _ _ heq => String.toList_inj.1 heq : Function.Injective String.toList)
        refine hinj ?_
        rw [List.map_map, List.map_map]
        exact hmap
    | bool b => cases b <;> simp [kind] at hkind
    | _ => simp [kind] at hkind
  | @obj fields hkeys hfields ih =>
    cases hv with
    | @obj fields' hkeys' hfields' =>
      have hdelimits := delimits_parts fun field hfield {v x y} hv hx hy h =>
        canonicalJson_append_inj (hfields field hfield) hv hx hy h
      obtain ⟨hmap, -⟩ := canonicalJson_obj_append_inj hfields' hdelimits happend
      have hparts : canonicalParts fields = canonicalParts fields' := List.map_injective_iff.2 partText_injective hmap
      refine ⟨?_, sameFields_iff.2 fun field hfield => ?_⟩
      . have hlength := congrArg List.length hparts
        rwa [canonicalParts, canonicalParts, List.length_mergeSort, List.length_mergeSort, List.length_map,
          List.length_map] at hlength
      . have hpart : (field.1, canonicalJson field.2) ∈ canonicalParts fields' := by
          rw [← hparts]
          exact mem_canonicalParts.2 ⟨field, hfield, rfl⟩
        obtain ⟨field', hfield', heq⟩ := mem_canonicalParts.1 hpart
        obtain ⟨hkey, htext⟩ := Prod.mk.inj heq
        have happend : (canonicalJson field.2).toList ++ [] = (canonicalJson field'.2).toList ++ [] := by rw [htext]
        refine ⟨field'.2, by rw [← hkey]; exact hfield', ?_⟩
        exact ih field hfield (hfields' field' hfield') htext.symm happend
          (kind_eq_of_append_eq (hfields field hfield) (hfields' field' hfield') happend)
    | bool b => cases b <;> simp [kind] at hkind
    | _ => simp [kind] at hkind

theorem canonicalJson_eq_of_same {u v : Json} (hu : u.WellFormed) (h : u.Same v)
    : canonicalJson u = canonicalJson v := by
  induction hu generalizing v with
  | @arr items hitems ih =>
    cases v with
    | arr items' =>
      have hmap := map_eq_of_sameItems (fun item hitem item' _ => ih item hitem) h
      rw [canonicalJson, canonicalJson, canonicalItems_eq_map, canonicalItems_eq_map, hmap]
    | _ => contradiction
  | @obj fields hkeys hfields ih =>
    cases v with
    | obj fields' =>
      obtain ⟨hlength, hsame⟩ := h
      rw [sameFields_iff] at hsame
      have hsubset : fields.map (fun field => (field.1, canonicalJson field.2))
          ⊆ fields'.map fun field => (field.1, canonicalJson field.2) := by
        intro part hpart
        obtain ⟨field, hfield, rfl⟩ := List.mem_map.1 hpart
        obtain ⟨value', hvalue', hsame'⟩ := hsame field hfield
        exact List.mem_map.2 ⟨_, hvalue', by rw [ih field hfield hsame']⟩
      have hnodup : (fields.map fun field => (field.1, canonicalJson field.2)).Nodup := by
        refine List.Nodup.of_map Prod.fst ?_
        rwa [List.map_map]
      have hperm := (List.subperm_of_subset hnodup hsubset).perm_of_length_le (by simp [hlength])
      have hparts := canonicalParts_eq_of_perm hkeys hperm
      exact String.toList_inj.1 (by rw [toList_canonicalJson_obj, toList_canonicalJson_obj, hparts])
    | _ => contradiction
  | _ =>
    cases v with
    | _ => first | contradiction | exact congrArg canonicalJson h

end Equality

section Bundles

/--
Two bundles have the same fields, except for the signatures.
-/
structure PrekeyBundle.Agrees (bundle bundle' : PrekeyBundle) : Prop where
  version : bundle.version = bundle'.version
  mlkem768Pk : bundle.mlkem768Pk = bundle'.mlkem768Pk
  ecdsaP256Pk : bundle.ecdsaP256Pk.Same bundle'.ecdsaP256Pk
  mldsa65Pk : bundle.mldsa65Pk = bundle'.mldsa65Pk
  blockFilter : bundle.blockFilter = bundle'.blockFilter
  updatedAt : bundle.updatedAt = bundle'.updatedAt

def PrekeyBundle.signedFields (bundle : PrekeyBundle) : List (String × Json) :=
  [("version", .int bundle.version), ("mlkem768Pk", .str bundle.mlkem768Pk), ("ecdsaP256Pk", bundle.ecdsaP256Pk),
    ("mldsa65Pk", .str bundle.mldsa65Pk), ("blockFilter", .arr (bundle.blockFilter.map .str)),
    ("updatedAt", .int bundle.updatedAt)]

theorem PrekeyBundle.nodup_signedFields (bundle : PrekeyBundle) : (bundle.signedFields.map (·.1)).Nodup := by
  show ["version", "mlkem768Pk", "ecdsaP256Pk", "mldsa65Pk", "blockFilter", "updatedAt"].Nodup
  decide

theorem PrekeyBundle.wellFormed_signedFields {bundle : PrekeyBundle} (h : bundle.ecdsaP256Pk.WellFormed)
    : (Json.obj bundle.signedFields).WellFormed := by
  refine .obj bundle.nodup_signedFields fun field hfield => ?_
  simp only [signedFields, List.mem_cons, List.not_mem_nil, or_false] at hfield
  obtain rfl | rfl | rfl | rfl | rfl | rfl := hfield
  . exact .int _
  . exact .str _
  . exact h
  . exact .str _
  . refine .arr fun item hitem => ?_
    obtain ⟨tag, -, rfl⟩ := List.mem_map.1 hitem
    exact .str tag
  . exact .int _

theorem same_of_mem_fields {fields fields' : List (String × Json)} (hkeys : (fields'.map (·.1)).Nodup)
    (h : (Json.obj fields).Same (.obj fields')) {key : String} {value value' : Json} (hmem : (key, value) ∈ fields)
    (hmem' : (key, value') ∈ fields') : value.Same value' := by
  obtain ⟨other, hother, hsame⟩ := sameFields_iff.1 h.2 _ hmem
  obtain ⟨-, rfl⟩ := Prod.mk.inj (List.inj_on_of_nodup_map hkeys hother hmem' rfl)
  exact hsame

theorem eq_of_sameItems_str {tags tags' : List String}
    (h : Json.SameItems (tags.map .str) (tags'.map .str)) : tags = tags' := by
  induction tags generalizing tags' with
  | nil =>
    cases tags' with
    | nil => rfl
    | cons tag' tags' => exact h.elim
  | cons tag tags ih =>
    cases tags' with
    | nil => exact h.elim
    | cons tag' tags' => rw [Json.str.inj h.1, ih h.2]

theorem PrekeyBundle.agrees_of_same {bundle bundle' : PrekeyBundle}
    (h : (Json.obj bundle.signedFields).Same (.obj bundle'.signedFields)) : bundle.Agrees bundle' := by
  have hfield (key : String) (value value' : Json) (hmem : (key, value) ∈ bundle.signedFields)
      (hmem' : (key, value') ∈ bundle'.signedFields) : value.Same value' :=
    same_of_mem_fields bundle'.nodup_signedFields h hmem hmem'
  have hversion : Json.Same (.int bundle.version) (.int bundle'.version) :=
    hfield "version" _ _ (by simp [signedFields]) (by simp [signedFields])
  have hmlkem : Json.Same (.str bundle.mlkem768Pk) (.str bundle'.mlkem768Pk) :=
    hfield "mlkem768Pk" _ _ (by simp [signedFields]) (by simp [signedFields])
  have hecdsa : bundle.ecdsaP256Pk.Same bundle'.ecdsaP256Pk :=
    hfield "ecdsaP256Pk" _ _ (by simp [signedFields]) (by simp [signedFields])
  have hmldsa : Json.Same (.str bundle.mldsa65Pk) (.str bundle'.mldsa65Pk) :=
    hfield "mldsa65Pk" _ _ (by simp [signedFields]) (by simp [signedFields])
  have hfilter : Json.Same (.arr (bundle.blockFilter.map .str)) (.arr (bundle'.blockFilter.map .str)) :=
    hfield "blockFilter" _ _ (by simp [signedFields]) (by simp [signedFields])
  have hupdated : Json.Same (.int bundle.updatedAt) (.int bundle'.updatedAt) :=
    hfield "updatedAt" _ _ (by simp [signedFields]) (by simp [signedFields])
  exact ⟨Int.ofNat.inj (Json.int.inj hversion), Json.str.inj hmlkem, hecdsa, Json.str.inj hmldsa,
    eq_of_sameItems_str hfilter, Int.ofNat.inj (Json.int.inj hupdated)⟩

/--
The canonical text of a value says everything about it but the order of the keys, and that of a bundle everything
about it but its signatures.
-/
theorem canonicalJson_eq_iff
    : (∀ u v : Json, u.WellFormed → v.WellFormed → (canonicalJson u = canonicalJson v ↔ u.Same v))
        ∧ ∀ bundle bundle' : PrekeyBundle, bundle.ecdsaP256Pk.WellFormed → bundle'.ecdsaP256Pk.WellFormed →
          canonicalPrekeyBundleBytes bundle = canonicalPrekeyBundleBytes bundle' → bundle.Agrees bundle' := by
  refine ⟨fun u v hu hv => ⟨same_of_canonicalJson_eq hu hv, canonicalJson_eq_of_same hu⟩, fun bundle bundle' h h' heq => ?_⟩
  exact PrekeyBundle.agrees_of_same <| same_of_canonicalJson_eq (PrekeyBundle.wellFormed_signedFields h)
    (PrekeyBundle.wellFormed_signedFields h') (utf8_injective heq)

/--
The order of the keys of the device key does not change what is signed.
-/
theorem canonicalJson_eq_iff_keys
    : canonicalJson (.obj [("x", .str "AQID"), ("kty", .str "EC")])
        = canonicalJson (.obj [("kty", .str "EC"), ("x", .str "AQID")]) := by
  have hfield (key value : String) : ∀ field ∈ [(key, Json.str value)], field.2.WellFormed := by
    intro field hfield
    rw [List.mem_singleton.1 hfield]
    exact .str value
  refine (canonicalJson_eq_iff.1 _ _ (.obj (by decide) ?_) (.obj (by decide) ?_)).2 ⟨rfl, sameFields_iff.2 ?_⟩
  . exact List.forall_mem_cons.2 ⟨.str _, hfield _ _⟩
  . exact List.forall_mem_cons.2 ⟨.str _, hfield _ _⟩
  . simp [Json.Same]

end Bundles

end Lqxp
