import Mathlib.Data.List.Nodup
import Lqxp.Core.LikePatterns
import Lqxp.Data.Fields

/-!
This module contains the servers that relay calls, and when the identifiers that they get tell them apart.
-/

namespace Lqxp

structure TurnServer where
  id : String := ""
  label : String := ""
  hint : String := ""
  urls : List String := []
  username : String := ""
  credential : String := ""
  deriving DecidableEq

structure RtcConfig where
  relayOnly : Bool
  turnUrls : List String := []
  turnUsername : String := ""
  turnCredential : String := ""
  servers : List TurnServer := []
  defaultTurnServer : String := ""

section Servers

variable (x : Externals)

def slug (label : String) : String := Text.replace ' ' "-" (x.toLowercase label)

def positionId (i : Nat) : String := "server-" ++ toString i

def withId (i : Nat) (server : TurnServer) : TurnServer :=
  if server.id = "" then
    { server with id := if server.label = "" then positionId i else slug x server.label }
  else
    server

namespace RtcConfig

def legacyServer (rtc : RtcConfig) : TurnServer where
  id := "legacy"
  label := "Serveur TURN"
  urls := rtc.turnUrls
  username := rtc.turnUsername
  credential := rtc.turnCredential

def promotesLegacy (rtc : RtcConfig) : Bool :=
  rtc.turnUrls ≠ [] && !rtc.servers.any (·.urls = rtc.turnUrls)

def listedServers (rtc : RtcConfig) : List TurnServer :=
  if rtc.promotesLegacy then rtc.servers ++ [rtc.legacyServer] else rtc.servers

def resolvedServers (rtc : RtcConfig) : List TurnServer :=
  -- The identifiers given so far are gathered as well, but nothing reads them.
  rtc.listedServers.mapIdx (withId x)

/--
The identifier of the server that the clients select at first.
-/
def defaultServer (rtc : RtcConfig) : String :=
  if rtc.defaultTurnServer ≠ "" then
    rtc.defaultTurnServer
  else
    match (rtc.resolvedServers x).head? with
    | some first => first.id
    | none => ""

def ExplicitIdsDistinct (rtc : RtcConfig) : Prop := ((rtc.servers.filter (·.id ≠ "")).map (·.id)).Nodup

/--
What keeps the identifiers that servers get from their labels and positions apart from each other and from the
configured ones.
-/
structure DerivesDistinct (rtc : RtcConfig) : Prop where
  labels : ∀ (i j : Nat) (s t : TurnServer), i ≠ j → rtc.servers[i]? = some s → rtc.servers[j]? = some t → s.id = "" → s.label ≠ "" →
    t.id = "" → t.label ≠ "" → slug x s.label ≠ slug x t.label
  explicit : ∀ s ∈ rtc.servers, ∀ t ∈ rtc.servers, s.id = "" → s.label ≠ "" → t.id ≠ "" → slug x s.label ≠ t.id
  positions : ∀ (i : Nat) (s : TurnServer), rtc.servers[i]? = some s → s.id = "" → s.label = "" → ∀ t ∈ rtc.servers,
    t.id ≠ positionId i ∧ (t.id = "" → t.label ≠ "" → slug x t.label ≠ positionId i)
  legacy : rtc.promotesLegacy → ∀ t ∈ rtc.servers,
    t.id ≠ "legacy" ∧ (t.id = "" → t.label ≠ "" → slug x t.label ≠ "legacy")

end RtcConfig

/--
Every server has an identifier, and no two have the same.
-/
structure Identified (servers : List TurnServer) : Prop where
  nonempty : ∀ server ∈ servers, server.id ≠ ""
  distinct : (servers.map (·.id)).Nodup

theorem Identified.selects {servers : List TurnServer} (h : Identified servers) {server : TurnServer}
    (hserver : server ∈ servers) : servers.filter (·.id = server.id) = [server] := by
  have hdistinct := h.distinct
  clear h
  induction servers with
  | nil => contradiction
  | cons first servers ih =>
    rw [List.map_cons, List.nodup_cons] at hdistinct
    rcases List.mem_cons.1 hserver with rfl | hmem
    . rw [List.filter_cons_of_pos (by simp), List.filter_eq_nil_iff.2]
      intro other hother heq
      exact hdistinct.1 (List.mem_map.2 ⟨other, hother, of_decide_eq_true heq⟩)
    . rw [List.filter_cons_of_neg, ih hmem hdistinct.2]
      intro heq
      exact hdistinct.1 (List.mem_map.2 ⟨server, hmem, (of_decide_eq_true heq).symm⟩)

theorem pairwise_iff_getElem?_ne {R : α → α → Prop} (hsymm : ∀ a b, R a b → R b a) {l : List α}
    : l.Pairwise R ↔ ∀ (i j : Nat) (a b : α), i ≠ j → l[i]? = some a → l[j]? = some b → R a b := by
  rw [List.pairwise_iff_getElem]
  constructor
  . intro h i j a b hne ha hb
    obtain ⟨hi, rfl⟩ := List.getElem?_eq_some_iff.1 ha
    obtain ⟨hj, rfl⟩ := List.getElem?_eq_some_iff.1 hb
    rcases Nat.lt_or_gt_of_ne hne with hlt | hgt
    . exact h i j hi hj hlt
    . exact hsymm _ _ (h j i hj hi hgt)
  . intro h i j hi hj hlt
    exact h i j _ _ (Nat.ne_of_lt hlt) (List.getElem?_eq_getElem hi) (List.getElem?_eq_getElem hj)

variable {x} {rtc : RtcConfig}

theorem RtcConfig.explicitIdsDistinct_iff
    : rtc.ExplicitIdsDistinct ↔ ∀ (i j : Nat) (s t : TurnServer), i ≠ j → rtc.servers[i]? = some s → rtc.servers[j]? = some t →
        s.id ≠ "" → t.id ≠ "" → s.id ≠ t.id := by
  rw [ExplicitIdsDistinct, List.nodup_iff_pairwise_ne, List.pairwise_map, List.pairwise_filter,
    pairwise_iff_getElem?_ne fun s t h ht hs => (h hs ht).symm]
  simp only [decide_eq_true_eq]

theorem RtcConfig.nodup_resolvedServers_iff
    : ((rtc.resolvedServers x).map (·.id)).Nodup
        ↔ ∀ (i j : Nat) (s t : TurnServer), i ≠ j → rtc.listedServers[i]? = some s → rtc.listedServers[j]? = some t →
          (withId x i s).id ≠ (withId x j t).id := by
  rw [List.nodup_iff_pairwise_ne, pairwise_iff_getElem?_ne fun _ _ h => h.symm]
  simp only [List.getElem?_map, resolvedServers, List.getElem?_mapIdx, Option.map_eq_some_iff]
  constructor
  . intro h i j s t hne hs ht
    exact h i j _ _ hne ⟨_, ⟨s, hs, rfl⟩, rfl⟩ ⟨_, ⟨t, ht, rfl⟩, rfl⟩
  . rintro h i j _ _ hne ⟨_, ⟨s, hs, rfl⟩, rfl⟩ ⟨_, ⟨t, ht, rfl⟩, rfl⟩
    exact h i j s t hne hs ht

theorem id_withId_explicit {i : Nat} {s : TurnServer} (h : s.id ≠ "") : (withId x i s).id = s.id := by
  rw [withId, if_neg h]

theorem id_withId_label {i : Nat} {s : TurnServer} (h : s.id = "") (hlabel : s.label ≠ "")
    : (withId x i s).id = slug x s.label := by
  rw [withId, if_pos h, if_neg hlabel]

theorem id_withId_position {i : Nat} {s : TurnServer} (h : s.id = "") (hlabel : s.label = "")
    : (withId x i s).id = positionId i := by
  rw [withId, if_pos h, if_pos hlabel]

theorem id_withId_legacy (i : Nat) : (withId x i rtc.legacyServer).id = "legacy" :=
  id_withId_explicit (by simp [RtcConfig.legacyServer])

theorem positionId_inj {i j : Nat} (h : positionId i = positionId j) : i = j := by
  have hchars := congrArg String.toList h
  rw [positionId, positionId, String.toList_append, String.toList_append] at hchars
  exact Text.toString_inj (String.toList_inj.1 (List.append_cancel_left hchars))

theorem positionId_ne_empty (i : Nat) : positionId i ≠ "" := by
  intro h
  have hchars := congrArg String.toList h
  rw [positionId, String.toList_append] at hchars
  contradiction

theorem positionId_ne_legacy (i : Nat) : positionId i ≠ "legacy" := by
  intro h
  have hchars := congrArg String.toList h
  rw [positionId, String.toList_append] at hchars
  exact absurd (List.cons.inj hchars).1 (by decide)

theorem slug_ne_empty (hlower : ∀ label, label ≠ "" → x.toLowercase label ≠ "") {label : String} (h : label ≠ "")
    : slug x label ≠ "" := by
  intro hempty
  have hchars := congrArg String.toList hempty
  rw [slug, Text.toList_replace, String.toList_empty, List.flatMap_eq_nil_iff] at hchars
  refine hlower label h (String.toList_inj.1 (List.eq_nil_iff_forall_not_mem.2 fun c hc => ?_))
  have hnil := hchars c hc
  split at hnil
  . contradiction
  . contradiction

theorem id_withId_ne_empty (hlower : ∀ label, label ≠ "" → x.toLowercase label ≠ "") (i : Nat) (s : TurnServer)
    : (withId x i s).id ≠ "" := by
  by_cases hid : s.id = ""
  . by_cases hlabel : s.label = ""
    . rw [id_withId_position hid hlabel]
      exact positionId_ne_empty i
    . rw [id_withId_label hid hlabel]
      exact slug_ne_empty hlower hlabel
  . rwa [id_withId_explicit hid]

namespace RtcConfig

theorem getElem?_listedServers {i : Nat} {s : TurnServer}
    : rtc.listedServers[i]? = some s
        ↔ rtc.servers[i]? = some s ∨ rtc.promotesLegacy ∧ i = rtc.servers.length ∧ s = rtc.legacyServer := by
  rw [listedServers]
  split
  next hlegacy =>
    rw [List.getElem?_append]
    split
    next hlt =>
      refine ⟨.inl, ?_⟩
      rintro (h | ⟨-, rfl, -⟩)
      . exact h
      . exact absurd hlt (Nat.lt_irrefl _)
    next hge =>
      rw [List.getElem?_singleton, List.getElem?_eq_none (Nat.le_of_not_lt hge)]
      simp only [reduceCtorEq, false_or, hlegacy, true_and, Option.ite_none_right_eq_some, Option.some.injEq]
      refine and_congr ⟨fun h => ?_, fun h => ?_⟩ eq_comm
      . omega
      . omega
  next hlegacy =>
    refine ⟨.inl, ?_⟩
    rintro (h | ⟨h, -⟩)
    . exact h
    . exact absurd h hlegacy

theorem derivesDistinct_of_nodup (h : ((rtc.resolvedServers x).map (·.id)).Nodup) : rtc.DerivesDistinct x := by
  rw [nodup_resolvedServers_iff] at h
  have hpair {i j : Nat} {s t : TurnServer} (hs : rtc.servers[i]? = some s) (ht : rtc.servers[j]? = some t)
      (hne : i ≠ j) : (withId x i s).id ≠ (withId x j t).id :=
    h i j s t hne (getElem?_listedServers.2 (.inl hs)) (getElem?_listedServers.2 (.inl ht))
  have hne {i j : Nat} {s t : TurnServer} (hs : rtc.servers[i]? = some s) (ht : rtc.servers[j]? = some t)
      (hst : s.id ≠ t.id ∨ s.label ≠ t.label) : i ≠ j := by
    rintro rfl
    obtain rfl := Option.some.inj (hs.symm.trans ht)
    rcases hst with hst | hst
    . exact hst rfl
    . exact hst rfl
  constructor
  case labels =>
    intro i j s t hij hs ht hsid hslabel htid htlabel
    have := hpair hs ht hij
    rwa [id_withId_label hsid hslabel, id_withId_label htid htlabel] at this
  case explicit =>
    intro s hs t ht hsid hslabel htid
    obtain ⟨i, hs⟩ := List.mem_iff_getElem?.1 hs
    obtain ⟨j, ht⟩ := List.mem_iff_getElem?.1 ht
    have := hpair hs ht (hne hs ht (.inl fun heq => htid (heq ▸ hsid)))
    rwa [id_withId_label hsid hslabel, id_withId_explicit htid] at this
  case positions =>
    intro i s hs hsid hslabel t ht
    obtain ⟨j, ht⟩ := List.mem_iff_getElem?.1 ht
    constructor
    . intro htid
      have htne : t.id ≠ "" := htid ▸ positionId_ne_empty i
      have := hpair hs ht (hne hs ht (.inl fun heq => htne (heq ▸ hsid)))
      rw [id_withId_position hsid hslabel, id_withId_explicit htne] at this
      exact this htid.symm
    . intro htid htlabel
      have := hpair hs ht (hne hs ht (.inr fun heq => htlabel (heq ▸ hslabel)))
      rw [id_withId_position hsid hslabel, id_withId_label htid htlabel] at this
      exact this.symm
  case legacy =>
    intro hlegacy t ht
    obtain ⟨j, ht⟩ := List.mem_iff_getElem?.1 ht
    have hlt : j < rtc.servers.length := (List.getElem?_eq_some_iff.1 ht).1
    have := h j rtc.servers.length t rtc.legacyServer (Nat.ne_of_lt hlt) (getElem?_listedServers.2 (.inl ht))
      (getElem?_listedServers.2 (.inr ⟨hlegacy, rfl, rfl⟩))
    rw [id_withId_legacy] at this
    constructor
    . intro htid
      rw [id_withId_explicit (htid ▸ by decide)] at this
      exact this htid
    . intro htid htlabel
      rwa [id_withId_label htid htlabel] at this

theorem DerivesDistinct.ne_of_getElem? (h : rtc.DerivesDistinct x) (hexplicit : rtc.ExplicitIdsDistinct) {i j : Nat}
    {s t : TurnServer} (hij : i ≠ j) (hs : rtc.servers[i]? = some s) (ht : rtc.servers[j]? = some t)
    : (withId x i s).id ≠ (withId x j t).id := by
  rw [explicitIdsDistinct_iff] at hexplicit
  have hsmem := List.mem_of_getElem? hs
  have htmem := List.mem_of_getElem? ht
  by_cases hsid : s.id = ""
  . by_cases hslabel : s.label = ""
    . rw [id_withId_position hsid hslabel]
      obtain ⟨hid, hlabel⟩ := h.positions i s hs hsid hslabel t htmem
      by_cases htid : t.id = ""
      . by_cases htlabel : t.label = ""
        . rw [id_withId_position htid htlabel]
          exact fun heq => hij (positionId_inj heq)
        . rw [id_withId_label htid htlabel]
          exact (hlabel htid htlabel).symm
      . rw [id_withId_explicit htid]
        exact hid.symm
    . rw [id_withId_label hsid hslabel]
      by_cases htid : t.id = ""
      . by_cases htlabel : t.label = ""
        . rw [id_withId_position htid htlabel]
          exact (h.positions j t ht htid htlabel s hsmem).2 hsid hslabel
        . rw [id_withId_label htid htlabel]
          exact h.labels i j s t hij hs ht hsid hslabel htid htlabel
      . rw [id_withId_explicit htid]
        exact h.explicit s hsmem t htmem hsid hslabel htid
  . rw [id_withId_explicit hsid]
    by_cases htid : t.id = ""
    . by_cases htlabel : t.label = ""
      . rw [id_withId_position htid htlabel]
        exact (h.positions j t ht htid htlabel s hsmem).1
      . rw [id_withId_label htid htlabel]
        exact (h.explicit t htmem s hsmem htid htlabel hsid).symm
    . rw [id_withId_explicit htid]
      exact hexplicit i j s t hij hs ht hsid htid

theorem DerivesDistinct.ne_legacy (h : rtc.DerivesDistinct x) (hlegacy : rtc.promotesLegacy) {i : Nat} {s : TurnServer}
    (hs : rtc.servers[i]? = some s) : (withId x i s).id ≠ "legacy" := by
  obtain ⟨hid, hlabel⟩ := h.legacy hlegacy s (List.mem_of_getElem? hs)
  by_cases hsid : s.id = ""
  . by_cases hslabel : s.label = ""
    . rw [id_withId_position hsid hslabel]
      exact positionId_ne_legacy i
    . rw [id_withId_label hsid hslabel]
      exact hlabel hsid hslabel
  . rw [id_withId_explicit hsid]
    exact hid

theorem DerivesDistinct.nodup (h : rtc.DerivesDistinct x) (hexplicit : rtc.ExplicitIdsDistinct)
    : ((rtc.resolvedServers x).map (·.id)).Nodup := by
  rw [nodup_resolvedServers_iff]
  intro i j s t hij hs ht
  rcases getElem?_listedServers.1 hs with hs | ⟨hlegacy, hi, rfl⟩
  . rcases getElem?_listedServers.1 ht with ht | ⟨hlegacy, hj, rfl⟩
    . exact h.ne_of_getElem? hexplicit hij hs ht
    . rw [id_withId_legacy]
      exact h.ne_legacy hlegacy hs
  . rcases getElem?_listedServers.1 ht with ht | ⟨-, hj, rfl⟩
    . rw [id_withId_legacy]
      exact (h.ne_legacy hlegacy ht).symm
    . exact absurd (hi.trans hj.symm) hij

end RtcConfig

theorem identified_of_nodup (hlower : ∀ label, label ≠ "" → x.toLowercase label ≠ "")
    (h : ((rtc.resolvedServers x).map (·.id)).Nodup) : Identified (rtc.resolvedServers x) := by
  refine ⟨fun server hserver => ?_, h⟩
  obtain ⟨i, hi, rfl⟩ := List.mem_mapIdx.1 hserver
  exact id_withId_ne_empty hlower _ _

theorem RtcConfig.selects_defaultServer (h : Identified (rtc.resolvedServers x)) (hne : rtc.resolvedServers x ≠ [])
    (hdefault : rtc.defaultTurnServer = "")
    : ∃ server, (rtc.resolvedServers x).filter (·.id = rtc.defaultServer x) = [server] := by
  obtain ⟨first, rest, hservers⟩ := List.exists_cons_of_ne_nil hne
  refine ⟨first, ?_⟩
  have hid : rtc.defaultServer x = first.id := by simp [defaultServer, hdefault, hservers]
  rw [hid]
  exact h.selects (hservers ▸ .head _)

variable (x)

/--
Servers with distinct identifiers in the configuration keep such ones if and only if the identifiers derived for
the others are distinct too; then the identifier of each selects it alone.
-/
theorem identified_resolvedServers_iff (hlower : ∀ label, label ≠ "" → x.toLowercase label ≠ "") (rtc : RtcConfig)
    : ((rtc.ExplicitIdsDistinct → Identified (rtc.resolvedServers x))
        ↔ (rtc.ExplicitIdsDistinct → rtc.DerivesDistinct x))
        ∧ (∀ server ∈ rtc.resolvedServers x, server.id ≠ "")
        ∧ (Identified (rtc.resolvedServers x) →
          (∀ server ∈ rtc.resolvedServers x, (rtc.resolvedServers x).filter (·.id = server.id) = [server])
            ∧ (rtc.resolvedServers x ≠ [] → rtc.defaultTurnServer = "" →
              ∃ server, (rtc.resolvedServers x).filter (·.id = rtc.defaultServer x) = [server])) := by
  refine ⟨⟨fun h hexplicit => ?_, fun h hexplicit => ?_⟩, fun server hserver => ?_,
    fun h => ⟨fun server => h.selects, RtcConfig.selects_defaultServer h⟩⟩
  . exact RtcConfig.derivesDistinct_of_nodup (h hexplicit).distinct
  . exact identified_of_nodup hlower ((h hexplicit).nodup hexplicit)
  . obtain ⟨i, hi, rfl⟩ := List.mem_mapIdx.1 hserver
    exact id_withId_ne_empty hlower _ _

end Servers

section Samples

def sameLabels : RtcConfig where
  relayOnly := true
  servers := [{ label := "EU relay", urls := ["turn:a.example"] }, { label := "EU relay", urls := ["turn:b.example"] }]

/--
Both relays get the identifier of the region.
-/
theorem not_identified_sameLabels
    : ¬ (sameLabels.ExplicitIdsDistinct → Identified (sameLabels.resolvedServers sqlExternals)) := by
  intro h
  have hids : (sameLabels.resolvedServers sqlExternals).map (·.id) = ["eu-relay", "eu-relay"] := by decide +kernel
  have hdistinct := (h List.nodup_nil).distinct
  rw [hids] at hdistinct
  exact absurd hdistinct (by decide)

def twoLabels : RtcConfig where
  relayOnly := true
  servers := [{ label := "EU relay", urls := ["turn:a.example"] }, { id := "us", urls := ["turn:b.example"] }]

theorem toAsciiLower_ne_empty (s : String) (h : s ≠ "") : Text.toAsciiLower s ≠ "" := by
  intro hempty
  have hchars := congrArg String.toList hempty
  rw [Text.toAsciiLower, String.toList_ofList, String.toList_empty, List.map_eq_nil_iff] at hchars
  exact h (String.toList_inj.1 hchars)

theorem identified_resolvedServers_iff_twoLabels
    : (∀ server ∈ twoLabels.resolvedServers sqlExternals, server.id ≠ "")
        ∧ Identified (twoLabels.resolvedServers sqlExternals) := by
  have hids : (twoLabels.resolvedServers sqlExternals).map (·.id) = ["eu-relay", "us"] := by decide +kernel
  obtain ⟨-, hnonempty, -⟩ := identified_resolvedServers_iff sqlExternals toAsciiLower_ne_empty twoLabels
  exact ⟨hnonempty, hnonempty, by rw [hids]; decide⟩

end Samples

end Lqxp
