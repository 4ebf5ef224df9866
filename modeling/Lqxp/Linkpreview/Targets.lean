import Lqxp.Data.Addresses
import Lqxp.Data.Text

/-!
This module contains the addresses that the server fetches from on behalf of its users: which of them are public, and
how the address of a link is fixed before it is fetched.
-/

namespace Lqxp

def isPublicIpv4 (ip : Ipv4Addr) : Bool :=
  if ip.isUnspecified || ip.isLoopback || ip.isLinkLocal || ip.isBroadcast || ip.isDocumentation || ip.isMulticast then
    false
  -- the current network
  else if ip.o0 = 0 then
    false
  -- private ranges
  else if ip.o0 = 10 then
    false
  else if ip.o0 = 172 && 16 ≤ ip.o1 && ip.o1 ≤ 31 then
    false
  else if ip.o0 = 192 && ip.o1 = 168 then
    false
  -- shared address space
  else if ip.o0 = 100 && 64 ≤ ip.o1 && ip.o1 ≤ 127 then
    false
  -- benchmarking
  else if ip.o0 = 198 && (ip.o1 = 18 || ip.o1 = 19) then
    false
  -- cloud metadata
  else if ip.o0 = 169 && ip.o1 = 254 then
    false
  else
    true

def isPublicIpv6 (ip : Ipv6Addr) : Bool :=
  if ip.isUnspecified || ip.isLoopback || ip.isMulticast then
    false
  -- unique local addresses
  else if ip.seg0 &&& 0xfe00 = 0xfc00 then
    false
  -- link-local
  else if ip.seg0 &&& 0xffc0 = 0xfe80 then
    false
  -- deprecated site-local
  else if ip.seg0 &&& 0xffc0 = 0xfec0 then
    false
  else if ip.seg0 = 0 && ip.seg1 = 0 && ip.seg2 = 0 && ip.seg3 = 0 && ip.seg4 = 0 && ip.seg5 = 0xffff then
    isPublicIpv4 ⟨(ip.seg6 >>> 8).setWidth 8, (ip.seg6 &&& 0xff).setWidth 8, (ip.seg7 >>> 8).setWidth 8,
      (ip.seg7 &&& 0xff).setWidth 8⟩
  else
    true

def isPublicIp : IpAddr → Bool
  | .v4 ip => isPublicIpv4 ip
  | .v6 ip => isPublicIpv6 ip

/--
What the server reads of a parsed link.
-/
structure Url where
  scheme : String
  hostStr : Option String
  portOrKnownDefault : Option Nat
  deriving DecidableEq, Repr

structure SocketAddr where
  ip : IpAddr
  port : Nat
  deriving DecidableEq, Repr

/--
The parser of links, and the resolver of names.
-/
structure Network where
  parseUrl : String → Option Url
  toSocketAddrs : String → Option (List SocketAddr)

def Url.target (url : Url) (host : String) : String :=
  host ++ ":" ++ toString (url.portOrKnownDefault.getD (if url.scheme = "https" then 443 else 80))

def validateAndPinUrl (network : Network) (raw : String) : Option (Url × SocketAddr) := do
  let parsed ← network.parseUrl raw
  if parsed.scheme ≠ "http" ∧ parsed.scheme ≠ "https" then
    none
  else
    let host ← parsed.hostStr
    if host = "" || Text.eqIgnoreAsciiCase host "localhost" || 253 < Text.len host then
      none
    else
      let addrs ← network.toSocketAddrs (parsed.target host)
      let pinnedAddr ← addrs.head?
      -- all resolved addresses have to be public
      if addrs.any (!isPublicIp ·.ip) then
        none
      else
        some (parsed, pinnedAddr)

section Blocks

def nonPublicBlocks : List Ipv4Net :=
  [⟨⟨0, 0, 0, 0⟩, 8⟩, ⟨⟨10, 0, 0, 0⟩, 8⟩, ⟨⟨100, 64, 0, 0⟩, 10⟩, ⟨⟨127, 0, 0, 0⟩, 8⟩, ⟨⟨169, 254, 0, 0⟩, 16⟩,
    ⟨⟨172, 16, 0, 0⟩, 12⟩, ⟨⟨192, 0, 2, 0⟩, 24⟩, ⟨⟨192, 168, 0, 0⟩, 16⟩, ⟨⟨198, 18, 0, 0⟩, 15⟩, ⟨⟨198, 51, 100, 0⟩, 24⟩,
    ⟨⟨203, 0, 113, 0⟩, 24⟩, ⟨⟨224, 0, 0, 0⟩, 4⟩, ⟨⟨255, 255, 255, 255⟩, 32⟩]

variable {ip : Ipv4Addr}

theorem contains_shared : Ipv4Net.Contains ⟨⟨100, 64, 0, 0⟩, 10⟩ ip ↔ ip.o0 = 100 ∧ 64 ≤ ip.o1 ∧ ip.o1 ≤ 127 := by
  rw [Ipv4Net.contains_second (k := 2) (by decide), BitVec.le_def, BitVec.le_def]
  simp
  omega

theorem contains_private : Ipv4Net.Contains ⟨⟨172, 16, 0, 0⟩, 12⟩ ip ↔ ip.o0 = 172 ∧ 16 ≤ ip.o1 ∧ ip.o1 ≤ 31 := by
  rw [Ipv4Net.contains_second (k := 4) (by decide), BitVec.le_def, BitVec.le_def]
  simp
  omega

theorem contains_benchmarking : Ipv4Net.Contains ⟨⟨198, 18, 0, 0⟩, 15⟩ ip
    ↔ ip.o0 = 198 ∧ (ip.o1 = 18 ∨ ip.o1 = 19) := by
  rw [Ipv4Net.contains_second (k := 7) (by decide), BitVec.toNat_eq (x := ip.o1), BitVec.toNat_eq (x := ip.o1)]
  simp
  omega

theorem contains_multicast : Ipv4Net.Contains ⟨⟨224, 0, 0, 0⟩, 4⟩ ip ↔ 224 ≤ ip.o0 ∧ ip.o0 ≤ 239 := by
  rw [Ipv4Net.contains_first (k := 4) (by decide), BitVec.le_def, BitVec.le_def]
  simp
  omega

theorem isPublicIpv4_iff : isPublicIpv4 ip = true ↔ ∀ net ∈ nonPublicBlocks, ¬net.Contains ip := by
  have hunspecified : ip.isUnspecified = true → ip.o0 = 0 := by
    intro h
    rw [of_decide_eq_true h]
  simp only [nonPublicBlocks, List.forall_mem_cons, List.not_mem_nil, false_implies, implies_true, and_true,
    Ipv4Net.contains_8, Ipv4Net.contains_16, Ipv4Net.contains_24, Ipv4Net.contains_32, contains_shared,
    contains_private, contains_benchmarking, contains_multicast]
  simp only [isPublicIpv4, Ipv4Addr.isLoopback, Ipv4Addr.isLinkLocal, Ipv4Addr.isBroadcast, Ipv4Addr.isDocumentation,
    Ipv4Addr.isMulticast, Bool.if_false_left, Bool.and_eq_true, Bool.not_eq_true', Bool.or_eq_true,
    decide_eq_true_eq, decide_eq_false_iff_not, not_or, and_assoc, and_true]
  constructor
  . rintro ⟨-, hloopback, hlinkLocal, hbroadcast, htest1, htest2, htest3, hmulticast, hcurrent, hten, hprivate, hhome,
      hshared, hbenchmarking, -⟩
    exact ⟨hcurrent, hten, hshared, hloopback, hlinkLocal, hprivate, htest1, hhome, hbenchmarking, htest2, htest3,
      hmulticast, hbroadcast⟩
  . rintro ⟨hcurrent, hten, hshared, hloopback, hlinkLocal, hprivate, htest1, hhome, hbenchmarking, htest2, htest3,
      hmulticast, hbroadcast⟩
    exact ⟨fun h => hcurrent (hunspecified h), hloopback, hlinkLocal, hbroadcast, htest1, htest2, htest3, hmulticast,
      hcurrent, hten, hprivate, hhome, hshared, hbenchmarking, hlinkLocal⟩

end Blocks

section Embedded

variable {v : Ipv4Addr} {ip : Ipv6Addr}

/--
The first segment of an address that carries another.
-/
def carrierSegments : List (BitVec 16) := [0, 0x64, 0x2002]

theorem not_local_of_carrier : ∀ seg ∈ carrierSegments, seg &&& 0xff00 ≠ 0xff00 ∧ seg &&& 0xfe00 ≠ 0xfc00
    ∧ seg &&& 0xffc0 ≠ 0xfe80 ∧ seg &&& 0xffc0 ≠ 0xfec0 := by
  simp [carrierSegments]

theorem isPublicIpv6_of_carrier (hseg : ip.seg0 ∈ carrierSegments) (hunspecified : ip.isUnspecified = false)
    (hloopback : ip.isLoopback = false) : isPublicIpv6 ip
    = if ip.seg0 = 0 ∧ ip.seg1 = 0 ∧ ip.seg2 = 0 ∧ ip.seg3 = 0 ∧ ip.seg4 = 0 ∧ ip.seg5 = 0xffff then
        isPublicIpv4 (.ofSegments ip.seg6 ip.seg7)
      else
        true := by
  obtain ⟨hmulticast, hunique, hlinkLocal, hsiteLocal⟩ := not_local_of_carrier ip.seg0 hseg
  have hmulticast : ip.isMulticast = false := decide_eq_false hmulticast
  rw [isPublicIpv6, if_neg (by simp [hunspecified, hloopback, hmulticast]), if_neg hunique, if_neg hlinkLocal,
    if_neg hsiteLocal]
  exact if_congr (by simp only [Bool.and_eq_true, decide_eq_true_eq, and_assoc]) rfl rfl

theorem isPublicIpv6_mappedTo : isPublicIpv6 (.mappedTo v) = isPublicIpv4 v := by
  have hne : (0xffff : BitVec 16) ≠ 0 := by decide +kernel
  have hfirst (b : BitVec 16) : Ipv6Addr.mappedTo v ≠ ⟨0, 0, 0, 0, 0, 0, 0, b⟩ :=
    fun h => hne (congrArg Ipv6Addr.seg5 h)
  rw [isPublicIpv6_of_carrier (.head _) (decide_eq_false (hfirst 0)) (decide_eq_false (hfirst 1)),
    if_pos ⟨rfl, rfl, rfl, rfl, rfl, rfl⟩]
  exact congrArg isPublicIpv4 v.ofSegments_high_low

theorem isPublicIpv6_of_embeds (h : ip.Embeds v) (hmapped : ip ≠ .mappedTo v)
    : isPublicIpv6 ip = true := by
  have hfirst (b : BitVec 16) (hne : ip.seg0 ≠ 0) : ip ≠ ⟨0, 0, 0, 0, 0, 0, 0, b⟩ := by
    rintro rfl
    exact hne rfl
  cases h with
  | mapped => exact absurd rfl hmapped
  | compatible hunspecified hloopback =>
    have hne : (0 : BitVec 16) ≠ 0xffff := by decide +kernel
    rw [isPublicIpv6_of_carrier (.head _) hunspecified hloopback]
    exact if_neg fun h => hne h.2.2.2.2.2
  | nat64 =>
    have hne : (0x64 : BitVec 16) ≠ 0 := by decide +kernel
    rw [isPublicIpv6_of_carrier (.tail _ (.head _)) (decide_eq_false (hfirst 0 hne)) (decide_eq_false (hfirst 1 hne))]
    exact if_neg fun h => hne h.1
  | sixToFour =>
    have hne : (0x2002 : BitVec 16) ≠ 0 := by decide +kernel
    rw [isPublicIpv6_of_carrier (.tail _ (.tail _ (.head _))) (decide_eq_false (hfirst 0 hne))
      (decide_eq_false (hfirst 1 hne))]
    exact if_neg fun h => hne h.1

end Embedded

section Links

/--
An address that stays public when those that it carries are looked at.
-/
def PublicThrough : IpAddr → Prop
  | .v4 ip => isPublicIpv4 ip
  | .v6 ip => isPublicIpv6 ip ∧ ∀ v, ip.Embeds v → isPublicIpv4 v

/--
An address that carries one that is not public, in another form than the mapped one.
-/
def HidesPrivate : IpAddr → Prop
  | .v4 _ => False
  | .v6 ip => ∃ v, ip.Embeds v ∧ ip ≠ .mappedTo v ∧ isPublicIpv4 v = false

theorem publicThrough_iff {ip : IpAddr} : PublicThrough ip ↔ isPublicIp ip ∧ ¬HidesPrivate ip := by
  cases ip with
  | v4 ip => exact (and_iff_left id).symm
  | v6 ip =>
    refine and_congr_right fun hpublic => ?_
    constructor
    . rintro hcarried ⟨v, hembeds, -, hprivate⟩
      exact absurd (hcarried v hembeds) (Bool.eq_false_iff.1 hprivate)
    . intro hhides v hembeds
      by_cases hmapped : ip = .mappedTo v
      . have hpublic : isPublicIpv6 ip = true := hpublic
        rwa [hmapped, isPublicIpv6_mappedTo] at hpublic
      . by_contra hprivate
        exact hhides ⟨v, hembeds, hmapped, Bool.eq_false_iff.2 hprivate⟩

variable {network : Network} {raw : String}

/--
The parsed link of a text, its host, and what the host stands for.
-/
structure Resolves (network : Network) (raw : String) (url : Url) (host : String) (addrs : List SocketAddr)
    : Prop where
  parses : network.parseUrl raw = some url
  hasHost : url.hostStr = some host
  resolves : network.toSocketAddrs (url.target host) = some addrs

/--
A link that is refused for its scheme or its host.
-/
inductive BadLink (url : Url) (host : String) : Prop where
  | scheme (h : url.scheme ≠ "http" ∧ url.scheme ≠ "https")
  | empty (h : host = "")
  | localhost (h : Text.eqIgnoreAsciiCase host "localhost")
  | long (h : 253 < Text.len host)

theorem not_badLink_iff {url : Url} {host : String} : ¬BadLink url host
    ↔ ¬(url.scheme ≠ "http" ∧ url.scheme ≠ "https")
      ∧ ¬(host = "" || Text.eqIgnoreAsciiCase host "localhost" || 253 < Text.len host) = true := by
  simp only [Bool.or_eq_true, decide_eq_true_eq, or_assoc]
  rw [← not_or, not_iff_not]
  constructor
  . intro h
    cases h with
    | scheme h => exact .inl h
    | empty h => exact .inr (.inl h)
    | localhost h => exact .inr (.inr (.inl h))
    | long h => exact .inr (.inr (.inr h))
  . rintro (h | h | h | h)
    . exact .scheme h
    . exact .empty h
    . exact .localhost h
    . exact .long h

theorem validateAndPinUrl_eq_some_iff {url : Url} {pinned : SocketAddr}
    : validateAndPinUrl network raw = some (url, pinned)
    ↔ ∃ host addrs, Resolves network raw url host addrs ∧ ¬BadLink url host ∧ addrs.head? = some pinned
      ∧ ∀ a ∈ addrs, isPublicIp a.ip := by
  simp only [validateAndPinUrl, Option.bind_eq_bind, Option.bind_eq_some_iff, Option.ite_none_left_eq_some,
    Option.some.injEq, Prod.mk.injEq]
  constructor
  . rintro ⟨_, hparses, hscheme, host, hhost, hname, addrs, haddrs, _, hhead, hany, rfl, rfl⟩
    refine ⟨host, addrs, ⟨hparses, hhost, haddrs⟩, not_badLink_iff.2 ⟨hscheme, hname⟩, hhead, fun a ha => ?_⟩
    by_contra hprivate
    exact hany (List.any_eq_true.2 ⟨a, ha, by simpa using hprivate⟩)
  . rintro ⟨host, addrs, ⟨hparses, hhost, haddrs⟩, hgood, hhead, hpublic⟩
    obtain ⟨hscheme, hname⟩ := not_badLink_iff.1 hgood
    refine ⟨url, hparses, hscheme, host, hhost, hname, addrs, haddrs, pinned, hhead, fun hany => ?_, rfl, rfl⟩
    obtain ⟨a, ha, hprivate⟩ := List.any_eq_true.1 hany
    rw [hpublic a ha] at hprivate
    cases hprivate

/--
A link is fixed to an address only if every address that it stands for stays public when looked through.
-/
def PinsPublic (network : Network) (raw : String) : Prop :=
  ∀ url pinned, validateAndPinUrl network raw = some (url, pinned)
    → ∀ host addrs, Resolves network raw url host addrs → ∀ a ∈ addrs, PublicThrough a.ip

/--
A link to an address that hides a private one is bad in another way too.
-/
def HiddenRefused (network : Network) (raw : String) : Prop :=
  ∀ url host addrs, Resolves network raw url host addrs → (∃ a ∈ addrs, HidesPrivate a.ip)
    → BadLink url host ∨ ∃ a ∈ addrs, isPublicIp a.ip = false

theorem Resolves.unique {url : Url} {host host' : String} {addrs addrs' : List SocketAddr}
    (h : Resolves network raw url host addrs) (h' : Resolves network raw url host' addrs') : addrs = addrs' := by
  obtain rfl : host = host' := Option.some.inj (h.hasHost.symm.trans h'.hasHost)
  exact Option.some.inj (h.resolves.symm.trans h'.resolves)

theorem pinsPublic_iff : PinsPublic network raw ↔ HiddenRefused network raw := by
  constructor
  . intro hpins url host addrs hresolves ⟨a, ha, hhides⟩
    by_contra hgood
    obtain ⟨hlink, hpublic⟩ := not_or.1 hgood
    obtain ⟨pinned, hhead⟩ : ∃ pinned, addrs.head? = some pinned :=
      Option.isSome_iff_exists.1 (List.isSome_head?.2 (List.ne_nil_of_mem ha))
    have hall : ∀ a ∈ addrs, isPublicIp a.ip = true := fun a ha => by
      by_contra hprivate
      exact hpublic ⟨a, ha, Bool.eq_false_iff.2 hprivate⟩
    have haccepted := validateAndPinUrl_eq_some_iff.2 ⟨host, addrs, hresolves, hlink, hhead, hall⟩
    exact (publicThrough_iff.1 (hpins url pinned haccepted host addrs hresolves a ha)).2 hhides
  . intro hrefused url pinned haccepted host addrs hresolves a ha
    obtain ⟨host', addrs', hresolves', hlink, hhead, hpublic⟩ := validateAndPinUrl_eq_some_iff.1 haccepted
    obtain rfl : addrs = addrs' := hresolves.unique hresolves'
    refine publicThrough_iff.2 ⟨hpublic a ha, fun hhides => ?_⟩
    rcases hrefused url host' addrs hresolves' ⟨a, ha, hhides⟩ with hbad | ⟨b, hb, hprivate⟩
    . exact hlink hbad
    . exact absurd (hpublic b hb) (Bool.eq_false_iff.1 hprivate)

end Links

/--
The filter of addresses, and the filter of links over it, look behind an address of the newer version exactly as far
as the mapped addresses.
-/
theorem publicTargets_iff {v : Ipv4Addr} {ip : Ipv6Addr} (h : ip.Embeds v) (network : Network) (raw : String)
    : ((isPublicIpv6 ip = true → isPublicIpv4 v = true) ↔ ip = .mappedTo v ∨ isPublicIpv4 v = true)
      ∧ (PinsPublic network raw ↔ HiddenRefused network raw) := by
  refine ⟨⟨fun hpublic => ?_, fun hgood haccepted => ?_⟩, pinsPublic_iff⟩
  . by_cases hmapped : ip = .mappedTo v
    . exact .inl hmapped
    . exact .inr (hpublic (isPublicIpv6_of_embeds h hmapped))
  . rcases hgood with rfl | hpublic
    . exact isPublicIpv6_mappedTo.symm.trans haccepted
    . exact hpublic

/--
The router of a private network, and the address that a translator has for it.
-/
def router : Ipv4Addr := ⟨192, 168, 1, 1⟩

def translatedRouter : Ipv6Addr := ⟨0x64, 0xff9b, 0, 0, 0, 0, router.high, router.low⟩

def literalNetwork : Network where
  parseUrl raw := if raw = "http://[64:ff9b::c0a8:101]/" then some ⟨"http", some "[64:ff9b::c0a8:101]", some 80⟩ else none
  toSocketAddrs target := if target = "[64:ff9b::c0a8:101]:80" then some [⟨.v6 translatedRouter, 80⟩] else none

theorem isPublicIpv4_router : isPublicIpv4 router = false := by decide +kernel

theorem not_pinsPublic_translatedRouter : ¬PinsPublic literalNetwork "http://[64:ff9b::c0a8:101]/" := by
  have haccepted : validateAndPinUrl literalNetwork "http://[64:ff9b::c0a8:101]/"
      = some (⟨"http", some "[64:ff9b::c0a8:101]", some 80⟩, ⟨.v6 translatedRouter, 80⟩) := by
    decide +kernel
  intro hpins
  have hthrough := hpins _ _ haccepted "[64:ff9b::c0a8:101]" [⟨.v6 translatedRouter, 80⟩]
    ⟨by decide +kernel, rfl, by decide +kernel⟩ _ (.head _)
  exact absurd (hthrough.2 router .nat64) (Bool.eq_false_iff.1 isPublicIpv4_router)

theorem publicTargets_iff_router :
    isPublicIpv6 translatedRouter = true ∧ translatedRouter ≠ .mappedTo router
      ∧ ¬HiddenRefused literalNetwork "http://[64:ff9b::c0a8:101]/" := by
  have hpublic : isPublicIpv6 translatedRouter = true := by decide +kernel
  obtain ⟨haddr, hlink⟩ := publicTargets_iff .nat64 literalNetwork "http://[64:ff9b::c0a8:101]/"
  refine ⟨hpublic, fun hmapped => ?_, fun hrefused => not_pinsPublic_translatedRouter (hlink.2 hrefused)⟩
  have hrouter : isPublicIpv4 router = true := haddr.2 (.inl hmapped) hpublic
  exact absurd hrouter (Bool.eq_false_iff.1 isPublicIpv4_router)

theorem not_publicTargets_translatedRouter : translatedRouter.Embeds router ∧ isPublicIpv6 translatedRouter = true
    ∧ isPublicIpv4 router = false ∧ ¬PinsPublic literalNetwork "http://[64:ff9b::c0a8:101]/" :=
  ⟨.nat64, by decide +kernel, isPublicIpv4_router, not_pinsPublic_translatedRouter⟩

end Lqxp
