import Mathlib.Algebra.Group.Nat.Defs
import Mathlib.Data.List.Basic

/-!
This module contains internet addresses of both versions, their blocks, and the ways in which an address of the newer
version carries one of the older.
-/

structure Ipv4Addr where
  o0 : BitVec 8
  o1 : BitVec 8
  o2 : BitVec 8
  o3 : BitVec 8
  deriving DecidableEq, Repr

structure Ipv6Addr where
  seg0 : BitVec 16
  seg1 : BitVec 16
  seg2 : BitVec 16
  seg3 : BitVec 16
  seg4 : BitVec 16
  seg5 : BitVec 16
  seg6 : BitVec 16
  seg7 : BitVec 16
  deriving DecidableEq, Repr

inductive IpAddr where
  | v4 (ip : Ipv4Addr)
  | v6 (ip : Ipv6Addr)
  deriving DecidableEq, Repr

namespace Ipv4Addr

variable (ip : Ipv4Addr)

def isUnspecified : Bool := ip = ⟨0, 0, 0, 0⟩

def isLoopback : Bool := ip.o0 = 127

def isLinkLocal : Bool := ip.o0 = 169 && ip.o1 = 254

def isBroadcast : Bool := ip = ⟨255, 255, 255, 255⟩

def isDocumentation : Bool :=
  (ip.o0 = 192 && ip.o1 = 0 && ip.o2 = 2) || (ip.o0 = 198 && ip.o1 = 51 && ip.o2 = 100)
    || (ip.o0 = 203 && ip.o1 = 0 && ip.o2 = 113)

def isMulticast : Bool := 224 ≤ ip.o0 && ip.o0 ≤ 239

def toNat : Nat := ((ip.o0.toNat * 256 + ip.o1.toNat) * 256 + ip.o2.toNat) * 256 + ip.o3.toNat

def high : BitVec 16 := ip.o0 ++ ip.o1

def low : BitVec 16 := ip.o2 ++ ip.o3

def ofSegments (high low : BitVec 16) : Ipv4Addr :=
  ⟨(high >>> 8).setWidth 8, (high &&& 0xff).setWidth 8, (low >>> 8).setWidth 8, (low &&& 0xff).setWidth 8⟩

theorem setWidth_append_shiftRight (hi lo : BitVec 8) : ((hi ++ lo : BitVec 16) >>> 8).setWidth 8 = hi := by
  apply BitVec.eq_of_getLsbD_eq
  intro i hlt
  rw [BitVec.getLsbD_setWidth, BitVec.getLsbD_ushiftRight, BitVec.getLsbD_append, if_neg (by omega),
    Nat.add_sub_cancel_left, decide_eq_true hlt, Bool.true_and]

theorem setWidth_append_and (hi lo : BitVec 8) : ((hi ++ lo : BitVec 16) &&& 0xff).setWidth 8 = lo := by
  have hones : (0xff : BitVec 16) = (BitVec.allOnes 8).setWidth 16 := by decide
  apply BitVec.eq_of_getLsbD_eq
  intro i hlt
  rw [hones, BitVec.getLsbD_setWidth, BitVec.getLsbD_and, BitVec.getLsbD_append, if_pos hlt, BitVec.getLsbD_setWidth,
    BitVec.getLsbD_allOnes, decide_eq_true hlt, decide_eq_true (Nat.lt_trans hlt (by decide)), Bool.true_and,
    Bool.true_and, Bool.and_true]

@[simp]
theorem ofSegments_high_low : ofSegments ip.high ip.low = ip := by
  simp only [ofSegments, high, low, setWidth_append_shiftRight, setWidth_append_and]

end Ipv4Addr

/--
A block of addresses: those that share their first bits.
-/
structure Ipv4Net where
  addr : Ipv4Addr
  length : Nat
  deriving DecidableEq, Repr

namespace Ipv4Net

def Contains (net : Ipv4Net) (ip : Ipv4Addr) : Prop :=
  ip.toNat / 2 ^ (32 - net.length) = net.addr.toNat / 2 ^ (32 - net.length)

instance (net : Ipv4Net) (ip : Ipv4Addr) : Decidable (net.Contains ip) :=
  inferInstanceAs (Decidable (_ = _))

variable {ip : Ipv4Addr} {a b c d : BitVec 8}

theorem contains_first {k : Nat} (hk : k ≤ 8) : Contains ⟨⟨a, 0, 0, 0⟩, k⟩ ip
    ↔ ip.o0.toNat / 2 ^ (8 - k) = a.toNat / 2 ^ (8 - k) := by
  have hlength : 32 - k = 24 + (8 - k) := by omega
  have hlow (o0 o1 o2 o3 : BitVec 8) : Ipv4Addr.toNat ⟨o0, o1, o2, o3⟩ / 2 ^ 24 = o0.toNat := by
    have := o1.isLt
    have := o2.isLt
    have := o3.isLt
    simp only [Ipv4Addr.toNat]
    omega
  obtain ⟨o0, o1, o2, o3⟩ := ip
  rw [Contains, hlength, Nat.pow_add, ← Nat.div_div_eq_div_mul, ← Nat.div_div_eq_div_mul, hlow, hlow]

theorem contains_24 : Contains ⟨⟨a, b, c, 0⟩, 24⟩ ip ↔ ip.o0 = a ∧ ip.o1 = b ∧ ip.o2 = c := by
  simp only [Contains, Ipv4Addr.toNat, BitVec.toNat_eq]
  have := ip.o1.isLt
  have := ip.o2.isLt
  have := ip.o3.isLt
  have := b.isLt
  have := c.isLt
  simp
  omega

theorem contains_32 : Contains ⟨⟨a, b, c, d⟩, 32⟩ ip ↔ ip = ⟨a, b, c, d⟩ := by
  obtain ⟨o0, o1, o2, o3⟩ := ip
  simp only [Contains, Ipv4Addr.toNat, Ipv4Addr.mk.injEq, BitVec.toNat_eq]
  have := o1.isLt
  have := o2.isLt
  have := o3.isLt
  have := b.isLt
  have := c.isLt
  have := d.isLt
  simp
  omega

theorem contains_second {k : Nat} (hk : k ≤ 8) : Contains ⟨⟨a, b, 0, 0⟩, 8 + k⟩ ip
    ↔ ip.o0 = a ∧ ip.o1.toNat / 2 ^ (8 - k) = b.toNat / 2 ^ (8 - k) := by
  have hlength : 32 - (8 + k) = 16 + (8 - k) := by omega
  have hsplit (o0 o1 o2 o3 : BitVec 8) : Ipv4Addr.toNat ⟨o0, o1, o2, o3⟩ / 2 ^ (16 + (8 - k))
      = (o0.toNat * 2 ^ 8 + o1.toNat) / 2 ^ (8 - k) := by
    have hlow : Ipv4Addr.toNat ⟨o0, o1, o2, o3⟩ / 2 ^ 16 = o0.toNat * 2 ^ 8 + o1.toNat := by
      have := o2.isLt
      have := o3.isLt
      simp only [Ipv4Addr.toNat]
      omega
    rw [Nat.pow_add, ← Nat.div_div_eq_div_mul, hlow]
  have hfirst (o0 o1 : BitVec 8) : (o0.toNat * 2 ^ 8 + o1.toNat) / 2 ^ (8 - k)
      = o0.toNat * 2 ^ k + o1.toNat / 2 ^ (8 - k) := by
    have hpow : 2 ^ 8 = 2 ^ k * 2 ^ (8 - k) := by rw [← Nat.pow_add, Nat.add_sub_cancel' hk]
    rw [hpow, ← Nat.mul_assoc, Nat.add_comm, Nat.add_mul_div_right _ _ (Nat.two_pow_pos _), Nat.add_comm]
  have hlt (o : BitVec 8) : o.toNat / 2 ^ (8 - k) < 2 ^ k := by
    rw [Nat.div_lt_iff_lt_mul (Nat.two_pow_pos _), ← Nat.pow_add, Nat.add_sub_cancel' hk]
    exact o.isLt
  obtain ⟨o0, o1, o2, o3⟩ := ip
  simp only [Contains, hlength, hsplit, hfirst, BitVec.toNat_eq]
  constructor
  . intro h
    have hdiv := congrArg (· / 2 ^ k) h
    have hmod := congrArg (· % 2 ^ k) h
    simp only [Nat.mul_comm _ (2 ^ k), Nat.mul_add_div (Nat.two_pow_pos k), Nat.div_eq_of_lt (hlt _),
      Nat.mul_add_mod, Nat.mod_eq_of_lt (hlt _), Nat.add_zero] at hdiv hmod
    exact ⟨hdiv, hmod⟩
  . rintro ⟨hfst, hsnd⟩
    rw [hfst, hsnd]

theorem contains_8 : Contains ⟨⟨a, 0, 0, 0⟩, 8⟩ ip ↔ ip.o0 = a := by
  rw [contains_first (Nat.le_refl 8), BitVec.toNat_eq, Nat.sub_self, Nat.pow_zero, Nat.div_one, Nat.div_one]

theorem contains_16 : Contains ⟨⟨a, b, 0, 0⟩, 16⟩ ip ↔ ip.o0 = a ∧ ip.o1 = b := by
  rw [contains_second (Nat.le_refl 8), BitVec.toNat_eq (x := ip.o1), Nat.sub_self, Nat.pow_zero, Nat.div_one,
    Nat.div_one]

end Ipv4Net

namespace Ipv6Addr

variable (ip : Ipv6Addr)

def isUnspecified : Bool := ip = ⟨0, 0, 0, 0, 0, 0, 0, 0⟩

def isLoopback : Bool := ip = ⟨0, 0, 0, 0, 0, 0, 0, 1⟩

def isMulticast : Bool := ip.seg0 &&& 0xff00 = 0xff00

def mappedTo (v : Ipv4Addr) : Ipv6Addr := ⟨0, 0, 0, 0, 0, 0xffff, v.high, v.low⟩

/--
The address `v` is carried by another: mapped, in the compatible form of `::/96`, translated to `64:ff9b::/96`, or
with a network of its own under `2002::/16`.
-/
inductive Embeds (v : Ipv4Addr) : Ipv6Addr → Prop where
  | mapped : Embeds v (mappedTo v)
  | compatible (hunspecified : isUnspecified ⟨0, 0, 0, 0, 0, 0, v.high, v.low⟩ = false)
      (hloopback : isLoopback ⟨0, 0, 0, 0, 0, 0, v.high, v.low⟩ = false)
    : Embeds v ⟨0, 0, 0, 0, 0, 0, v.high, v.low⟩
  | nat64 : Embeds v ⟨0x64, 0xff9b, 0, 0, 0, 0, v.high, v.low⟩
  | sixToFour (seg3 seg4 seg5 seg6 seg7 : BitVec 16) : Embeds v ⟨0x2002, v.high, v.low, seg3, seg4, seg5, seg6, seg7⟩

end Ipv6Addr
