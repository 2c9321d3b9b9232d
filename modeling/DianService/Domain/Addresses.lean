import DianService.Lib.Cidr

/-
  Domain: which addresses webhooks are delivered to (`is_public_ip` of `webhooks.rs`). An IPv4
  address also stands in IPv6 addresses of several forms; `Routable` is about the address in any of
  them.
-/

namespace DianService

open Lib

/-! ## Addresses -/

@[ext]
structure Ipv4Addr where
  a : UInt8
  b : UInt8
  c : UInt8
  d : UInt8
  deriving DecidableEq

@[ext]
structure Ipv6Addr where
  s0 : UInt16
  s1 : UInt16
  s2 : UInt16
  s3 : UInt16
  s4 : UInt16
  s5 : UInt16
  s6 : UInt16
  s7 : UInt16
  deriving DecidableEq

inductive IpAddr where
  | v4 (ip : Ipv4Addr)
  | v6 (ip : Ipv6Addr)
  deriving DecidableEq

namespace Ipv4Addr

def isUnspecified (ip : Ipv4Addr) : Bool := ip = ⟨0, 0, 0, 0⟩

def isLoopback (ip : Ipv4Addr) : Bool := ip.a = 127

def isPrivate (ip : Ipv4Addr) : Bool :=
  ip.a = 10 || (ip.a = 172 && 16 ≤ ip.b && ip.b ≤ 31) || (ip.a = 192 && ip.b = 168)

def isLinkLocal (ip : Ipv4Addr) : Bool := ip.a = 169 && ip.b = 254

def isBroadcast (ip : Ipv4Addr) : Bool := ip = ⟨255, 255, 255, 255⟩

def isMulticast (ip : Ipv4Addr) : Bool := 224 ≤ ip.a && ip.a ≤ 239

def isDocumentation (ip : Ipv4Addr) : Bool :=
  (ip.a = 192 && ip.b = 0 && ip.c = 2) || (ip.a = 198 && ip.b = 51 && ip.c = 100) ||
    (ip.a = 203 && ip.b = 0 && ip.c = 113)

def value (ip : Ipv4Addr) : Nat :=
  ip.a.toNat * 2 ^ 24 + ip.b.toNat * 2 ^ 16 + ip.c.toNat * 2 ^ 8 + ip.d.toNat

end Ipv4Addr

namespace Ipv6Addr

def isUnspecified (ip : Ipv6Addr) : Bool := ip = ⟨0, 0, 0, 0, 0, 0, 0, 0⟩

def isLoopback (ip : Ipv6Addr) : Bool := ip = ⟨0, 0, 0, 0, 0, 0, 0, 1⟩

def isMulticast (ip : Ipv6Addr) : Bool := ip.s0 &&& 0xff00 = 0xff00

/-- Of an address in `::ffff:0:0/96`. -/
def toIpv4Mapped (ip : Ipv6Addr) : Option Ipv4Addr :=
  if ip.s0 = 0 ∧ ip.s1 = 0 ∧ ip.s2 = 0 ∧ ip.s3 = 0 ∧ ip.s4 = 0 ∧ ip.s5 = 0xffff then
    some ⟨(ip.s6 >>> 8).toUInt8, ip.s6.toUInt8, (ip.s7 >>> 8).toUInt8, ip.s7.toUInt8⟩
  else none

def value (ip : Ipv6Addr) : Nat :=
  ip.s0.toNat * 2 ^ 112 + ip.s1.toNat * 2 ^ 96 + ip.s2.toNat * 2 ^ 80 + ip.s3.toNat * 2 ^ 64 +
    ip.s4.toNat * 2 ^ 48 + ip.s5.toNat * 2 ^ 32 + ip.s6.toNat * 2 ^ 16 + ip.s7.toNat

end Ipv6Addr

/-! ## The filter -/

def isPublicV4 (ip : Ipv4Addr) : Bool :=
  !(ip.isUnspecified || ip.isLoopback || ip.isPrivate || ip.isLinkLocal || ip.isBroadcast ||
    ip.isMulticast || ip.isDocumentation || ip.a = 0 ||
    (ip.a = 100 && 64 ≤ ip.b && ip.b < 128) || (ip.a = 192 && ip.b = 0 && ip.c = 0) ||
    (ip.a = 198 && (ip.b = 18 || ip.b = 19)) || 240 ≤ ip.a)

def isPublicV6 (ip : Ipv6Addr) : Bool :=
  !(ip.isUnspecified || ip.isLoopback || ip.isMulticast || ip.s0 &&& 0xfe00 = 0xfc00 ||
    ip.s0 &&& 0xffc0 = 0xfe80 || (ip.s0 = 0x2001 && ip.s1 = 0x0db8) ||
    (ip.s0 = 0x0064 && ip.s1 = 0xff9b))

def isPublicIp : IpAddr → Bool
  | .v4 ip => isPublicV4 ip
  | .v6 ip =>
      match ip.toIpv4Mapped with
      | some v4 => isPublicV4 v4
      | none => isPublicV6 ip

/-! ## Routable addresses -/

/-- Loopback, private, link-local, multicast and documentation addresses, this network, shared
    addresses, protocol assignments, benchmarking and reserved addresses. -/
def specialBlocks4 : List Block :=
  [⟨0x7F000000, 8⟩, ⟨0x0A000000, 8⟩, ⟨0xAC100000, 12⟩, ⟨0xC0A80000, 16⟩, ⟨0xA9FE0000, 16⟩,
    ⟨0xE0000000, 4⟩, ⟨0xC0000200, 24⟩, ⟨0xC6336400, 24⟩, ⟨0xCB007100, 24⟩, ⟨0x00000000, 8⟩,
    ⟨0x64400000, 10⟩, ⟨0xC0000000, 24⟩, ⟨0xC6120000, 15⟩, ⟨0xF0000000, 4⟩]

def siteLocal : Block := ⟨0xfec0 * 2 ^ 112, 10⟩

/-- Unspecified, loopback, multicast, unique-local, link-local, documentation and site-local
    addresses. -/
def specialBlocks6 : List Block :=
  [⟨0, 128⟩, ⟨1, 128⟩, ⟨0xff00 * 2 ^ 112, 8⟩, ⟨0xfc00 * 2 ^ 112, 7⟩, ⟨0xfe80 * 2 ^ 112, 10⟩,
    ⟨0x20010db8 * 2 ^ 96, 32⟩, siteLocal]

/-- A form of IPv6 addresses with an IPv4 address in them, `shift` bits from the end. -/
structure Embedding where
  block : Block
  shift : Nat

def mapped : Embedding := ⟨⟨0xffff * 2 ^ 32, 96⟩, 0⟩

def compatible : Embedding := ⟨⟨0, 96⟩, 0⟩

def nat64 : Embedding := ⟨⟨0x64ff9b * 2 ^ 96, 96⟩, 0⟩

def sixToFour : Embedding := ⟨⟨0x2002 * 2 ^ 112, 16⟩, 80⟩

def Special4 (address : Nat) : Prop := Listed 32 specialBlocks4 address

/-- An address of the form, of a special IPv4 address. -/
def Embedding.Special (e : Embedding) (address : Nat) : Prop :=
  e.block.Contains 128 address ∧ Special4 (address / 2 ^ e.shift % 2 ^ 32)

/-- Neither special nor the form of a special IPv4 address. -/
def Routable : IpAddr → Prop
  | .v4 ip => ¬ Special4 ip.value
  | .v6 ip => ¬ Listed 128 specialBlocks6 ip.value ∧
      ∀ e ∈ [mapped, compatible, nat64, sixToFour], ¬ e.Special ip.value

/-- What the filter does not look at: site-local addresses, and special IPv4 addresses in the
    IPv4-compatible form, but for `::` and `::1`, and in the 6to4 form. -/
def Overlooked : IpAddr → Prop
  | .v4 _ => False
  | .v6 ip => siteLocal.Contains 128 ip.value ∨
      (compatible.Special ip.value ∧ ip.value ≠ 0 ∧ ip.value ≠ 1) ∨ sixToFour.Special ip.value

/-! ## IPv4 -/

theorem special4_iff (ip : Ipv4Addr) : Special4 ip.value ↔
    ip.a.toNat = 127 ∨ ip.a.toNat = 10 ∨
      (ip.a.toNat = 172 ∧ 16 ≤ ip.b.toNat ∧ ip.b.toNat ≤ 31) ∨
      (ip.a.toNat = 192 ∧ ip.b.toNat = 168) ∨ (ip.a.toNat = 169 ∧ ip.b.toNat = 254) ∨
      (224 ≤ ip.a.toNat ∧ ip.a.toNat ≤ 239) ∨
      (ip.a.toNat = 192 ∧ ip.b.toNat = 0 ∧ ip.c.toNat = 2) ∨
      (ip.a.toNat = 198 ∧ ip.b.toNat = 51 ∧ ip.c.toNat = 100) ∨
      (ip.a.toNat = 203 ∧ ip.b.toNat = 0 ∧ ip.c.toNat = 113) ∨ ip.a.toNat = 0 ∨
      (ip.a.toNat = 100 ∧ 64 ≤ ip.b.toNat ∧ ip.b.toNat < 128) ∨
      (ip.a.toNat = 192 ∧ ip.b.toNat = 0 ∧ ip.c.toNat = 0) ∨
      (ip.a.toNat = 198 ∧ (ip.b.toNat = 18 ∨ ip.b.toNat = 19)) ∨ 240 ≤ ip.a.toNat := by
  have ha := ip.a.toNat_lt
  have hb := ip.b.toNat_lt
  have hc := ip.c.toNat_lt
  have hd := ip.d.toNat_lt
  simp only [Special4, specialBlocks4, listed_cons, listed_nil, or_false, Block.Contains,
    Ipv4Addr.value, Nat.reduceSub, Nat.reducePow, Nat.reduceDiv]
  repeat' apply or_congr
  all_goals omega

theorem isPublicV4_iff (ip : Ipv4Addr) : isPublicV4 ip = true ↔ ¬ Special4 ip.value := by
  have hzero : ip.isUnspecified = true → ip.a.toNat = 0 := by
    intro h
    rw [of_decide_eq_true h]
    rfl
  have hall : ip.isBroadcast = true → 240 ≤ ip.a.toNat := by
    intro h
    rw [of_decide_eq_true h]
    decide
  rw [special4_iff, ← Bool.not_eq_false, isPublicV4, Bool.not_eq_false']
  refine not_congr ?_
  simp only [Ipv4Addr.isLoopback, Ipv4Addr.isPrivate, Ipv4Addr.isLinkLocal,
    Ipv4Addr.isMulticast, Ipv4Addr.isDocumentation, Bool.or_eq_true,
    Bool.and_eq_true, decide_eq_true_eq, UInt8.le_iff_toNat_le, UInt8.lt_iff_toNat_lt,
    ← UInt8.toNat_inj, UInt8.reduceToNat, or_assoc, and_assoc]
  refine (or_iff_right_of_imp fun h => ?_).trans ?_
  · simp only [hzero h, true_or, or_true]
  · refine or_congr Iff.rfl (or_congr Iff.rfl (or_congr Iff.rfl (or_congr Iff.rfl
      (or_congr Iff.rfl (or_iff_right_of_imp fun h => ?_)))))
    simp only [hall h, or_true]
/-! ## IPv6 -/

section V6

variable (ip : Ipv6Addr)

theorem Ipv6Addr.segments_lt : ip.s0.toNat < 2 ^ 16 ∧ ip.s1.toNat < 2 ^ 16 ∧
    ip.s2.toNat < 2 ^ 16 ∧ ip.s3.toNat < 2 ^ 16 ∧ ip.s4.toNat < 2 ^ 16 ∧ ip.s5.toNat < 2 ^ 16 ∧
      ip.s6.toNat < 2 ^ 16 ∧ ip.s7.toNat < 2 ^ 16 :=
  ⟨ip.s0.toNat_lt, ip.s1.toNat_lt, ip.s2.toNat_lt, ip.s3.toNat_lt, ip.s4.toNat_lt, ip.s5.toNat_lt,
    ip.s6.toNat_lt, ip.s7.toNat_lt⟩

theorem siteLocal_iff : siteLocal.Contains 128 ip.value ↔ ip.s0.toNat / 2 ^ 6 = 1019 := by
  obtain ⟨h0, h1, h2, h3, h4, h5, h6, h7⟩ := ip.segments_lt
  simp only [siteLocal, Block.Contains, Ipv6Addr.value, Nat.reduceSub, Nat.reducePow,
    Nat.reduceDiv, Nat.reduceMul]
  omega

theorem special6_iff : Listed 128 specialBlocks6 ip.value ↔
    ip.value = 0 ∨ ip.value = 1 ∨ ip.s0.toNat / 2 ^ 8 = 255 ∨ ip.s0.toNat / 2 ^ 9 = 126 ∨
      ip.s0.toNat / 2 ^ 6 = 1018 ∨ (ip.s0.toNat = 0x2001 ∧ ip.s1.toNat = 0x0db8) ∨
      ip.s0.toNat / 2 ^ 6 = 1019 := by
  obtain ⟨h0, h1, h2, h3, h4, h5, h6, h7⟩ := ip.segments_lt
  simp only [specialBlocks6, listed_cons, listed_nil, or_false]
  repeat' apply or_congr
  all_goals
    simp only [siteLocal, Block.Contains, Ipv6Addr.value, Nat.reduceSub, Nat.reducePow,
      Nat.reduceDiv, Nat.reduceMul]
    omega

/-- An address is zero, or one, if its segments say so. -/
theorem Ipv6Addr.eq_iff_value (other : Ipv6Addr) : ip = other ↔ ip.value = other.value := by
  obtain ⟨h0, h1, h2, h3, h4, h5, h6, h7⟩ := ip.segments_lt
  obtain ⟨k0, k1, k2, k3, k4, k5, k6, k7⟩ := other.segments_lt
  simp only [Ipv6Addr.ext_iff, ← UInt16.toNat_inj, Ipv6Addr.value]
  omega

/-- The masks of the filter. -/
theorem mask_iff {s mask base : UInt16} {k : Nat} (hk : k ≤ 16)
    (hmask : mask.toNat = 2 ^ 16 - 2 ^ k) (hbase : 2 ^ k ∣ base.toNat) :
    s &&& mask = base ↔ s.toNat / 2 ^ k = base.toNat / 2 ^ k := by
  rw [← UInt16.toNat_inj, UInt16.toNat_and, hmask]
  exact land_mask_eq_iff hk s.toNat_lt hbase

theorem isPublicV6_iff : isPublicV6 ip = true ↔
    ¬ (ip.value = 0 ∨ ip.value = 1 ∨ ip.s0.toNat / 2 ^ 8 = 255 ∨ ip.s0.toNat / 2 ^ 9 = 126 ∨
      ip.s0.toNat / 2 ^ 6 = 1018 ∨ (ip.s0.toNat = 0x2001 ∧ ip.s1.toNat = 0x0db8) ∨
      (ip.s0.toNat = 0x0064 ∧ ip.s1.toNat = 0xff9b)) := by
  rw [← Bool.not_eq_false, isPublicV6, Bool.not_eq_false']
  refine not_congr ?_
  simp only [Ipv6Addr.isUnspecified, Ipv6Addr.isLoopback, Ipv6Addr.isMulticast, Bool.or_eq_true,
    Bool.and_eq_true, decide_eq_true_eq, or_assoc]
  refine or_congr (ip.eq_iff_value _) (or_congr (ip.eq_iff_value _) (or_congr ?_ (or_congr ?_
    (or_congr ?_ (or_congr ?_ ?_)))))
  · exact mask_iff (by decide) (by decide) (by decide)
  · exact mask_iff (by decide) (by decide) (by decide)
  · exact mask_iff (by decide) (by decide) (by decide)
  · rw [← UInt16.toNat_inj, ← UInt16.toNat_inj]
    rfl
  · rw [← UInt16.toNat_inj, ← UInt16.toNat_inj]
    rfl

/-- The forms of an address that embed an IPv4 address, by its segments. -/
theorem embeddings_iff :
    (mapped.block.Contains 128 ip.value ↔ ip.value / 2 ^ 32 = 0xffff) ∧
      (compatible.block.Contains 128 ip.value ↔ ip.value / 2 ^ 32 = 0) ∧
      (nat64.block.Contains 128 ip.value →
        ip.s0.toNat = 0x0064 ∧ ip.s1.toNat = 0xff9b) ∧
      (sixToFour.block.Contains 128 ip.value ↔ ip.s0.toNat = 0x2002) := by
  obtain ⟨h0, h1, h2, h3, h4, h5, h6, h7⟩ := ip.segments_lt
  simp only [mapped, compatible, nat64, sixToFour, Block.Contains, Ipv6Addr.value, Nat.reduceSub,
    Nat.reducePow, Nat.reduceDiv, Nat.reduceMul]
  exact ⟨trivial, trivial, by omega, by omega⟩

theorem toIpv4Mapped_none (h : ip.toIpv4Mapped = none) : ip.value / 2 ^ 32 ≠ 0xffff := by
  obtain ⟨h0, h1, h2, h3, h4, h5, h6, h7⟩ := ip.segments_lt
  intro hvalue
  refine absurd h ?_
  rw [Ipv6Addr.toIpv4Mapped, if_pos]
  · exact Option.some_ne_none _
  · simp only [← UInt16.toNat_inj]
    simp only [Ipv6Addr.value] at hvalue
    refine ⟨?_, ?_, ?_, ?_, ?_, ?_⟩ <;> simp only [UInt16.reduceToNat] <;> omega

theorem toIpv4Mapped_some {v4 : Ipv4Addr} (h : ip.toIpv4Mapped = some v4) :
    ip.value / 2 ^ 32 = 0xffff ∧ ip.value % 2 ^ 32 = v4.value := by
  obtain ⟨h0, h1, h2, h3, h4, h5, h6, h7⟩ := ip.segments_lt
  unfold Ipv6Addr.toIpv4Mapped at h
  split_ifs at h with hmapped
  cases h
  simp only [← UInt16.toNat_inj, UInt16.reduceToNat] at hmapped
  obtain ⟨e0, e1, e2, e3, e4, e5⟩ := hmapped
  simp only [Ipv6Addr.value, Ipv4Addr.value, e0, e1, e2, e3, e4, e5, UInt16.toNat_toUInt8,
    UInt16.toNat_shiftRight, UInt16.reduceToNat, Nat.shiftRight_eq_div_pow, Nat.reduceMod,
    Nat.reducePow]
  omega

end V6

/-! ## What is public -/

/-- What is public is routable, but for the addresses that the filter does not look at, which are
    all public. -/
theorem public_routable_iff (ip : IpAddr) :
    (isPublicIp ip = true → Routable ip) ↔ ¬ Overlooked ip := by
  cases ip with
  | v4 ip => exact iff_of_true (isPublicV4_iff ip).mp id
  | v6 ip =>
    obtain ⟨hmapped, hcompatible, hnat64, hsix⟩ := embeddings_iff ip
    have hfilter := isPublicV6_iff ip
    have hspecial := special6_iff ip
    have hsite := siteLocal_iff ip
    have hsegment : ip.s0.toNat = ip.value / 2 ^ 112 := by
      obtain ⟨h0, h1, h2, h3, h4, h5, h6, h7⟩ := ip.segments_lt
      simp only [Ipv6Addr.value]
      omega
    simp only [Routable, Overlooked, isPublicIp, List.forall_mem_cons, List.not_mem_nil,
      false_implies, implies_true, and_true, Embedding.Special]
    cases hv4 : ip.toIpv4Mapped with
    | some v4 =>
      obtain ⟨hform, hvalue⟩ := toIpv4Mapped_some ip hv4
      have hembedded : ip.value / 2 ^ mapped.shift % 2 ^ 32 = v4.value := by
        rw [← hvalue]
        simp [mapped]
      have hpublic := isPublicV4_iff v4
      refine iff_of_true (fun h => ⟨?_, ?_, ?_, ?_, ?_⟩) ?_
      · rw [hspecial]
        omega
      · rw [hembedded]
        exact fun hmap => hpublic.mp h hmap.2
      · rw [hcompatible]
        omega
      · intro hnat
        have := hnat64 hnat.1
        omega
      · rw [hsix]
        omega
      · rw [hsite, hcompatible, hsix]
        omega
    | none =>
      have hform := toIpv4Mapped_none ip hv4
      by_cases hpublic : isPublicV6 ip = true
      · have hnot := hfilter.mp hpublic
        have hzero : ip.value ≠ 0 ∧ ip.value ≠ 1 := by omega
        have hlisted : Listed 128 specialBlocks6 ip.value ↔ siteLocal.Contains 128 ip.value := by
          rw [hspecial, hsite]
          omega
        have hnomap : ¬ mapped.block.Contains 128 ip.value := by
          rw [hmapped]
          exact hform
        have hnonat : ¬ nat64.block.Contains 128 ip.value := by
          intro hnat
          have := hnat64 hnat
          omega
        rw [hlisted, forall_prop_of_true hpublic]
        simp only [hnomap, hnonat, hzero, false_and, not_false_eq_true, true_and, and_true, ne_eq,
          not_or]
      · have hnot := not_not.mp (mt hfilter.mpr hpublic)
        refine iff_of_true (fun h => absurd h hpublic) ?_
        rw [hsite, hcompatible, hsix]
        omega

end DianService
