import Mathlib.Data.Nat.Bitwise
import Mathlib.Data.Nat.Digits.Lemmas

/-! # The last address of a prefix

`LastIP` gives the end of the route that `handleIPProxyConn` advertises to a proxied peer. It sets
the host bits of the address byte by byte, from the last byte on, and is the greatest address of the
prefix whether or not the address of the prefix has host bits of its own.
-/

namespace DMS.Network

/-- `netip.Addr`: an IPv4 or IPv6 address without a zone, by the bytes that `AsSlice` returns. -/
structure Addr where
  bytes : List UInt8
  length : bytes.length = 4 ∨ bytes.length = 16
  deriving DecidableEq

/-- The number an address stands for. -/
def Addr.value (a : Addr) : Nat := Nat.ofDigits 256 (a.bytes.reverse.map UInt8.toNat)

/-- The order of `Addr.Compare`: by the length in bits, then by number. -/
def Addr.le (a b : Addr) : Bool :=
  a.bytes.length < b.bytes.length ∨ a.bytes.length = b.bytes.length ∧ a.value ≤ b.value

/-- A valid `netip.Prefix`. -/
structure Prefix where
  addr : Addr
  bits : Nat
  valid : bits ≤ 8 * addr.bytes.length

namespace Prefix

def hostBits (p : Prefix) : Nat := p.addr.bytes.length * 8 - p.bits

def contains (p : Prefix) (ip : Addr) : Bool :=
  ip.bytes.length = p.addr.bytes.length ∧ (ip.value ^^^ p.addr.value) >>> p.hostBits = 0

end Prefix

/-- The loop of `LastIP`, over the bytes from the last to the first. -/
def setHostBits : Nat → List UInt8 → List UInt8
  | _, [] => []
  | hostBits, b :: bs =>
    let setBits := min 8 hostBits
    if setBits = 0 then b :: bs
    else (b ||| UInt8.ofNat (0xff >>> (8 - setBits))) :: setHostBits (hostBits - 8) bs

theorem length_setHostBits (h : Nat) (bs : List UInt8) : (setHostBits h bs).length = bs.length := by
  fun_induction setHostBits h bs <;> simp_all

def lastIP (p : Prefix) : Addr where
  bytes := (setHostBits p.hostBits p.addr.bytes.reverse).reverse
  length := by simpa [length_setHostBits] using p.addr.length

theorem testBit_setHostBits (h : Nat) (bs : List UInt8) (hle : h ≤ 8 * bs.length) (i : Nat) :
    (Nat.ofDigits 256 ((setHostBits h bs).map UInt8.toNat)).testBit i =
      ((Nat.ofDigits 256 (bs.map UInt8.toNat)).testBit i || decide (i < h)) := by
  fun_induction setHostBits h bs generalizing i with
  | case1 h => simp_all
  | case2 h b bs setBits hzero =>
    obtain rfl : h = 0 := by omega
    simp
  | case3 h b bs setBits hzero ih =>
    have hcons : ∀ (b : UInt8) (n : Nat), (b.toNat + 256 * n).testBit i =
        if i < 8 then b.toNat.testBit i else n.testBit (i - 8) := fun b n => by
      rw [Nat.add_comm]
      exact Nat.testBit_two_pow_mul_add n b.toNat_lt i
    have hbyte : (UInt8.ofNat (0xff >>> (8 - setBits))).toNat.testBit i = decide (i < setBits) := by
      have : 8 - setBits + i < 8 ↔ i < setBits := by omega
      rw [UInt8.toNat_ofNat', Nat.mod_eq_of_lt
        (lt_of_le_of_lt (Nat.shiftRight_le ..) (by decide)), Nat.testBit_shiftRight,
        show 0xff = 2 ^ 8 - 1 from rfl, Nat.testBit_two_pow_sub_one, decide_eq_decide.mpr this]
    simp only [List.map_cons, Nat.ofDigits_cons, hcons]
    rw [UInt8.toNat_or, Nat.testBit_or, hbyte, ih (by simp at hle; omega)]
    split
    · simp [setBits, *]
    · simp only [show i - 8 < h - 8 ↔ i < h by omega]

theorem value_lastIP_testBit (p : Prefix) (i : Nat) :
    (lastIP p).value.testBit i = (p.addr.value.testBit i || decide (i < p.hostBits)) := by
  have h := testBit_setHostBits p.hostBits p.addr.bytes.reverse
    (by simp [Prefix.hostBits]; omega) i
  simpa [Addr.value, lastIP] using h

theorem Prefix.contains_iff {p : Prefix} {ip : Addr} :
    p.contains ip ↔ ip.bytes.length = p.addr.bytes.length ∧
      ∀ i, ip.value.testBit (p.hostBits + i) = p.addr.value.testBit (p.hostBits + i) := by
  rw [contains, decide_eq_true_eq, Nat.shiftRight_xor_distrib, Nat.xor_eq_zero_iff]
  simp only [← Nat.testBit_shiftRight]
  exact and_congr_right' ⟨fun h i => h ▸ rfl, Nat.eq_of_testBit_eq⟩

/-- `LastIP` is in the prefix, and no address of the prefix is greater. -/
theorem lastIP_greatest (p : Prefix) :
    p.contains (lastIP p) ∧ ∀ ip, p.contains ip → ip.le (lastIP p) := by
  have hlength : (lastIP p).bytes.length = p.addr.bytes.length := by
    simp [lastIP, length_setHostBits]
  refine ⟨Prefix.contains_iff.mpr ⟨hlength, fun i => by simp [value_lastIP_testBit]⟩,
    fun ip hip => ?_⟩
  obtain ⟨hip, hnet⟩ := Prefix.contains_iff.mp hip
  -- every address of the prefix, with its host bits set, is the last one
  have hlast : (lastIP p).value = ip.value ||| (2 ^ p.hostBits - 1) := by
    refine Nat.eq_of_testBit_eq fun i => ?_
    rw [value_lastIP_testBit, Nat.testBit_or, Nat.testBit_two_pow_sub_one]
    by_cases hi : i < p.hostBits
    · simp [hi]
    · rw [← Nat.add_sub_cancel' (Nat.le_of_not_lt hi), hnet]
  simp [Addr.le, hip, hlength, hlast, Nat.left_le_or]

end DMS.Network
