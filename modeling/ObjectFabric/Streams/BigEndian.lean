import Mathlib

/-!
# BigEndian — numbers as big-endian bytes of a fixed width
-/

namespace Streams

/-- The `width` low bytes of `n`, the most significant first. -/
def bigEndian : Nat → Nat → List UInt8
  | 0, _ => []
  | width + 1, n => UInt8.ofNat (n / 256 ^ width) :: bigEndian width n

def ofBigEndian (bytes : List UInt8) : Nat := bytes.foldl (fun acc b => acc * 256 + b.toNat) 0

@[simp] theorem length_bigEndian (width n : Nat) : (bigEndian width n).length = width := by
  induction width with
  | zero => rfl
  | succ width ih => rw [bigEndian, List.length_cons, ih]

theorem foldl_bigEndian (width n acc : Nat) :
    (bigEndian width n).foldl (fun acc b => acc * 256 + b.toNat) acc =
      acc * 256 ^ width + n % 256 ^ width := by
  induction width generalizing acc with
  | zero => simp [bigEndian, Nat.mod_one]
  | succ width ih => ?_
  have hbyte : (UInt8.ofNat (n / 256 ^ width)).toNat = n / 256 ^ width % 256 := by
    simp
  -- the leading byte and the bytes after it make up the remainder
  have hmod : n % 256 ^ (width + 1) = n / 256 ^ width % 256 * 256 ^ width + n % 256 ^ width := by
    rw [Nat.pow_succ, Nat.mod_mul, Nat.mul_comm (256 ^ width), Nat.add_comm]
  rw [bigEndian, List.foldl_cons, ih, hbyte, hmod, Nat.pow_succ, Nat.add_mul]
  rw [Nat.mul_assoc acc, Nat.mul_comm 256, Nat.add_assoc]

theorem foldl_bigEndian_lt (bytes : List UInt8) (acc : Nat) :
    bytes.foldl (fun acc b => acc * 256 + b.toNat) acc < (acc + 1) * 256 ^ bytes.length := by
  induction bytes generalizing acc with
  | nil =>
    show acc < (acc + 1) * 1
    omega
  | cons b bytes ih => ?_
  have hb := b.toNat_lt
  have hstep : (acc * 256 + b.toNat + 1) * 256 ^ bytes.length ≤
      (acc + 1) * 256 * 256 ^ bytes.length := Nat.mul_le_mul_right _ (by omega)
  calc List.foldl (fun acc b => acc * 256 + b.toNat) (acc * 256 + b.toNat) bytes
      < (acc * 256 + b.toNat + 1) * 256 ^ bytes.length := ih _
    _ ≤ (acc + 1) * 256 * 256 ^ bytes.length := hstep
    _ = (acc + 1) * 256 ^ (b :: bytes).length := by
      rw [List.length_cons, Nat.pow_succ, Nat.mul_assoc, Nat.mul_comm 256]

theorem ofBigEndian_lt (bytes : List UInt8) : ofBigEndian bytes < 256 ^ bytes.length := by
  have h := foldl_bigEndian_lt bytes 0
  rwa [Nat.zero_add, Nat.one_mul] at h

theorem ofBigEndian_bigEndian (width n : Nat) : ofBigEndian (bigEndian width n) = n % 256 ^ width := by
  rw [ofBigEndian, foldl_bigEndian, Nat.zero_mul, Nat.zero_add]

theorem bigEndian_inj {width m n : Nat} (hm : m < 256 ^ width) (hn : n < 256 ^ width)
    (h : bigEndian width m = bigEndian width n) : m = n := by
  have hvalue := congrArg ofBigEndian h
  rwa [ofBigEndian_bigEndian, ofBigEndian_bigEndian, Nat.mod_eq_of_lt hm,
    Nat.mod_eq_of_lt hn] at hvalue

end Streams
