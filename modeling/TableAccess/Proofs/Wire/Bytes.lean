import Mathlib.Tactic.Ring
import TableAccess.Wire

/-!
Numbers as bytes.

Writing a number in some bytes and reading it back gives the number up to what the bytes can hold,
and reading bytes and writing the number in as many bytes gives the bytes. The same holds of
integers in two's complement, for which half of the range is negative.
-/

namespace TableAccess.Wire

/-! ### Natural numbers -/

@[simp]
theorem length_bigEndian (width n : Nat) : (bigEndian width n).length = width := by
  induction width with
  | zero => rfl
  | succ width ih => rw [bigEndian, List.length_cons, ih]

@[simp]
theorem length_signedBytes (width : Nat) (n : Int) : (signedBytes width n).length = width :=
  length_bigEndian _ _

/-- Reading on after a number moves it up. -/
theorem foldl_bytes (bs : List UInt8) (n : Nat) :
    bs.foldl (fun n b => 256 * n + b.toNat) n = n * 256 ^ bs.length + ofBigEndian bs := by
  induction bs generalizing n with
  | nil => simp [ofBigEndian]
  | cons b bs ih =>
    rw [ofBigEndian, List.foldl_cons, List.foldl_cons, ih, ih (256 * 0 + b.toNat), List.length_cons]
    ring

/-- The first byte counts as often as there are numbers that the others can hold. -/
theorem ofBigEndian_cons (b : UInt8) (bs : List UInt8) :
    ofBigEndian (b :: bs) = b.toNat * 256 ^ bs.length + ofBigEndian bs := by
  rw [ofBigEndian, List.foldl_cons, foldl_bytes, Nat.mul_zero, Nat.zero_add]

theorem ofBigEndian_lt (bs : List UInt8) : ofBigEndian bs < 256 ^ bs.length := by
  induction bs with
  | nil => decide
  | cons b bs ih =>
    have hb : b.toNat < 256 := b.toNat_lt
    have hstep : b.toNat * 256 ^ bs.length ≤ 255 * 256 ^ bs.length :=
      Nat.mul_le_mul_right _ (by omega)
    rw [ofBigEndian_cons, List.length_cons, Nat.pow_succ]
    omega

/-- What the bytes cannot hold is dropped. -/
theorem ofBigEndian_bigEndian (width n : Nat) :
    ofBigEndian (bigEndian width n) = n % 256 ^ width := by
  induction width with
  | zero => simp [bigEndian, ofBigEndian, Nat.mod_one]
  | succ width ih =>
    have hhead : (UInt8.ofNat (n / Nat.pow 256 width)).toNat = n / 256 ^ width % 256 := by simp
    rw [bigEndian, ofBigEndian_cons, ih, length_bigEndian, hhead, Nat.pow_succ, Nat.mod_mul,
      Nat.mul_comm, Nat.add_comm]

/-- A multiple of what the bytes can hold is dropped. -/
theorem bigEndian_add (width k n : Nat) :
    bigEndian width (k * 256 ^ width + n) = bigEndian width n := by
  induction width generalizing k with
  | zero => rfl
  | succ width ih =>
    have hsplit : k * 256 ^ (width + 1) + n = k * 256 * 256 ^ width + n := by ring
    have hhead : (k * 256 * 256 ^ width + n) / 256 ^ width = k * 256 + n / 256 ^ width := by
      rw [Nat.add_comm, Nat.add_mul_div_right _ _ (Nat.pow_pos (by decide)), Nat.add_comm]
    have hbyte : UInt8.ofNat (k * 256 + n / 256 ^ width) = UInt8.ofNat (n / 256 ^ width) := by
      apply UInt8.toNat.inj
      simp
    rw [hsplit, bigEndian, bigEndian, ih (k * 256)]
    exact congrArg (· :: bigEndian width n) ((congrArg UInt8.ofNat hhead).trans hbyte)

theorem bigEndian_ofBigEndian (bs : List UInt8) : bigEndian bs.length (ofBigEndian bs) = bs := by
  induction bs with
  | nil => rfl
  | cons b bs ih =>
    have hlt := ofBigEndian_lt bs
    have hhead : (b.toNat * 256 ^ bs.length + ofBigEndian bs) / 256 ^ bs.length = b.toNat := by
      rw [Nat.add_comm, Nat.add_mul_div_right _ _ (Nat.pow_pos (by decide)),
        Nat.div_eq_of_lt hlt, Nat.zero_add]
    have hbyte : UInt8.ofNat ((b.toNat * 256 ^ bs.length + ofBigEndian bs) / Nat.pow 256 bs.length)
        = b := (congrArg UInt8.ofNat hhead).trans (UInt8.ofNat_toNat)
    rw [ofBigEndian_cons, List.length_cons, bigEndian, bigEndian_add, ih, hbyte]

/-! ### Integers -/

/-- The bytes of an integer hold it up to a multiple of their range. -/
theorem ofBigEndian_signedBytes (width : Nat) (n : Int) :
    (ofBigEndian (signedBytes width n) : Int) = n % (256 ^ width : Nat) := by
  have hpos : ((256 ^ width : Nat) : Int) ≠ 0 := by
    have : 0 < 256 ^ width := Nat.pow_pos (by decide)
    omega
  have hnonneg : 0 ≤ n % (256 ^ width : Nat) := Int.emod_nonneg n hpos
  have hlt : n % (256 ^ width : Nat) < (256 ^ width : Nat) :=
    Int.emod_lt_of_pos n (by omega)
  have hfits : (n % (256 ^ width : Nat)).toNat % 256 ^ width = (n % (256 ^ width : Nat)).toNat :=
    Nat.mod_eq_of_lt (by omega)
  rw [signedBytes, ofBigEndian_bigEndian]
  exact (congrArg Nat.cast hfits).trans (Int.toNat_of_nonneg hnonneg)

theorem ofSignedBytes_signedBytes {width : Nat} {n : Int} (hlow : -(256 ^ width : Nat) ≤ n * 2)
    (hhigh : n * 2 < (256 ^ width : Nat)) : ofSignedBytes (signedBytes width n) = n := by
  rw [ofSignedBytes, length_signedBytes, ofBigEndian_signedBytes]
  exact (Int.emod_bmod ..).trans (Int.bmod_eq_of_le_mul_two hlow hhigh)

theorem signedBytes_ofSignedBytes (bs : List UInt8) :
    signedBytes bs.length (ofSignedBytes bs) = bs := by
  have hlt := ofBigEndian_lt bs
  have hmod : (ofSignedBytes bs % (256 ^ bs.length : Nat)).toNat = ofBigEndian bs := by
    rw [ofSignedBytes]
    have hemod : Int.bmod (ofBigEndian bs) (Nat.pow 256 bs.length) % (256 ^ bs.length : Nat) =
        (ofBigEndian bs : Int) % (256 ^ bs.length : Nat) := Int.bmod_emod
    rw [hemod, Int.emod_eq_of_lt (by omega) (by omega), Int.toNat_natCast]
  exact (congrArg (bigEndian bs.length) hmod).trans (bigEndian_ofBigEndian bs)

end TableAccess.Wire
