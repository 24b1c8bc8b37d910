import Mathlib.Tactic.Ring
import TableAccess.Number.Double

/-!
The one rounding gives the nearest number.

`BinaryFormat.nearest` counts a ratio in steps of a size that leaves `fractionBits + 1` digits, and
rounds the count once. The pattern it puts together stands for that many steps, and no pattern
stands for a number that is nearer to the ratio: the numbers with steps of that size or larger are
multiples of it, and those with smaller steps are all below the least number whose steps have that
size. It follows that an integer of 64 bits becomes a finite double, and the nearest one, and that a
double which single precision has room for becomes the nearest single.
-/

namespace TableAccess

namespace BinaryFormat

variable {f : BinaryFormat} {num den e s p : Nat}

/-! ### Rounding a quotient -/

/-- No multiple of the denominator is nearer to the numerator than the rounded quotient. -/
theorem divEven_near (hden : 0 < den) (k : Nat) :
    ((divEven num den * den : Nat) - num : Int).natAbs ≤ ((k * den : Nat) - num : Int).natAbs := by
  have hsplit : num / den * den + num % den = num := by
    rw [Nat.mul_comm]
    exact Nat.div_add_mod ..
  have hrest : num % den < den := Nat.mod_lt _ hden
  have hnext : (num / den + 1) * den = num / den * den + den := Nat.succ_mul ..
  have hother : k * den ≤ num / den * den ∨ num / den * den + den ≤ k * den := by
    rcases Nat.lt_or_ge (num / den) k with hk | hk
    · exact .inr (hnext ▸ Nat.mul_le_mul_right den hk)
    · exact .inl (Nat.mul_le_mul_right den hk)
  have hchosen : 2 * (num % den) ≤ den ∧ divEven num den = num / den ∨
      den ≤ 2 * (num % den) ∧ divEven num den = num / den + 1 := by
    unfold divEven
    dsimp only
    split
    · exact .inl ⟨by omega, rfl⟩
    · split
      · exact .inr ⟨by omega, rfl⟩
      · rcases Nat.mod_two_eq_zero_or_one (num / den) with h | h
        · exact .inl ⟨by omega, by rw [h, Nat.add_zero]⟩
        · exact .inr ⟨by omega, by rw [h]⟩
  rcases hchosen with ⟨hr, hq⟩ | ⟨hr, hq⟩ <;> rw [hq] <;> omega

theorem divEven_bounds (num den : Nat) :
    num / den ≤ divEven num den ∧ divEven num den ≤ num / den + 1 := by
  unfold divEven
  dsimp only
  split
  · omega
  · split <;> omega

/-! ### What patterns stand for -/

/-- How many of the smallest steps a pattern stands for. -/
def count (f : BinaryFormat) (pattern : Nat) : Nat := f.significand pattern * 2 ^ f.exponent pattern

theorem ratio_eq (f : BinaryFormat) (pattern : Nat) :
    f.ratio pattern = (f.count pattern, 2 ^ f.places) := rfl

theorem significand_lt (f : BinaryFormat) (pattern : Nat) :
    f.significand pattern < 2 ^ (f.fractionBits + 1) := by
  have hfraction : f.fraction pattern < 2 ^ f.fractionBits := Nat.mod_lt _ (Nat.two_pow_pos _)
  rw [significand, Nat.pow_succ, Nat.pow_eq]
  split <;> omega

/-- A pattern by its exponent field and its trailing bits. -/
theorem count_parts {a r : Nat} (hr : r < 2 ^ f.fractionBits) :
    f.count (a * 2 ^ f.fractionBits + r) =
      if a = 0 then r else (2 ^ f.fractionBits + r) * 2 ^ (a - 1) := by
  have hfield : f.field (a * 2 ^ f.fractionBits + r) = a := by
    rw [field, Nat.pow_eq, Nat.add_comm, Nat.add_mul_div_right _ _ (Nat.two_pow_pos _),
      Nat.div_eq_of_lt hr, Nat.zero_add]
  have hfraction : f.fraction (a * 2 ^ f.fractionBits + r) = r := by
    rw [fraction, Nat.pow_eq, Nat.add_comm, Nat.add_mul_mod_self_right, Nat.mod_eq_of_lt hr]
  rw [count, significand, exponent, hfield, hfraction, Nat.pow_eq]
  split
  case isTrue ha => rw [ha, Nat.zero_sub, Nat.pow_zero, Nat.mul_one]
  case isFalse => rfl

/-- The pattern of `s` steps of size `2 ^ e`, if these have the digits that a pattern has. -/
theorem count_steps (hs : s ≤ 2 ^ (f.fractionBits + 1)) (he : 0 < e → 2 ^ f.fractionBits ≤ s) :
    f.count (e * 2 ^ f.fractionBits + s) = s * 2 ^ e := by
  have hpos := Nat.two_pow_pos f.fractionBits
  rw [Nat.pow_succ] at hs
  rcases Nat.lt_or_ge s (2 ^ f.fractionBits) with hlow | hlow
  · obtain rfl : e = 0 := by omega
    rw [count_parts hlow, if_pos rfl, Nat.pow_zero, Nat.mul_one]
  · rcases Nat.lt_or_ge s (2 ^ f.fractionBits * 2) with hhigh | hhigh
    · have hparts : e * 2 ^ f.fractionBits + s =
          (e + 1) * 2 ^ f.fractionBits + (s - 2 ^ f.fractionBits) := by
        rw [Nat.succ_mul]
        omega
      rw [hparts, count_parts (by omega), if_neg (by omega), Nat.add_sub_cancel,
        Nat.add_sub_cancel' hlow]
    · obtain rfl : s = 2 ^ f.fractionBits * 2 := by omega
      have hparts : e * 2 ^ f.fractionBits + 2 ^ f.fractionBits * 2 =
          (e + 2) * 2 ^ f.fractionBits + 0 := by ring
      rw [hparts, count_parts hpos, if_neg (by omega), Nat.add_zero, Nat.add_sub_assoc (by decide),
        Nat.pow_succ, Nat.mul_assoc, Nat.mul_comm 2]

/-! ### The pattern put together -/

/-- The ratio has as many digits in steps as the pattern, where steps are not of the smallest size.
-/
theorem leading_le (f : BinaryFormat) (num : Nat) (hden : 0 < den) (hpos : 0 < f.shift num den) :
    2 ^ f.fractionBits * (den * 2 ^ f.shift num den) ≤ num * 2 ^ f.places := by
  have hshift : f.shift num den = Nat.log2 (num * 2 ^ f.places / den) - f.fractionBits := rfl
  have hne : num * 2 ^ f.places / den ≠ 0 := by
    intro hzero
    rw [hshift, hzero, Nat.log2_zero] at hpos
    omega
  have hle : 2 ^ f.fractionBits * 2 ^ f.shift num den ≤ num * 2 ^ f.places / den := by
    rw [← Nat.pow_add]
    refine Nat.le_trans (Nat.pow_le_pow_right (by decide) ?_) (Nat.log2_self_le hne)
    omega
  calc 2 ^ f.fractionBits * (den * 2 ^ f.shift num den) =
        2 ^ f.fractionBits * 2 ^ f.shift num den * den := by ring
    _ ≤ num * 2 ^ f.places := (Nat.le_div_iff_mul_le hden).mp hle

/-- The steps are as many as have the digits of a pattern. -/
theorem steps_bounds (f : BinaryFormat) (num : Nat) (hden : 0 < den) :
    f.steps num den (f.shift num den) ≤ 2 ^ (f.fractionBits + 1) ∧
      (0 < f.shift num den → 2 ^ f.fractionBits ≤ f.steps num den (f.shift num den)) := by
  have hshift : f.shift num den = Nat.log2 (num * 2 ^ f.places / den) - f.fractionBits := rfl
  have hsteps : f.steps num den (f.shift num den) =
      divEven (num * 2 ^ f.places) (den * 2 ^ f.shift num den) := rfl
  have hsize : 0 < den * 2 ^ f.shift num den := Nat.mul_pos hden (Nat.two_pow_pos _)
  obtain ⟨hlow, hhigh⟩ := divEven_bounds (num * 2 ^ f.places) (den * 2 ^ f.shift num den)
  rw [← hsteps] at hlow hhigh
  constructor
  · have hlt : num * 2 ^ f.places / den < 2 ^ (f.fractionBits + 1) * 2 ^ f.shift num den := by
      rw [← Nat.pow_add]
      refine Nat.lt_log2_self.trans_le (Nat.pow_le_pow_right (by decide) ?_)
      omega
    have hquotient : num * 2 ^ f.places / (den * 2 ^ f.shift num den) <
        2 ^ (f.fractionBits + 1) := by
      rw [← Nat.div_div_eq_div_mul]
      exact (Nat.div_lt_iff_lt_mul (Nat.two_pow_pos _)).mpr hlt
    omega
  · intro hpos
    exact Nat.le_trans ((Nat.le_div_iff_mul_le hsize).mpr (f.leading_le num hden hpos)) hlow

/-- How far a pattern is from a ratio, in units of the smallest step over the denominator. -/
def gap (f : BinaryFormat) (num den pattern : Nat) : Nat :=
  ((f.count pattern * den : Nat) - (num * 2 ^ f.places : Nat) : Int).natAbs

/-- No pattern is nearer to a ratio than the one it is rounded to, unless that is past the finite
ones. -/
theorem nearest_near (hden : 0 < den) (hfinite : f.nearest num den < f.infinity) (p : Nat) :
    f.gap num den (f.nearest num den) ≤ f.gap num den p := by
  obtain ⟨hhigh, hlow⟩ := f.steps_bounds num hden
  have hpos : 0 < den * 2 ^ f.shift num den := Nat.mul_pos hden (Nat.two_pow_pos _)
  have hpattern : f.nearest num den =
      f.shift num den * 2 ^ f.fractionBits + f.steps num den (f.shift num den) := by
    unfold nearest at hfinite ⊢
    dsimp only at hfinite ⊢
    rw [Nat.pow_eq] at hfinite ⊢
    exact Nat.min_eq_right (by omega)
  have hcount : f.count (f.nearest num den) * den =
      f.steps num den (f.shift num den) * (den * 2 ^ f.shift num den) := by
    rw [hpattern, count_steps hhigh hlow]
    ring
  -- multiples of the step are no nearer, as the count of steps is rounded
  have hmultiple (k : Nat) : f.gap num den (f.nearest num den) ≤
      ((k * (den * 2 ^ f.shift num den) : Nat) - (num * 2 ^ f.places : Nat) : Int).natAbs := by
    rw [gap, hcount]
    exact divEven_near hpos k
  rcases Nat.lt_or_ge (f.exponent p) (f.shift num den) with hexponent | hexponent
  · refine Nat.le_trans (hmultiple (2 ^ f.fractionBits)) ?_
    -- the least number with steps of this size lies between the smaller numbers and the ratio
    have hratio : 2 ^ f.fractionBits * (den * 2 ^ f.shift num den) ≤ num * 2 ^ f.places :=
      f.leading_le num hden (by omega)
    have hsmaller : f.count p * den ≤ 2 ^ f.fractionBits * (den * 2 ^ f.shift num den) := by
      calc f.count p * den ≤ 2 ^ (f.fractionBits + 1) * 2 ^ f.exponent p * den :=
            Nat.mul_le_mul_right den (Nat.mul_le_mul_right _ (f.significand_lt p).le)
        _ = 2 ^ f.fractionBits * (den * 2 ^ (f.exponent p + 1)) := by ring
        _ ≤ 2 ^ f.fractionBits * (den * 2 ^ f.shift num den) :=
            Nat.mul_le_mul_left _ (Nat.mul_le_mul_left _
              (Nat.pow_le_pow_right (by decide) hexponent))
    unfold gap
    omega
  · refine Nat.le_trans
      (hmultiple (f.significand p * 2 ^ (f.exponent p - f.shift num den))) (Nat.le_of_eq ?_)
    have hsplit : 2 ^ f.exponent p =
        2 ^ (f.exponent p - f.shift num den) * 2 ^ f.shift num den := by
      rw [← Nat.pow_add, Nat.sub_add_cancel hexponent]
    rw [gap, count, hsplit]
    congr 3
    ring

/-- A ratio that is not too large is rounded to a finite pattern. -/
theorem nearest_finite {digits : Nat} (hden : 0 < den) (hnum : num < 2 ^ digits * den)
    (htop : 2 < f.topField) (hdigits : f.places + digits + 1 < f.topField + f.fractionBits) :
    f.nearest num den < f.infinity := by
  obtain ⟨hsteps, -⟩ := f.steps_bounds num hden
  have hshift : f.shift num den = Nat.log2 (num * 2 ^ f.places / den) - f.fractionBits := rfl
  have hsize : f.shift num den + 2 < f.topField := by
    rw [hshift]
    rcases Nat.eq_zero_or_pos (num * 2 ^ f.places / den) with hzero | hpos
    · rw [hzero, Nat.log2_zero]
      omega
    · have hlt : num * 2 ^ f.places / den < 2 ^ (digits + f.places) := by
        rw [Nat.div_lt_iff_lt_mul hden, Nat.pow_add, Nat.mul_right_comm]
        exact Nat.mul_lt_mul_of_pos_right hnum (Nat.two_pow_pos _)
      have := (Nat.log2_lt hpos.ne').mpr hlt
      omega
  refine Nat.lt_of_le_of_lt (Nat.min_le_right ..) ?_
  rw [Nat.pow_eq]
  calc f.shift num den * 2 ^ f.fractionBits + f.steps num den (f.shift num den) ≤
        f.shift num den * 2 ^ f.fractionBits + 2 ^ (f.fractionBits + 1) :=
          Nat.add_le_add_left hsteps _
    _ = (f.shift num den + 2) * 2 ^ f.fractionBits := by ring
    _ < f.topField * 2 ^ f.fractionBits := Nat.mul_lt_mul_of_pos_right hsize (Nat.two_pow_pos _)

/-- A number of steps that has the digits of a pattern is that of a pattern. -/
theorem exists_count (f : BinaryFormat) {m e : Nat} (hm : m < 2 ^ (f.fractionBits + 1))
    (he : f.fractionBits ≤ e) : ∃ p, f.count p = m * 2 ^ e := by
  rcases Nat.eq_zero_or_pos m with rfl | hpos
  · refine ⟨0 * 2 ^ f.fractionBits + 0, ?_⟩
    rw [count_steps (Nat.zero_le _) (fun h => absurd h (Nat.lt_irrefl 0)), Nat.zero_mul,
      Nat.zero_mul]
  · -- as many doublings as make the leading digit the leading one of a pattern
    have hlog : m.log2 ≤ f.fractionBits := Nat.le_of_lt_succ ((Nat.log2_lt hpos.ne').mpr hm)
    have hlow : 2 ^ f.fractionBits ≤ m * 2 ^ (f.fractionBits - m.log2) := by
      have hle := Nat.mul_le_mul_right (2 ^ (f.fractionBits - m.log2)) (Nat.log2_self_le hpos.ne')
      rwa [← Nat.pow_add, Nat.add_sub_cancel' hlog] at hle
    have hhigh : m * 2 ^ (f.fractionBits - m.log2) ≤ 2 ^ (f.fractionBits + 1) := by
      have hself : m ≤ 2 ^ (m.log2 + 1) := Nat.le_of_lt Nat.lt_log2_self
      have hle := Nat.mul_le_mul_right (2 ^ (f.fractionBits - m.log2)) hself
      rwa [← Nat.pow_add, Nat.add_right_comm, Nat.add_sub_cancel' hlog] at hle
    refine ⟨_, (count_steps (e := e - (f.fractionBits - m.log2)) hhigh fun _ => hlow).trans ?_⟩
    rw [Nat.mul_assoc, ← Nat.pow_add, Nat.add_sub_cancel' (by omega)]

/-- A ratio that a pattern stands for is rounded to itself. -/
theorem nearest_exact (hden : 0 < den) (hfinite : f.nearest num den < f.infinity)
    (hp : f.count p * den = num * 2 ^ f.places) :
    f.count (f.nearest num den) * den = num * 2 ^ f.places := by
  have hnear := nearest_near hden hfinite p
  unfold gap at hnear
  omega

end BinaryFormat

open BinaryFormat

/-- A number with its sign. -/
def signed (negative : Bool) (n : Nat) : Int := if negative then -(n : Int) else n

/-- What is nearest without signs is nearest with them: another sign only adds to the distance. -/
theorem natAbs_signed_le {a b n : Nat}
    (h : ((a : Int) - n).natAbs ≤ ((b : Int) - n).natAbs) (negative other : Bool) :
    (signed negative a - signed negative n).natAbs ≤
      (signed other b - signed negative n).natAbs := by
  unfold signed
  cases negative <;> cases other <;> simp only [if_true, if_false, Bool.false_eq_true] <;> omega

/-- A sign in the highest bit and a pattern below it can be told apart. -/
theorem sign_and_pattern (b : Bool) {top m : Nat} (h : m < top) :
    decide (top ≤ if b then top + m else m) = b ∧ (if b then top + m else m) % top = m := by
  cases b with
  | true =>
    refine ⟨decide_eq_true (Nat.le_add_right ..), ?_⟩
    rw [if_pos rfl, Nat.add_mod_left, Nat.mod_eq_of_lt h]
  | false => exact ⟨decide_eq_false (Nat.not_le_of_lt h), Nat.mod_eq_of_lt h⟩

namespace Double

/-- How many of the smallest steps a finite double stands for, negative ones with their sign. -/
def count (x : Double) : Int := signed x.negative (double.count x.magnitude)

/-- Whether no finite double is nearer to an integer. -/
def IsNearest (x : Double) (n : Int) : Prop :=
  x.isFinite = true ∧ ∀ y : Double, y.isFinite = true →
    (x.count - n * (2 ^ double.places : Nat)).natAbs ≤
      (y.count - n * (2 ^ double.places : Nat)).natAbs

/-- A sign and a pattern are those of the double they make. -/
theorem parts_ofMagnitude (b : Bool) {m : Nat} (h : m < signBit) :
    (ofMagnitude b m).negative = b ∧ (ofMagnitude b m).magnitude = m := by
  have hbits : (ofMagnitude b m).bits.toNat = if b then signBit + m else m := by
    refine UInt64.toNat_ofNat_of_lt' ?_
    unfold signBit at h ⊢
    unfold UInt64.size
    split <;> omega
  rw [negative, magnitude, hbits]
  exact sign_and_pattern b h

/-- The double of an integer is a nearest one. -/
theorem isNearest_ofInt (n : Int64) : (ofInt n.toInt).IsNearest n.toInt := by
  have hsize : n.toInt.natAbs < 2 ^ 64 * 1 := by
    have hlow := n.le_toInt
    have hhigh := n.toInt_lt
    omega
  have hfinite : double.nearest n.toInt.natAbs 1 < double.infinity :=
    nearest_finite Nat.one_pos hsize (by decide) (by decide)
  obtain ⟨hnegative, hmagnitude⟩ : (ofInt n.toInt).negative = decide (n.toInt < 0) ∧
      (ofInt n.toInt).magnitude = double.nearest n.toInt.natAbs 1 :=
    parts_ofMagnitude _ (hfinite.trans (by decide))
  have hn : n.toInt * (2 ^ double.places : Nat) =
      signed (decide (n.toInt < 0)) (n.toInt.natAbs * 2 ^ double.places) := by
    generalize 2 ^ double.places = unit
    rw [signed, Int.natCast_mul]
    rcases lt_or_ge n.toInt 0 with hn | hn
    · rw [if_pos (decide_eq_true hn), Int.ofNat_natAbs_of_nonpos (Int.le_of_lt hn), Int.neg_mul,
        Int.neg_neg]
    · rw [if_neg (by simpa using hn), Int.natAbs_of_nonneg hn]
  refine ⟨?_, fun y _ => ?_⟩
  · rw [isFinite, hmagnitude]
    exact decide_eq_true hfinite
  · have hnear := nearest_near Nat.one_pos hfinite y.magnitude
    rw [gap, gap, Nat.mul_one, Nat.mul_one] at hnear
    rw [hn, count, count, hnegative, hmagnitude]
    exact natAbs_signed_le hnear _ _

end Double

/-! ### Single precision -/

namespace Single

def isFinite (x : Single) : Bool := decide (x.magnitude < single.infinity)

/-- How many smallest steps of a double there are to the one of a single. -/
def unit : Nat := 2 ^ (double.places - single.places)

theorem places_split : 2 ^ double.places = unit * 2 ^ single.places := by
  rw [unit, ← Nat.pow_add, Nat.sub_add_cancel (by decide)]

/-- The finite singles are far from the largest doubles. -/
theorem count_lt {x : Single} (hx : x.isFinite = true) :
    single.count x.magnitude < 2 ^ 128 * 2 ^ single.places := by
  have hexponent : single.exponent x.magnitude ≤ 253 := by
    rw [isFinite, decide_eq_true_eq] at hx
    have hdiv : x.magnitude / 2 ^ 23 < 255 := (Nat.div_lt_iff_lt_mul (by decide)).mpr hx
    exact Nat.sub_le_of_le_add (Nat.le_of_lt_succ hdiv)
  have hplaces : 24 + 253 = 128 + single.places := by decide
  calc single.count x.magnitude < 2 ^ 24 * 2 ^ single.exponent x.magnitude :=
        Nat.mul_lt_mul_of_pos_right (single.significand_lt _) (Nat.two_pow_pos _)
    _ ≤ 2 ^ 24 * 2 ^ 253 := Nat.mul_le_mul_left _ (Nat.pow_le_pow_right (by decide) hexponent)
    _ = 2 ^ 128 * 2 ^ single.places := by
        rw [← Nat.pow_add, hplaces, Nat.pow_add]

/-- A finite single is a double exactly. -/
theorem count_toDouble {x : Single} (hx : x.isFinite = true) :
    x.toDouble.count = signed x.negative (single.count x.magnitude * unit) := by
  have hfinite : double.nearest (single.count x.magnitude) (2 ^ single.places) < double.infinity :=
    nearest_finite (Nat.two_pow_pos _) (count_lt hx) (by decide) (by decide)
  have hdouble : x.toDouble = Double.ofMagnitude x.negative
      (double.nearest (single.count x.magnitude) (2 ^ single.places)) := by
    rw [isFinite, decide_eq_true_eq] at hx
    rw [toDouble, if_neg (Nat.lt_asymm hx), if_neg (Nat.ne_of_lt hx), ratio_eq]
  obtain ⟨hnegative, hmagnitude⟩ := Double.parts_ofMagnitude x.negative
    (hfinite.trans (by decide))
  -- the single's digits and its place make a pattern of a double
  obtain ⟨p, hp⟩ := double.exists_count (m := single.significand x.magnitude)
    (e := single.exponent x.magnitude + (double.places - single.places))
    ((single.significand_lt _).trans (by decide)) (Nat.le_add_left_of_le (by decide))
  have hexact : double.count p * 2 ^ single.places =
      single.count x.magnitude * 2 ^ double.places := by
    rw [hp, places_split, unit, BinaryFormat.count, Nat.pow_add]
    ring
  have hcount := nearest_exact (Nat.two_pow_pos _) hfinite hexact
  rw [places_split, ← Nat.mul_assoc] at hcount
  rw [Double.count, hdouble, hnegative, hmagnitude,
    Nat.eq_of_mul_eq_mul_right (Nat.two_pow_pos _) hcount]

end Single

namespace Double

/-- Whether a double is a single, and no finite single is nearer to another double. -/
def IsRounded (x y : Double) : Prop :=
  (∃ s : Single, s.isFinite = true ∧ y = s.toDouble) ∧ ∀ s : Single, s.isFinite = true →
    (y.count - x.count).natAbs ≤ (s.toDouble.count - x.count).natAbs

theorem parts_toSingle {x : Double} (hx : x.isFinite = true) :
    x.toSingle.negative = x.negative ∧
      x.toSingle.magnitude = single.nearest (double.count x.magnitude) (2 ^ double.places) := by
  have hpattern : single.nearest (double.count x.magnitude) (2 ^ double.places) <
      Single.signBit :=
    Nat.lt_of_le_of_lt (Nat.min_le_left ..) (by decide)
  have hsingle : x.toSingle = ⟨UInt32.ofNat ((if x.negative then Single.signBit else 0) +
      single.nearest (double.count x.magnitude) (2 ^ double.places))⟩ := by
    rw [isFinite, decide_eq_true_eq] at hx
    have hnan : x.isNaN = false := decide_eq_false (Nat.lt_asymm hx)
    have hinfinite : x.isInfinite = false := beq_eq_false_iff_ne.mpr (Nat.ne_of_lt hx)
    rw [toSingle, hnan, hinfinite, if_neg Bool.false_ne_true, if_neg Bool.false_ne_true, ratio_eq]
  have hbits : x.toSingle.bits.toNat =
      if x.negative then Single.signBit + single.nearest (double.count x.magnitude)
        (2 ^ double.places) else single.nearest (double.count x.magnitude) (2 ^ double.places) := by
    rw [hsingle, ite_add, Nat.zero_add]
    refine UInt32.toNat_ofNat_of_lt' ?_
    unfold Single.signBit at hpattern ⊢
    unfold UInt32.size
    split <;> omega
  rw [Single.negative, Single.magnitude, hbits]
  exact sign_and_pattern x.negative hpattern

/-- Single precision gives a nearest single, unless the number is too large for one. -/
theorem isRounded_throughSingle {x : Double} (hx : x.isFinite = true)
    (hs : x.toSingle.isFinite = true) : x.IsRounded x.throughSingle := by
  refine ⟨⟨x.toSingle, hs, rfl⟩, fun s hfinite => ?_⟩
  obtain ⟨hnegative, hmagnitude⟩ := parts_toSingle hx
  rw [throughSingle, Single.count_toDouble hs, Single.count_toDouble hfinite, hnegative, count]
  refine natAbs_signed_le ?_ _ _
  have hscale (a b : Nat) :
      ((a * (Single.unit * 2 ^ single.places) : Nat) - (b * 2 ^ single.places : Nat) : Int).natAbs =
        ((a * Single.unit : Nat) - b : Int).natAbs * 2 ^ single.places := by
    rw [← Nat.mul_assoc, Int.natCast_mul, Int.natCast_mul b, ← Int.sub_mul, Int.natAbs_mul,
      Int.natAbs_natCast]
  rw [Single.isFinite, decide_eq_true_eq, hmagnitude] at hs
  have hnear := nearest_near (Nat.two_pow_pos double.places) hs s.magnitude
  rw [← hmagnitude, gap, gap, Single.places_split, hscale, hscale] at hnear
  exact Nat.le_of_mul_le_mul_right hnear (Nat.two_pow_pos _)

end Double

end TableAccess
