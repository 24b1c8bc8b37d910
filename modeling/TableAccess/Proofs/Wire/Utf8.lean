import Mathlib.Tactic.SplitIfs
import TableAccess.Text.Utf8

/-!
Text as bytes and back.

Reading what was written gives the text, and bytes that can be read are the ones that their text is
written in: no character has two spellings. Both follow from a lemma for each length that a
character can have.
-/

namespace TableAccess.Utf8

variable {a b c d : UInt8}

/-! ### Bytes by their numbers -/

theorem isTail_iff : isTail b = true ↔ 0x80 ≤ b.toNat ∧ b.toNat ≤ 0xBF := by
  simp [isTail, UInt8.le_iff_toNat_le]

/-- The bytes that may come second, by the number of the first one. -/
theorem secondOk_iff : secondOk a b = true ↔
    0x80 ≤ b.toNat ∧ b.toNat ≤ 0xBF ∧ (a.toNat = 0xE0 → 0xA0 ≤ b.toNat) ∧
      (a.toNat = 0xED → b.toNat ≤ 0x9F) ∧ (a.toNat = 0xF0 → 0x90 ≤ b.toNat) ∧
      (a.toNat = 0xF4 → b.toNat ≤ 0x8F) := by
  have hE0 : a = 0xE0 ↔ a.toNat = 0xE0 := UInt8.toNat_inj.symm
  have hED : a = 0xED ↔ a.toNat = 0xED := UInt8.toNat_inj.symm
  have hF0 : a = 0xF0 ↔ a.toNat = 0xF0 := UInt8.toNat_inj.symm
  have hF4 : a = 0xF4 ↔ a.toNat = 0xF4 := UInt8.toNat_inj.symm
  simp only [secondOk, isTail, hE0, hED, hF0, hF4]
  split_ifs <;>
    simp only [Bool.and_eq_true, decide_eq_true_eq, UInt8.le_iff_toNat_le, UInt8.reduceToNat] <;>
    omega

theorem toNat_ofNat_of_valid {n : Nat} (h : n.isValidChar) : (Char.ofNat n).toNat = n := by
  rw [Char.ofNat, dif_pos h]
  rfl

theorem ofNat_eq_of_eq_toNat {n : Nat} (h : n = b.toNat) : UInt8.ofNat n = b := by
  rw [h, UInt8.ofNat_toNat]

/-! ### Characters by their length -/

theorem encodeChar_one (ha : a.toNat < 0x80) : encodeChar (Char.ofNat a.toNat) = [a] := by
  have hn : (Char.ofNat a.toNat).toNat = a.toNat := toNat_ofNat_of_valid (.inl (by omega))
  simp only [encodeChar, hn]
  rw [if_pos ha, UInt8.ofNat_toNat]

theorem encodeChar_two (ha : 0xC2 ≤ a.toNat ∧ a.toNat ≤ 0xDF) (hb : isTail b = true) :
    encodeChar (Char.ofNat (a.toNat % 32 * 64 + low b)) = [a, b] := by
  rw [isTail_iff] at hb
  have hn : (Char.ofNat (a.toNat % 32 * 64 + low b)).toNat = a.toNat % 32 * 64 + low b :=
    toNat_ofNat_of_valid (.inl (by unfold low; omega))
  simp only [encodeChar, hn]
  unfold low
  rw [if_neg (by omega), if_pos (by omega), ofNat_eq_of_eq_toNat (b := a) (by omega),
    ofNat_eq_of_eq_toNat (b := b) (by omega)]

theorem encodeChar_three (ha : 0xE0 ≤ a.toNat ∧ a.toNat ≤ 0xEF) (hb : secondOk a b = true)
    (hc : isTail c = true) :
    encodeChar (Char.ofNat (a.toNat % 16 * 4096 + low b * 64 + low c)) = [a, b, c] := by
  rw [secondOk_iff] at hb
  rw [isTail_iff] at hc
  obtain ⟨hlow, hhigh, hE0, hED, -, -⟩ := hb
  have hn : (Char.ofNat (a.toNat % 16 * 4096 + low b * 64 + low c)).toNat =
      a.toNat % 16 * 4096 + low b * 64 + low c := by
    refine toNat_ofNat_of_valid ?_
    unfold low Nat.isValidChar
    omega
  simp only [encodeChar, hn]
  unfold low
  rw [if_neg (by omega), if_neg (by omega), if_pos (by omega),
    ofNat_eq_of_eq_toNat (b := a) (by omega), ofNat_eq_of_eq_toNat (b := b) (by omega),
    ofNat_eq_of_eq_toNat (b := c) (by omega)]

theorem encodeChar_four (ha : 0xF0 ≤ a.toNat ∧ a.toNat ≤ 0xF4) (hb : secondOk a b = true)
    (hc : isTail c = true) (hd : isTail d = true) :
    encodeChar (Char.ofNat (a.toNat % 8 * 262144 + low b * 4096 + low c * 64 + low d)) =
      [a, b, c, d] := by
  rw [secondOk_iff] at hb
  rw [isTail_iff] at hc hd
  obtain ⟨hlow, hhigh, -, -, hF0, hF4⟩ := hb
  have hn : (Char.ofNat (a.toNat % 8 * 262144 + low b * 4096 + low c * 64 + low d)).toNat =
      a.toNat % 8 * 262144 + low b * 4096 + low c * 64 + low d := by
    refine toNat_ofNat_of_valid ?_
    unfold low Nat.isValidChar
    omega
  simp only [encodeChar, hn]
  unfold low
  rw [if_neg (by omega), if_neg (by omega), if_neg (by omega),
    ofNat_eq_of_eq_toNat (b := a) (by omega), ofNat_eq_of_eq_toNat (b := b) (by omega),
    ofNat_eq_of_eq_toNat (b := c) (by omega), ofNat_eq_of_eq_toNat (b := d) (by omega)]

/-! ### Text -/

theorem encode_cons (x : Char) (cs : List Char) : encode (x :: cs) = encodeChar x ++ encode cs :=
  List.flatMap_cons ..

/-- The text of a character and of what follows it. -/
theorem encode_of_map {x : Char} {rest : Except Malformed (List Char)} {raw : List UInt8}
    {cs : List Char} (h : rest.map (x :: ·) = .ok cs)
    (hrest : ∀ {ds : List Char}, rest = .ok ds → encode ds = raw) :
    encode cs = encodeChar x ++ raw := by
  cases rest with
  | error e => cases h
  | ok ds =>
    cases h
    rw [encode_cons, hrest rfl]

/-- Bytes that can be read are the ones that their text is written in. -/
theorem encode_of_decodeFrom {after : Nat} {raw : List UInt8} {cs : List Char}
    (h : decodeFrom after raw = .ok cs) : encode cs = raw := by
  fun_induction decodeFrom after raw generalizing cs with
  | case1 =>
    cases h
    rfl
  | case2 after a rest ha ih =>
    rw [encode_of_map h ih, encodeChar_one (UInt8.lt_iff_toNat_lt.mp ha)]
    rfl
  | case5 after a _ ha b rest hb ih =>
    simp only [Bool.and_eq_true, decide_eq_true_eq, UInt8.le_iff_toNat_le] at ha
    simp only [Bool.not_eq_true', Bool.not_eq_false] at hb
    rw [encode_of_map h ih, encodeChar_two ha hb]
    rfl
  | case10 after a _ _ ha b hb c rest hc ih =>
    simp only [Bool.and_eq_true, decide_eq_true_eq, UInt8.le_iff_toNat_le] at ha
    simp only [Bool.not_eq_true', Bool.not_eq_false] at hb hc
    rw [encode_of_map h ih, encodeChar_three ha hb hc]
    rfl
  | case17 after a _ _ _ ha b hb c hc d rest hd ih =>
    simp only [Bool.and_eq_true, decide_eq_true_eq, UInt8.le_iff_toNat_le] at ha
    simp only [Bool.not_eq_true', Bool.not_eq_false] at hb hc hd
    rw [encode_of_map h ih, encodeChar_four ha hb hc hd]
    rfl
  | _ => cases h

/-! ### Reading what was written -/

/-- Whether a byte is in a range, by its number. -/
theorem within_iff (lo hi : UInt8) : (decide (lo ≤ a) && decide (a ≤ hi)) = true ↔
    lo.toNat ≤ a.toNat ∧ a.toNat ≤ hi.toNat := by
  simp [UInt8.le_iff_toNat_le]

section Decode

variable (after : Nat) (rest : List UInt8)

theorem decodeFrom_one (ha : a.toNat < 0x80) :
    decodeFrom after (a :: rest) = (decodeFrom (after + 1) rest).map (Char.ofNat a.toNat :: ·) := by
  rw [decodeFrom.eq_def]
  exact if_pos (UInt8.lt_iff_toNat_lt.mpr ha)

theorem decodeFrom_two (ha : 0xC2 ≤ a.toNat ∧ a.toNat ≤ 0xDF) (hb : isTail b = true) :
    decodeFrom after (a :: b :: rest) =
      (decodeFrom (after + 2) rest).map (Char.ofNat (a.toNat % 32 * 64 + low b) :: ·) := by
  have h1 : ¬ a < 0x80 := mt UInt8.lt_iff_toNat_lt.mp (show ¬ a.toNat < 0x80 by omega)
  rw [decodeFrom.eq_def]
  dsimp only
  rw [if_neg h1, if_pos ((within_iff 0xC2 0xDF).mpr ha), hb]
  rfl

theorem decodeFrom_three (ha : 0xE0 ≤ a.toNat ∧ a.toNat ≤ 0xEF) (hb : secondOk a b = true)
    (hc : isTail c = true) :
    decodeFrom after (a :: b :: c :: rest) = (decodeFrom (after + 3) rest).map
      (Char.ofNat (a.toNat % 16 * 4096 + low b * 64 + low c) :: ·) := by
  have h1 : ¬ a < 0x80 := mt UInt8.lt_iff_toNat_lt.mp (show ¬ a.toNat < 0x80 by omega)
  have h2 := mt (within_iff (a := a) 0xC2 0xDF).mp
    (show ¬ (0xC2 ≤ a.toNat ∧ a.toNat ≤ 0xDF) by omega)
  rw [decodeFrom.eq_def]
  dsimp only
  rw [if_neg h1, if_neg h2, if_pos ((within_iff 0xE0 0xEF).mpr ha), hb, hc]
  rfl

theorem decodeFrom_four (ha : 0xF0 ≤ a.toNat ∧ a.toNat ≤ 0xF4) (hb : secondOk a b = true)
    (hc : isTail c = true) (hd : isTail d = true) :
    decodeFrom after (a :: b :: c :: d :: rest) = (decodeFrom (after + 4) rest).map
      (Char.ofNat (a.toNat % 8 * 262144 + low b * 4096 + low c * 64 + low d) :: ·) := by
  have h1 : ¬ a < 0x80 := mt UInt8.lt_iff_toNat_lt.mp (show ¬ a.toNat < 0x80 by omega)
  have h2 := mt (within_iff (a := a) 0xC2 0xDF).mp
    (show ¬ (0xC2 ≤ a.toNat ∧ a.toNat ≤ 0xDF) by omega)
  have h3 := mt (within_iff (a := a) 0xE0 0xEF).mp
    (show ¬ (0xE0 ≤ a.toNat ∧ a.toNat ≤ 0xEF) by omega)
  rw [decodeFrom.eq_def]
  dsimp only
  rw [if_neg h1, if_neg h2, if_neg h3, if_pos ((within_iff 0xF0 0xF4).mpr ha), hb, hc, hd]
  rfl

end Decode

theorem toNat_ofNat_of_lt {n : Nat} (h : n < 256) : (UInt8.ofNat n).toNat = n :=
  UInt8.toNat_ofNat_of_lt' h

/-- A character that was written is read before what follows it. -/
theorem decodeFrom_encodeChar (after : Nat) (x : Char) (rest : List UInt8) :
    ∃ width, decodeFrom after (encodeChar x ++ rest) =
      (decodeFrom (after + width) rest).map (x :: ·) := by
  have hx : x.toNat.isValidChar := x.valid
  have hback : ∀ {n}, n = x.toNat → Char.ofNat n = x := by
    rintro n rfl
    exact Char.ofNat_toNat x
  unfold Nat.isValidChar at hx
  rw [encodeChar]
  by_cases h1 : x.toNat < 0x80
  · have ha := toNat_ofNat_of_lt (show x.toNat < 256 by omega)
    refine ⟨1, ?_⟩
    rw [if_pos h1, List.cons_append, List.nil_append, decodeFrom_one _ _ (by omega), hback ha]
  by_cases h2 : x.toNat < 0x800
  · have ha := toNat_ofNat_of_lt (show 0xC0 + x.toNat / 64 < 256 by omega)
    have hb := toNat_ofNat_of_lt (show 0x80 + x.toNat % 64 < 256 by omega)
    refine ⟨2, ?_⟩
    rw [if_neg h1, if_pos h2, List.cons_append, List.cons_append, List.nil_append,
      decodeFrom_two _ _ (by omega) (isTail_iff.mpr (by omega)), hback (by unfold low; omega)]
  by_cases h3 : x.toNat < 0x10000
  · have ha := toNat_ofNat_of_lt (show 0xE0 + x.toNat / 4096 < 256 by omega)
    have hb := toNat_ofNat_of_lt (show 0x80 + x.toNat / 64 % 64 < 256 by omega)
    have hc := toNat_ofNat_of_lt (show 0x80 + x.toNat % 64 < 256 by omega)
    refine ⟨3, ?_⟩
    rw [if_neg h1, if_neg h2, if_pos h3, List.cons_append, List.cons_append, List.cons_append,
      List.nil_append, decodeFrom_three _ _ (by omega) (secondOk_iff.mpr (by omega))
        (isTail_iff.mpr (by omega)), hback (by unfold low; omega)]
  · have ha := toNat_ofNat_of_lt (show 0xF0 + x.toNat / 262144 < 256 by omega)
    have hb := toNat_ofNat_of_lt (show 0x80 + x.toNat / 4096 % 64 < 256 by omega)
    have hc := toNat_ofNat_of_lt (show 0x80 + x.toNat / 64 % 64 < 256 by omega)
    have hd := toNat_ofNat_of_lt (show 0x80 + x.toNat % 64 < 256 by omega)
    refine ⟨4, ?_⟩
    rw [if_neg h1, if_neg h2, if_neg h3, List.cons_append, List.cons_append, List.cons_append,
      List.cons_append, List.nil_append, decodeFrom_four _ _ (by omega)
        (secondOk_iff.mpr (by omega)) (isTail_iff.mpr (by omega)) (isTail_iff.mpr (by omega)),
      hback (by unfold low; omega)]

/-- Reading what was written gives the text. -/
theorem decodeFrom_encode (after : Nat) (cs : List Char) :
    decodeFrom after (encode cs) = .ok cs := by
  induction cs generalizing after with
  | nil => rw [encode, List.flatMap_nil, decodeFrom]
  | cons x cs ih =>
    obtain ⟨width, hx⟩ := decodeFrom_encodeChar after x (encode cs)
    rw [encode_cons, hx, ih]
    rfl

theorem decode_encode (cs : List Char) : decode (encode cs) = .ok cs := decodeFrom_encode 0 cs

theorem encode_of_decode {raw : List UInt8} {cs : List Char} (h : decode raw = .ok cs) :
    encode cs = raw := encode_of_decodeFrom h

end TableAccess.Utf8
