import TableAccess.Calendar
import TableAccess.Proofs.Wire.Bytes

/-!
Moments counted in whole microseconds.

A moment that has a number of whole microseconds and is in no leap second is the moment of that
number. Any other moment loses something when it is counted, and the moment that its count stands
for is the nearest whole microsecond on the way to the first moment of 2000.
-/

namespace TableAccess

namespace Date

theorem ofNumber?_number (d : Date) : ofNumber? d.number = some d := dif_pos d.inRange

theorem number_of_ofNumber? {n : Int} {d : Date} (h : ofNumber? n = some d) : d.number = n := by
  rw [ofNumber?] at h
  split at h
  · cases h
    rfl
  · cases h

end Date

namespace Timestamp

/-- A number of whole microseconds, and no leap second. -/
def IsWhole (t : Timestamp) : Prop := t.nano % 1000 = 0 ∧ t.nano < 1000000000

instance (t : Timestamp) : Decidable t.IsWhole := inferInstanceAs (Decidable (_ ∧ _))

/-- Rounding toward the first moment of 2000 goes down after it and up before it. -/
theorem micros_eq (t : Timestamp) :
    t.micros = if 0 ≤ t.nanosSinceEpoch then t.nanosSinceEpoch / 1000
      else -(-t.nanosSinceEpoch / 1000) := by
  rw [micros]
  split
  case isTrue hafter => exact Int.tdiv_eq_ediv_of_nonneg hafter
  case isFalse hbefore =>
    rw [← Int.tdiv_eq_ediv_of_nonneg (show 0 ≤ -t.nanosSinceEpoch by omega), Int.neg_tdiv,
      Int.neg_neg]

/-- Every moment of the calendar has a count that fits eight bytes. -/
theorem micros_bounds (t : Timestamp) :
    -(256 ^ 8 : Nat) ≤ t.micros * 2 ∧ t.micros * 2 < (256 ^ 8 : Nat) := by
  obtain ⟨hlow, hhigh⟩ := t.date.inRange
  have hsecond := t.second_lt
  have hnano := t.nano_lt
  unfold Calendar.firstDay at hlow
  unfold Calendar.lastDay at hhigh
  have hnanos : t.nanosSinceEpoch =
      (t.date.number * 86400 + t.second) * 1000000000 + t.nano := rfl
  rw [micros_eq]
  omega

theorem IsWhole.micros_eq {t : Timestamp} (h : t.IsWhole) :
    t.micros = (t.date.number * 86400 + t.second) * 1000000 + (t.nano / 1000 : Nat) := by
  obtain ⟨hmod, -⟩ := h
  have hnanos : t.nanosSinceEpoch =
      ((t.date.number * 86400 + t.second) * 1000000 + (t.nano / 1000 : Nat)) * 1000 := by
    unfold nanosSinceEpoch
    omega
  rw [micros, hnanos]
  exact Int.mul_tdiv_cancel _ (by decide)

/-- A moment of whole microseconds is the moment of its count. -/
theorem IsWhole.ofMicros?_micros {t : Timestamp} (h : t.IsWhole) : ofMicros? t.micros = some t := by
  obtain ⟨hmod, hlt⟩ := h
  have hsecond := t.second_lt
  have hday : t.micros / 86400000000 = t.date.number := by
    rw [IsWhole.micros_eq ⟨hmod, hlt⟩]
    omega
  have hrest : (t.micros % 86400000000).toNat = t.second * 1000000 + t.nano / 1000 := by
    rw [IsWhole.micros_eq ⟨hmod, hlt⟩]
    omega
  have h1 : (t.second * 1000000 + t.nano / 1000) / 1000000 = t.second := by omega
  have h2 : (t.second * 1000000 + t.nano / 1000) % 1000000 * 1000 = t.nano := by omega
  rw [ofMicros?, hday, Date.ofNumber?_number]
  simp only [Option.map_some, hrest, h1, h2]

/-- The moment of a count is that many microseconds away, and it is whole. -/
theorem of_ofMicros? {n : Int} {t : Timestamp} (h : ofMicros? n = some t) :
    t.nanosSinceEpoch = n * 1000 ∧ t.IsWhole := by
  obtain ⟨date, hdate, rfl⟩ := Option.map_eq_some_iff.mp h
  have hnumber := Date.number_of_ofNumber? hdate
  refine ⟨?_, ?_, ?_⟩
  · simp only [nanosSinceEpoch, hnumber]
    omega
  · exact Nat.mul_mod_left ..
  · dsimp only
    omega

theorem micros_of_ofMicros? {n : Int} {t : Timestamp} (h : ofMicros? n = some t) :
    t.micros = n := by
  rw [micros, (of_ofMicros? h).1]
  exact Int.mul_tdiv_cancel n (by decide)

end Timestamp

end TableAccess
