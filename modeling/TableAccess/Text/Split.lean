/-!
Text cut at a character. The pieces joined by that character are the text again, and none of them
holds it.
-/

namespace TableAccess

/-- The pieces of a text between a mark; there is always at least one. -/
def splitAt (mark : Char) : List Char → List (List Char)
  | [] => [[]]
  | c :: cs =>
    if c = mark then [] :: splitAt mark cs
    else
      match splitAt mark cs with
      | [] => [[c]]
      | piece :: rest => (c :: piece) :: rest

/-- The pieces are those of `List.splitOn`. -/
theorem splitAt_eq_splitOn (mark : Char) (cs : List Char) : splitAt mark cs = cs.splitOn mark := by
  induction cs with
  | nil => rfl
  | cons c cs ih =>
    rw [splitAt, List.splitOn_cons_eq_if_modifyHead, ← ih]
    simp only [beq_iff_eq]
    split
    · rfl
    · cases hpieces : splitAt mark cs with
      | nil => exact absurd (ih.symm.trans hpieces) (List.splitOn_ne_nil mark cs)
      | cons piece rest => rfl

end TableAccess
