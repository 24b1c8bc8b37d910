import TableAccess.Text.Ident

/-!
The language of plain identifiers.

    name    = segment ("." segment)*
    segment = (letter | "_") (letter | digit | "_")*

Letters and digits are those of ASCII. A segment has no dot in it, so the pieces of a text between its
dots are the only segments that it can be joined from, and to look at the pieces is to look for segments.
A text with a dot in it is then a name exactly if what stands on either side of the dot is one, which
leaves no place for a dot at an end or beside another.
-/

namespace TableAccess

/-- What is in joined texts is in the separator or in one of the texts. -/
theorem mem_intercalate {separator : String} {c : Char} : ∀ {texts : List String},
    c ∈ (separator.intercalate texts).toList →
      c ∈ separator.toList ∨ ∃ text ∈ texts, c ∈ text.toList
  | [], h => by
    rw [String.intercalate_nil] at h
    cases h
  | [text], h => by
    rw [String.intercalate_singleton] at h
    exact .inr ⟨text, List.mem_singleton_self text, h⟩
  | text :: next :: texts, h => by
    rw [String.intercalate_cons_cons, String.toList_append, String.toList_append] at h
    rcases List.mem_append.mp h with h | h
    · rcases List.mem_append.mp h with h | h
      · exact .inr ⟨text, List.mem_cons_self, h⟩
      · exact .inl h
    · refine (mem_intercalate h).imp_right ?_
      rintro ⟨other, hother, hc⟩
      exact ⟨other, List.mem_cons_of_mem text hother, hc⟩

namespace Ident

/-- What a segment starts with: a letter of ASCII or an underscore. -/
def Initial (c : Char) : Prop := c.isAlpha = true ∨ c = '_'

/-- What a segment goes on with: a letter or a digit of ASCII or an underscore. -/
def Inner (c : Char) : Prop := c.isAlphanum = true ∨ c = '_'

instance (c : Char) : Decidable (Initial c) := inferInstanceAs (Decidable (_ ∨ _))

instance (c : Char) : Decidable (Inner c) := inferInstanceAs (Decidable (_ ∨ _))

/-- A segment of a name. -/
def Segment (text : String) : Prop :=
  ∃ first rest, text.toList = first :: rest ∧ Initial first ∧ ∀ c ∈ rest, Inner c

/-- One or more segments joined by single dots. -/
def Dotted (text : String) : Prop :=
  ∃ segments : List String, segments ≠ [] ∧ (∀ segment ∈ segments, Segment segment) ∧
    text = ".".intercalate segments

variable {c : Char} {a b s : String} {segments : List String}

/-! ### Characters -/

theorem isLetter_eq (c : Char) : isLetter c = c.isAlpha := by
  have hlower : (decide ('a' ≤ c) && decide (c ≤ 'z')) = c.isLower := rfl
  have hupper : (decide ('A' ≤ c) && decide (c ≤ 'Z')) = c.isUpper := (Bool.decide_and ..).symm
  rw [isLetter, hlower, hupper, Bool.or_comm]
  rfl

theorem isStart_iff : isStart c = true ↔ Initial c := by
  rw [isStart, isLetter_eq, Bool.or_eq_true, beq_iff_eq, Initial]

theorem isWord_iff : isWord c = true ↔ Inner c := by
  have hdigit : (decide ('0' ≤ c) && decide (c ≤ '9')) = c.isDigit := rfl
  rw [isWord, isLetter_eq, hdigit, Bool.or_eq_true, beq_iff_eq]
  rfl

theorem isWord_of_isStart (h : isStart c = true) : isWord c = true := by
  rw [isStart, Bool.or_eq_true] at h
  rw [isWord, Bool.or_eq_true, Bool.or_eq_true]
  exact h.imp_left .inl

theorem ascii_of_isWord (h : isWord c = true) : c.toNat < 128 := by
  simp only [isWord, isLetter, Bool.or_eq_true, Bool.and_eq_true, decide_eq_true_eq, beq_iff_eq,
    Char.le_def, UInt32.le_iff_toNat_le] at h
  have hc : c.toNat = c.val.toNat := rfl
  have hz : 'z'.val.toNat = 122 := rfl
  have hZ : 'Z'.val.toNat = 90 := rfl
  have h9 : '9'.val.toNat = 57 := rfl
  rcases h with ((hlower | hupper) | hdigit) | rfl
  · omega
  · omega
  · omega
  · decide

/-! ### Segments -/

theorem isSegment_iff : isSegment s.toList = true ↔ Segment s := by
  constructor
  · intro h
    cases hs : s.toList with
    | nil =>
      rw [hs] at h
      cases h
    | cons first rest =>
      rw [hs, isSegment, Bool.and_eq_true, List.all_eq_true] at h
      exact ⟨first, rest, hs, isStart_iff.mp h.1, fun c hc => isWord_iff.mp (h.2 c hc)⟩
  · rintro ⟨first, rest, hs, hfirst, hrest⟩
    rw [hs, isSegment, Bool.and_eq_true, List.all_eq_true]
    exact ⟨isStart_iff.mpr hfirst, fun c hc => isWord_iff.mpr (hrest c hc)⟩

theorem Segment.inner (h : Segment s) (hc : c ∈ s.toList) : Inner c := by
  obtain ⟨first, rest, hs, hfirst, hrest⟩ := h
  rw [hs] at hc
  rcases List.mem_cons.mp hc with rfl | hc
  · exact isWord_iff.mp (isWord_of_isStart (isStart_iff.mpr hfirst))
  · exact hrest c hc

theorem Segment.dotless (h : Segment s) : '.' ∉ s.toList := by
  intro hdot
  exact absurd (h.inner hdot) (by decide)

/-- The pieces of joined segments are the segments. -/
theorem splitAt_joined (hne : segments ≠ []) (h : ∀ segment ∈ segments, Segment segment) :
    splitAt '.' (".".intercalate segments).toList = segments.map String.toList := by
  have hdotless : ∀ piece ∈ segments.map String.toList, '.' ∉ piece := by
    intro piece hpiece
    obtain ⟨segment, hsegment, rfl⟩ := List.mem_map.mp hpiece
    exact (h segment hsegment).dotless
  rw [splitAt_eq_splitOn, String.toList_intercalate]
  exact List.splitOn_intercalate '.' hdotless (mt List.map_eq_nil_iff.mp hne)

/-! ### Names -/

theorem dotted_of_isPlain (h : isPlain s = true) : Dotted s := by
  rw [isPlain, splitAt_eq_splitOn, List.all_eq_true] at h
  refine ⟨(s.toList.splitOn '.').map String.ofList, ?_, ?_, ?_⟩
  · exact mt List.map_eq_nil_iff.mp (List.splitOn_ne_nil '.' s.toList)
  · intro segment hsegment
    obtain ⟨piece, hpiece, rfl⟩ := List.mem_map.mp hsegment
    rw [← isSegment_iff, String.toList_ofList]
    exact h piece hpiece
  · have hpieces : ((s.toList.splitOn '.').map String.ofList).map String.toList =
        s.toList.splitOn '.' := by
      simp [Function.comp_def]
    apply String.toList_injective
    rw [String.toList_intercalate, hpieces]
    exact (List.intercalate_splitOn '.').symm

theorem isPlain_of_dotted (h : Dotted s) : isPlain s = true := by
  obtain ⟨segments, hne, hsegments, rfl⟩ := h
  rw [isPlain, splitAt_joined hne hsegments, List.all_eq_true]
  intro piece hpiece
  obtain ⟨segment, hsegment, rfl⟩ := List.mem_map.mp hpiece
  exact isSegment_iff.mpr (hsegments segment hsegment)

/-- A name is made of the characters of segments and of dots. -/
theorem chars_of_isPlain (h : isPlain s = true) (hc : c ∈ s.toList) :
    isWord c = true ∨ c = '.' := by
  obtain ⟨segments, -, hsegments, rfl⟩ := dotted_of_isPlain h
  rcases mem_intercalate hc with hdot | ⟨segment, hsegment, hc⟩
  · exact .inr (List.mem_singleton.mp hdot)
  · exact .inl (isWord_iff.mpr ((hsegments segment hsegment).inner hc))

/-- A name starts as its first segment does. -/
theorem exists_start_of_isPlain (h : isPlain s = true) :
    ∃ first rest, s.toList = first :: rest ∧ isStart first = true := by
  obtain ⟨segments, hne, hsegments, rfl⟩ := dotted_of_isPlain h
  -- a single segment is the whole name, with no dot behind it
  match segments, hne with
  | [segment], _ =>
    obtain ⟨first, rest, hs, hfirst, -⟩ := hsegments segment List.mem_cons_self
    rw [String.intercalate_singleton]
    exact ⟨first, rest, hs, isStart_iff.mpr hfirst⟩
  | segment :: next :: others, _ =>
    obtain ⟨first, rest, hs, hfirst, -⟩ := hsegments segment List.mem_cons_self
    rw [String.intercalate_cons_cons, String.append_assoc, String.toList_append, hs]
    exact ⟨first, _, rfl, isStart_iff.mpr hfirst⟩

theorem ascii_of_isPlain (h : isPlain s = true) (hc : c ∈ s.toList) : c.toNat < 128 := by
  rcases chars_of_isPlain h hc with hword | rfl
  · exact ascii_of_isWord hword
  · decide

/-! ### Dots -/

/-- The pieces of a text with a dot in it are those before the dot and those behind it. -/
theorem splitAt_append_dot (a b : String) :
    splitAt '.' (a ++ "." ++ b).toList = splitAt '.' a.toList ++ splitAt '.' b.toList := by
  have htext : (a ++ "." ++ b).toList = a.toList ++ '.' :: b.toList := by
    rw [String.toList_append, String.toList_append, List.append_assoc]
    rfl
  rw [htext, splitAt_eq_splitOn, splitAt_eq_splitOn, splitAt_eq_splitOn]
  exact List.splitOn_append_cons_self a.toList b.toList

theorem isPlain_append_dot : isPlain (a ++ "." ++ b) = true ↔ isPlain a = true ∧ isPlain b = true := by
  rw [isPlain, splitAt_append_dot, List.all_append, Bool.and_eq_true]
  rfl

theorem isPlain_empty : isPlain "" = false := rfl

-- A dot at an end has the empty text beside it, and so has each of two dots on its inner side.

theorem isPlain_leading_dot (s : String) : isPlain ("." ++ s) = false := by
  rw [← Bool.not_eq_true, ← String.empty_append (s := "."), isPlain_append_dot, isPlain_empty]
  simp

theorem isPlain_trailing_dot (s : String) : isPlain (s ++ ".") = false := by
  rw [← Bool.not_eq_true, ← String.append_empty (s := s ++ "."), isPlain_append_dot, isPlain_empty]
  simp

theorem isPlain_doubled_dot (a b : String) : isPlain (a ++ ".." ++ b) = false := by
  have htext : a ++ ".." ++ b = a ++ "." ++ "." ++ b := by
    rw [show ".." = "." ++ "." from rfl, ← String.append_assoc]
  rw [← Bool.not_eq_true, htext, isPlain_append_dot, isPlain_trailing_dot]
  simp

/-! ### The language -/

/-- The plain identifiers are the texts that are one or more segments joined by single dots. Hence the
empty text is none, a text with a dot at its start, at its end or beside another dot is none, and a text
with any other character is none, as with every character beyond ASCII; and two texts with a dot between
them are one exactly if both of them are. -/
theorem plain_language :
    (∀ s, isPlain s = true ↔ Dotted s) ∧
    isPlain "" = false ∧
    (∀ s, isPlain ("." ++ s) = false ∧ isPlain (s ++ ".") = false) ∧
    (∀ a b, isPlain (a ++ ".." ++ b) = false) ∧
    (∀ s, ∀ c ∈ s.toList, ¬ c.isAlphanum = true → c ≠ '_' → c ≠ '.' → isPlain s = false) ∧
    (∀ s, ∀ c ∈ s.toList, 128 ≤ c.toNat → isPlain s = false) ∧
    ∀ a b, isPlain (a ++ "." ++ b) = true ↔ isPlain a = true ∧ isPlain b = true := by
  refine ⟨fun s => ⟨dotted_of_isPlain, isPlain_of_dotted⟩, isPlain_empty,
    fun s => ⟨isPlain_leading_dot s, isPlain_trailing_dot s⟩, isPlain_doubled_dot, ?_, ?_,
    fun a b => isPlain_append_dot⟩
  · intro s c hc hother hunderscore hdot
    rw [← Bool.not_eq_true]
    intro h
    rcases chars_of_isPlain h hc with hword | rfl
    · exact (isWord_iff.mp hword).elim hother hunderscore
    · exact hdot rfl
  · intro s c hc hbeyond
    rw [← Bool.not_eq_true]
    intro h
    exact absurd (ascii_of_isPlain h hc) (Nat.not_lt.mpr hbeyond)

/-- A letter and a digit beyond ASCII, and a name of two segments. -/
theorem plain_language_beyond_ascii :
    ('\u00e9' ∈ "u.caf\u00e9".toList ∧ ¬ '\u00e9'.isAlphanum = true ∧ isPlain "u.caf\u00e9" = false) ∧
    ('\u0663' ∈ "col\u0663".toList ∧ 128 ≤ '\u0663'.toNat ∧ isPlain "col\u0663" = false) ∧
    Dotted "u.name_0" := by
  obtain ⟨hlanguage, -, -, -, hother, hbeyond, -⟩ := plain_language
  have hletter : '\u00e9' ∈ "u.caf\u00e9".toList := by decide +kernel
  have hdigit : '\u0663' ∈ "col\u0663".toList := by decide +kernel
  refine ⟨⟨hletter, by decide, hother _ _ hletter (by decide) (by decide) (by decide)⟩,
    ⟨hdigit, by decide, hbeyond _ _ hdigit (by decide)⟩, (hlanguage "u.name_0").mp ?_⟩
  decide +kernel

end Ident

end TableAccess
