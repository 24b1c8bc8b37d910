import Mathlib.Logic.ExistsUnique
import TableAccess.Proofs.Sql.Clauses

/-!
Pages as windows of rows.

A page that is not refused shows a window: so many rows after so many others. The windows of all pages of
one size lie side by side, so each row is on exactly one page, up to the last row that 64 bits can count.
The text of a page is cut into words at blanks and commas, and its window is read back from the words in
either form, whether the first page leaves its offset out or the two numbers change places.
-/

namespace TableAccess

open Written

/-- The rows that a page shows: how many stand before them, and how many they are at most. -/
structure Window where
  skipped : Int
  size : Int
  deriving DecidableEq

/-- Whether a row is in a window. Rows are counted from 0. -/
def Window.Covers (w : Window) (row : Int) : Prop := w.skipped ≤ row ∧ row < w.skipped + w.size

instance Window.decidableCovers (w : Window) (row : Int) : Decidable (w.Covers row) :=
  inferInstanceAs (Decidable (_ ∧ _))

namespace Pager

/-- The window of a page, in exact numbers. -/
def window (p : Pager) : Window := ⟨p.skipped, p.size.toInt⟩

/-- Size and number are positive, and as many rows as stand before the page can be counted. -/
structure Valid (p : Pager) : Prop where
  size : 0 < p.size.toInt
  number : 0 < p.number.toInt
  skipped : p.skipped ≤ Int64.maxValue.toInt

end Pager

/-! ### Reading a page -/

namespace Listing

/-- What text without quotes is cut into: words, and the blanks and commas between them. -/
inductive Piece where
  | word (cs : List Char)
  | blank
  | comma
  deriving DecidableEq

/-- What a character stands for if it is in no word. -/
def piece? (c : Char) : Option Piece :=
  if c = ' ' then some .blank else if c = ',' then some .comma else none

/-- One more character of a word that goes on or ends. -/
def push (c : Char) : List Piece → List Piece
  | .word cs :: ps => .word (c :: cs) :: ps
  | ps => .word [c] :: ps

/-- Cuts a text into pieces. -/
def cut : List Char → List Piece
  | [] => []
  | c :: cs =>
    match piece? c with
    | some p => p :: cut cs
    | none => push c (cut cs)

/-- The pieces behind others. -/
def behind? : List Piece → List Piece → Option (List Piece)
  | [], ps => some ps
  | q :: qs, p :: ps => if p = q then behind? qs ps else none
  | _ :: _, [] => none

/-- The window that two numbers write. -/
def window? (skipped size : List Char) : Option Window := do
  let skipped ← Digits.unsigned? skipped
  let size ← Digits.unsigned? size
  return ⟨skipped, size⟩

/-- The window that the numbers of a page clause write in one of its forms, and what follows. If there is
one number it is the size. -/
def numbers? : PageForm → List Piece → Option (Window × List Piece)
  | .assembled, .word offset :: .comma :: .word size :: ps => (window? offset size).map (·, ps)
  | .assembled, .word size :: ps => (window? ['0'] size).map (·, ps)
  | .dialect, .word size :: ps =>
    match behind? [.blank, .word "offset".toList, .blank] ps with
    | some (.word offset :: ps) => (window? offset size).map (·, ps)
    | _ => (window? ['0'] size).map (·, ps)
  | _, _ => none

/-- The window that a text starts with in one of its forms, and what follows. -/
def page? (form : PageForm) (ps : List Piece) : Option (Window × List Piece) :=
  (behind? [.blank, .word "limit".toList, .blank] ps).bind (numbers? form)

/-! ### Cutting -/

/-- Whether a text does not go on with a word. -/
def Apart (cs : List Char) : Prop := ∀ c ∈ cs.head?, piece? c ≠ none

/-- A text that does not go on with a word, and starts with one of some words if it starts with any. -/
structure Led (words : List String) (cs : List Char) : Prop where
  apart : Apart cs
  cut : cut cs = [] ∨ ∃ w ∈ words, ∃ ps, cut cs = .blank :: .word w.toList :: ps

theorem apart_blank (cs : List Char) : Apart (' ' :: cs) := by
  intro c hc
  cases hc
  decide

theorem apart_comma (cs : List Char) : Apart (',' :: cs) := by
  intro c hc
  cases hc
  decide

theorem push_append {c : Char} {ps qs : List Piece} (h : ps ≠ []) :
    push c (ps ++ qs) = push c ps ++ qs := by
  match ps with
  | .word cs :: ps => rfl
  | .blank :: ps => rfl
  | .comma :: ps => rfl

/-- No word is at the start of a text that goes on with none. -/
theorem push_cut {cs : List Char} (h : Apart cs) (c : Char) : push c (cut cs) = .word [c] :: cut cs := by
  cases cs with
  | nil => rfl
  | cons d cs =>
    have hd : piece? d ≠ none := h d rfl
    by_cases hblank : d = ' '
    · subst hblank
      rfl
    · by_cases hcomma : d = ','
      · subst hcomma
        rfl
      · rw [piece?, if_neg hblank, if_neg hcomma] at hd
        exact absurd rfl hd

theorem cut_ne_nil (c : Char) (cs : List Char) : cut (c :: cs) ≠ [] := by
  rw [cut]
  split
  · exact nofun
  · rw [push.eq_def]
    split <;> exact nofun

/-- A text is cut by itself if the text behind it does not go on with a word. -/
theorem cut_append {back : List Char} (h : Apart back) (front : List Char) :
    cut (front ++ back) = cut front ++ cut back := by
  induction front with
  | nil => rfl
  | cons c front ih =>
    rw [List.cons_append, cut, cut, ih]
    cases piece? c with
    | some p => rfl
    | none =>
      cases front with
      | nil => exact push_cut h c
      | cons d front => exact push_append (cut_ne_nil d front)

theorem cut_word {w : List Char} (hne : w ≠ []) (h : ∀ c ∈ w, piece? c = none) :
    cut w = [.word w] := by
  induction w with
  | nil => exact absurd rfl hne
  | cons c w ih =>
    rw [cut, h c (List.mem_cons_self ..)]
    cases w with
    | nil => rfl
    | cons d w => rw [ih nofun fun e he => h e (List.mem_cons_of_mem c he)]; rfl

/-- Characters of identifiers are cut into one word. -/
theorem cut_chars {w back : List Char} (hne : w ≠ [])
    (h : ∀ c ∈ w, Ident.isWord c = true ∨ c = '.') (hback : Apart back) :
    cut (w ++ back) = .word w :: cut back := by
  have hword : ∀ c ∈ w, piece? c = none := by
    intro c hc
    have hblank : c ≠ ' ' := by
      rintro rfl
      exact absurd (h _ hc) (by decide)
    have hcomma : c ≠ ',' := by
      rintro rfl
      exact absurd (h _ hc) (by decide)
    rw [piece?, if_neg hblank, if_neg hcomma]
  rw [cut_append hback, cut_word hne hword]
  rfl

/-! ### Numbers and page clauses -/

/-- A number is one word. -/
theorem cut_number {ds back : List Char} (hds : Dialect.IsNumber ds) (h : Apart back) :
    cut (ds ++ back) = .word ds :: cut back := by
  refine cut_chars hds.1 (fun c hc => .inl ?_) h
  have hdigit := hds.2 c hc
  simp only [Digits.isDigit] at hdigit
  simp [Ident.isWord, hdigit]

/-- The digits of a number are read as that number. -/
theorem unsigned?_toDigits (n : Nat) : Digits.unsigned? (Nat.toDigits 10 n) = some n := by
  obtain ⟨hne, hdigits⟩ := Dialect.isNumber_toDigits n
  have hplus : (Nat.toDigits 10 n).head? ≠ some '+' := by
    intro hhead
    exact absurd (hdigits '+' (List.mem_of_head? hhead)) (by decide)
  have hall : (Nat.toDigits 10 n).all Digits.isDigit = true := List.all_eq_true.mpr hdigits
  have hvalue : Digits.value (Nat.toDigits 10 n) = n := Nat.ofDigitChars_ten_toDigits
  simp [Digits.unsigned?, hplus, hall, hvalue, hne]

theorem window?_toString {skipped size : Int} (hskipped : 0 ≤ skipped) (hsize : 0 ≤ size) :
    window? (toString skipped).toList (toString size).toList = some ⟨skipped, size⟩ := by
  obtain ⟨k, rfl⟩ := Int.eq_ofNat_of_zero_le hskipped
  obtain ⟨n, rfl⟩ := Int.eq_ofNat_of_zero_le hsize
  have htext (k : Nat) : (toString (k : Int)).toList = Nat.toDigits 10 k := Nat.toList_repr
  rw [window?, htext, htext, unsigned?_toDigits, unsigned?_toDigits]
  rfl

theorem behind?_append (front ps : List Piece) : behind? front (front ++ ps) = some ps := by
  induction front with
  | nil => rfl
  | cons p front ih => rw [List.cons_append, behind?, if_pos rfl, ih]

/-- A lock has a word of its own. -/
theorem led_lock (lock : Option RowLock) :
    Led ["for"] ((lock.map RowLock.text).getD "").toList := by
  match lock with
  | none => exact ⟨nofun, .inl rfl⟩
  | some .wait => exact ⟨apart_blank _, .inr ⟨"for", List.mem_singleton_self _, _, rfl⟩⟩
  | some .skipLocked => exact ⟨apart_blank _, .inr ⟨"for", List.mem_singleton_self _, _, rfl⟩⟩

/-- The word that a page clause starts with. -/
theorem cut_limit (cs : List Char) :
    cut (" limit ".toList ++ cs) = [.blank, .word "limit".toList, .blank] ++ cut cs := rfl

/-- A number that nothing else of a page follows is the size. -/
theorem numbers?_first (form : PageForm) (size : List Char) {rest : List Char} (h : Led ["for"] rest) :
    numbers? form (.word size :: cut rest) = (window? ['0'] size).map (·, cut rest) := by
  rcases h.cut with hrest | ⟨w, hw, ps, hrest⟩
  · rw [hrest]
    cases form <;> rfl
  · obtain rfl := List.mem_singleton.mp hw
    rw [hrest]
    cases form <;> rfl

/-- The window of a page is read back from either form, and reading goes on behind it. -/
theorem page?_written {p : Pager} (form : PageForm) (hsize : 0 ≤ p.size.toInt)
    (hskipped : 0 ≤ p.skipped) (lock : Option RowLock) :
    page? form (cut ((p.written form).toList ++ ((lock.map RowLock.text).getD "").toList)) =
      some (p.window, cut ((lock.map RowLock.text).getD "").toList) := by
  have hrest := led_lock lock
  generalize ((lock.map RowLock.text).getD "").toList = rest at hrest ⊢
  have hsizes := isNumber_toString hsize
  have hskips := isNumber_toString hskipped
  unfold Pager.written
  rw [Pager.window]
  by_cases hfirst : p.number = 1
  · have hzero : p.skipped = 0 := by
      rw [Pager.skipped, hfirst]
      exact Int.zero_mul _
    have hwindow : window? ['0'] (toString p.size.toInt).toList = some ⟨0, p.size.toInt⟩ :=
      window?_toString (Int.le_refl 0) hsize
    rw [if_pos hfirst, String.toList_append, List.append_assoc, page?, cut_limit, behind?_append,
      cut_number hsizes hrest.apart, hzero, Option.bind_some, numbers?_first form _ hrest, hwindow]
    rfl
  · have hwindow := window?_toString hskipped hsize
    rw [if_neg hfirst]
    cases form with
    | assembled =>
      have hcomma : Apart (",".toList ++ ((toString p.size.toInt).toList ++ rest)) :=
        apart_comma _
      simp only [String.toList_append, List.append_assoc]
      rw [page?, cut_limit, behind?_append, cut_number hskips hcomma, Option.bind_some]
      have hcut : cut (",".toList ++ ((toString p.size.toInt).toList ++ rest)) =
          .comma :: cut ((toString p.size.toInt).toList ++ rest) := rfl
      rw [hcut, cut_number hsizes hrest.apart, numbers?, hwindow]
      rfl
    | dialect =>
      have hblank : Apart (" offset ".toList ++ ((toString p.skipped).toList ++ rest)) :=
        apart_blank _
      simp only [String.toList_append, List.append_assoc]
      rw [page?, cut_limit, behind?_append, cut_number hsizes hblank, Option.bind_some]
      have hcut : cut (" offset ".toList ++ ((toString p.skipped).toList ++ rest)) =
          [.blank, .word "offset".toList, .blank] ++ cut ((toString p.skipped).toList ++ rest) := rfl
      rw [hcut, cut_number hskips hrest.apart, numbers?, behind?_append]
      exact congrArg (Option.map (·, cut rest)) hwindow

end Listing

/-! ### Which pages there are -/

namespace Pager

variable {p : Pager}

/-- A valid page has the exact offset. -/
theorem Valid.offset (h : p.Valid) : p.offset = .ok (Int64.ofInt p.skipped) := by
  rw [Pager.offset, if_neg]
  simp only [Int64.le_iff_toInt_le, Int64.toInt_zero, not_or, Int.not_le, Int.not_lt]
  exact ⟨h.size, h.number, h.skipped⟩

/-- Every other one is refused, with its own numbers. -/
theorem offset_of_not_valid (h : ¬p.Valid) : p.offset = .error (.invalidPager p.size p.number) := by
  rw [Pager.offset, if_pos]
  refine Decidable.byContradiction fun hnot => h ?_
  simp only [Int64.le_iff_toInt_le, Int64.toInt_zero, not_or, Int.not_le, Int.not_lt] at hnot
  exact ⟨hnot.1, hnot.2.1, hnot.2.2⟩

theorem valid_of_offset {o : Int64} (h : p.offset = .ok o) : p.Valid := by
  refine Classical.byContradiction fun hnot => ?_
  rw [offset_of_not_valid hnot] at h
  cases h

/-- A page has an offset exactly if it is valid, and then it is the exact one. -/
theorem offset_eq_ok_iff {o : Int64} : p.offset = .ok o ↔ p.Valid ∧ o.toInt = p.skipped := by
  constructor
  · intro h
    exact ⟨valid_of_offset h, (offset_eq h).2.2⟩
  · rintro ⟨hvalid, ho⟩
    rw [hvalid.offset, ← ho, Int64.ofInt_toInt]

theorem validate_eq_ok_iff : p.validate = .ok () ↔ p.Valid := by
  constructor
  · intro h
    obtain ⟨o, ho, -⟩ := exists_of_map_eq_ok h
    exact valid_of_offset ho
  · intro h
    rw [validate, h.offset]
    rfl

/-- The window of a valid page begins at a row that there may be. -/
theorem Valid.skipped_nonneg (h : p.Valid) : 0 ≤ p.skipped := (offset_eq h.offset).2.1

/-- The offset of a valid page does not overflow: the product of 64 bits is the exact one. -/
theorem Valid.toInt_product (h : p.Valid) : ((p.number - 1) * p.size).toInt = p.skipped := by
  have hproduct : (p.number - 1) * p.size = Int64.ofInt p.skipped := by
    rw [Pager.skipped, Int64.ofInt_mul, Int64.ofInt_sub, Int64.ofInt_toInt, Int64.ofInt_toInt]
    rfl
  rw [hproduct]
  exact (offset_eq h.offset).2.2

/-- The rows of a page are those that its size divides as many times as pages stand before it. -/
theorem covers_iff {row : Int} (h : 0 < p.size.toInt) :
    p.window.Covers row ↔ row / p.size.toInt = p.number.toInt - 1 := by
  have hnext : p.skipped + p.size.toInt = (p.number.toInt - 1 + 1) * p.size.toInt := by
    rw [skipped, Int.add_mul, Int.one_mul]
  rw [Window.Covers, window]
  simp only [hnext]
  rw [skipped, ← Int.le_ediv_iff_mul_le h, ← Int.ediv_lt_iff_lt_mul h]
  omega

/-- A row that can be counted is on exactly one page of each size. -/
theorem exists_unique_page {size : Int64} {row : Int} (hsize : 1 ≤ size) (hrow : 0 ≤ row)
    (hlast : row < Int64.maxValue.toInt) :
    ∃! number : Int64, (Pager.mk size number).validate = .ok () ∧
      (Pager.mk size number).window.Covers row := by
  have hpositive : 0 < size.toInt := by
    rw [Int64.le_iff_toInt_le, Int64.toInt_one] at hsize
    omega
  have hcovers (number : Int64) : (Pager.mk size number).window.Covers row ↔
      row / size.toInt = number.toInt - 1 := covers_iff hpositive
  have hquotient : 0 ≤ row / size.toInt := Int.ediv_nonneg hrow (Int.le_of_lt hpositive)
  have hle : row / size.toInt ≤ row := Int.ediv_le_self _ hrow
  -- the number is one more than the quotient, which is less than the last number there is
  have hnumber : (Int64.ofInt (row / size.toInt + 1)).toInt = row / size.toInt + 1 := by
    rw [Int64.toInt_maxValue] at hlast
    exact Int64.toInt_ofInt_of_le (by omega) (by omega)
  have hcovered : (Pager.mk size (Int64.ofInt (row / size.toInt + 1))).window.Covers row := by
    rw [hcovers, hnumber]
    omega
  refine ⟨_, ⟨validate_eq_ok_iff.mpr ⟨hpositive, ?_, ?_⟩, hcovered⟩, ?_⟩
  · rw [hnumber]
    omega
  · exact Int.le_trans hcovered.1 (Int.le_of_lt hlast)
  · rintro number ⟨-, hother⟩
    rw [hcovers] at hother
    rw [← Int64.toInt_inj, hnumber]
    omega

/-- A window tells which page it is of. -/
theorem eq_of_window {p p' : Pager} (h : p.Valid) (heq : p.window = p'.window) : p = p' := by
  obtain ⟨hskipped, hsize⟩ := Window.mk.inj heq
  rw [skipped, skipped, ← hsize] at hskipped
  have hnumber := Int.eq_of_mul_eq_mul_right (Int.ne_of_gt h.size) hskipped
  have hnumber : p.number = p'.number := by
    rw [← Int64.toInt_inj]
    omega
  rw [Int64.toInt_inj] at hsize
  cases p
  cases p'
  exact congr (congrArg _ hsize) hnumber

/-- The clause of a page is turned round into the other form. -/
theorem adapt_written (h : p.Valid) :
    Dialect.adapt (p.written .assembled) = p.written .dialect := by
  have hnumbered (text : String) : Written.numbered 0 ([] ++ plain text ++ []) = text.toList := by
    rw [List.nil_append, List.append_nil, numbered_plain]
  have hsent (text : String) : (Written.sql ([] ++ plain text ++ [])).text = text := by
    rw [List.nil_append, List.append_nil, sql_plain]
    rfl
  have hsize := isNumber_toString (Int.le_of_lt h.size)
  have hskipped := isNumber_toString h.skipped_nonneg
  rw [written, written]
  split
  · have hadapted := Dialect.adapt_firstPage mild_nil hsize mild_nil (.inl rfl)
    rwa [hnumbered, hsent, String.ofList_toList] at hadapted
  · have hadapted := Dialect.adapt_page mild_nil hskipped hsize mild_nil (.inl rfl)
    rwa [hnumbered, hsent, String.ofList_toList] at hadapted

theorem valid_of_paging {pager : Option Pager} {text : String}
    (h : Statement.paging pager = .ok text) : ∀ p ∈ pager, p.Valid := by
  rintro p rfl
  obtain ⟨o, ho, -⟩ := exists_of_bind_eq_ok h
  exact valid_of_offset ho

/-- What follows a select without order is the page, if it is valid. -/
theorem suffix_eq_ok_iff {text : String} :
    Statement.suffix (some p) [] = .ok text ↔ p.Valid ∧ text = p.written .assembled := by
  constructor
  · intro h
    obtain ⟨order, horder, h⟩ := exists_of_bind_eq_ok h
    obtain ⟨page, hpage, h⟩ := exists_of_bind_eq_ok h
    cases horder
    cases h
    exact ⟨valid_of_paging hpage p rfl, (String.empty_append ..).trans (paging_eq hpage).2⟩
  · rintro ⟨hvalid, rfl⟩
    have hpage : ∃ page, Statement.paging (some p) = .ok page := by
      rw [Statement.paging, hvalid.offset]
      exact ⟨_, rfl⟩
    obtain ⟨page, hpage⟩ := hpage
    obtain rfl := (paging_eq hpage).2
    have horder : Statement.ordering [] = .ok "" := rfl
    rw [Statement.suffix, horder, hpage]
    exact congrArg Except.ok (String.empty_append ..)

/-- Pages tile the rows. A page has an offset exactly if size and number are positive and the exact
number of rows before it is at most the last that 64 bits hold, and then that is its offset, and
multiplying 64 bits comes to it; it validates exactly then. Each row below the last number is on exactly
one page of each size. What follows a select is there exactly if the page validates, and the page's
window is read back from it, as it is assembled and as it is adapted. -/
theorem windows_tile :
    (∀ (p : Pager) (o : Int64), p.offset = .ok o ↔ p.Valid ∧ o.toInt = p.skipped) ∧
    (∀ p : Pager, p.Valid → ((p.number - 1) * p.size).toInt = p.skipped) ∧
    (∀ p : Pager, p.validate = .ok () ↔ p.Valid) ∧
    (∀ (size : Int64) (row : Int), 1 ≤ size → 0 ≤ row → row < Int64.maxValue.toInt →
      ∃! number : Int64, (Pager.mk size number).validate = .ok () ∧
        (Pager.mk size number).window.Covers row) ∧
    (∀ p : Pager, (∃ text, Statement.suffix (some p) [] = .ok text) ↔ p.validate = .ok ()) ∧
    ∀ (p : Pager) (text : String), Statement.suffix (some p) [] = .ok text →
      Listing.page? .assembled (Listing.cut text.toList) = some (p.window, []) ∧
      Listing.page? .dialect (Listing.cut (Dialect.adapt text).toList) = some (p.window, []) := by
  refine ⟨fun p o => offset_eq_ok_iff, fun p => Valid.toInt_product, fun p => validate_eq_ok_iff, ?_,
    fun p => ?_, ?_⟩
  · intro size row hsize hrow hlast
    exact exists_unique_page hsize hrow hlast
  · simp only [suffix_eq_ok_iff, validate_eq_ok_iff, exists_and_left, exists_eq, and_true]
  · intro p text htext
    obtain ⟨hvalid, rfl⟩ := suffix_eq_ok_iff.mp htext
    have hread (form : PageForm) : Listing.page? form (Listing.cut (p.written form).toList) =
        some (p.window, []) := by
      have hread := Listing.page?_written form (Int.le_of_lt hvalid.size) hvalid.skipped_nonneg none
      rwa [Option.map_none, Option.getD_none, String.toList_empty, List.append_nil] at hread
    refine ⟨hread .assembled, ?_⟩
    rw [adapt_written hvalid]
    exact hread .dialect

/-- The last row that there may be, on pages of three: the page after its own is refused. -/
theorem windows_tile_last :
    (∃! number : Int64, (Pager.mk 3 number).validate = .ok () ∧
      (Pager.mk 3 number).window.Covers 9223372036854775806) ∧
    (Pager.mk 3 3074457345618258603).offset = .ok 9223372036854775806 ∧
    Int64.toInt ((3074457345618258603 - 1) * 3) = 9223372036854775806 ∧
    (Pager.mk 3 3074457345618258603).window.Covers 9223372036854775806 ∧
    (Pager.mk 3 3074457345618258604).validate ≠ .ok () ∧
    Listing.page? .dialect (Listing.cut (Dialect.adapt " limit 9223372036854775806,3").toList) =
      some (⟨9223372036854775806, 3⟩, []) := by
  obtain ⟨hoffset, hexact, hvalidate, hpages, -, htexts⟩ := windows_tile
  have hvalid : (Pager.mk 3 3074457345618258603).Valid := ⟨by decide, by decide, by decide⟩
  have hlast : (Pager.mk 3 3074457345618258603).offset = .ok 9223372036854775806 :=
    (hoffset ..).mpr ⟨hvalid, by decide⟩
  refine ⟨hpages 3 9223372036854775806 (by decide) (by decide) (by decide), hlast,
    (hexact _ hvalid).trans (by decide), by decide, ?_, ?_⟩
  · rw [ne_eq, hvalidate]
    exact fun h => absurd h.skipped (by decide)
  · exact (htexts ⟨3, 3074457345618258603⟩ _ rfl).2

end Pager

end TableAccess
