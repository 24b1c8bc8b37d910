import Mathlib.Data.List.Basic
import Mathlib.Data.List.Induction
import Mathlib.Data.Option.Basic
import TableAccess.Sql.Modifier

/-!
What a sequence of assignments comes to.

A modifier is built one assignment after the other. However often columns are assigned, it holds each of
them once, where it was first assigned and as it was last assigned, and its clause lists what it holds;
`Modifier.Latest` says that of a list of assignments. The columns of a modifier and what it holds for
each of them determine it, so sequences build the same modifier exactly if they agree in the order of
their first assignments and in the last assignment of every column.
-/

namespace TableAccess

namespace Assignment

/-- The assignment as it stands in a clause, with a mark for its value. -/
def text (a : Assignment) : String :=
  match a.op with
  | .set => a.column ++ "=?"
  | .add => a.column ++ "=" ++ a.column ++ "+?"
  | .subtract => a.column ++ "=" ++ a.column ++ "-?"

theorem compile_eq (a : Assignment) : a.compile = ⟨a.text, [a.value]⟩ := by
  obtain ⟨column, op, value⟩ := a
  have hmark : ∀ sign, column ++ "=" ++ column ++ sign ++ "?" =
      column ++ "=" ++ column ++ (sign ++ "?") := fun sign => String.append_assoc ..
  cases op with
  | set => exact congrArg (Sql.mk · [value]) (String.append_assoc ..)
  | add => exact congrArg (Sql.mk · [value]) (hmark "+")
  | subtract => exact congrArg (Sql.mk · [value]) (hmark "-")

end Assignment

namespace Modifier

variable {m m' : Modifier} {a : Assignment} {calls : List Assignment} {column : String}

/-! ### The clause -/

theorem join_eq : ∀ assignments : List Assignment, join assignments =
    ⟨",".intercalate (assignments.map Assignment.text), assignments.map Assignment.value⟩
  | [] => rfl
  | [a] => by rw [join, a.compile_eq]; simp
  | a :: b :: rest => by
    have hjoin : join (a :: b :: rest) = a.compile ++ Sql.raw "," ++ join (b :: rest) := rfl
    rw [hjoin, a.compile_eq, join_eq (b :: rest), List.map_cons, List.map_cons, List.map_cons,
      List.map_cons, String.intercalate_cons_cons]
    rfl

/-- The clause of a modifier lists its assignments, and its arguments are their values. -/
theorem compile_eq (h : m.isEmpty = false) : m.compile =
    ⟨"set " ++ ",".intercalate (m.assignments.map Assignment.text),
      m.assignments.map Assignment.value⟩ := by
  rw [compile, h, join_eq]
  rfl

/-! ### One more assignment -/

/-- What a modifier assigns to a column. -/
def get? (m : Modifier) (column : String) : Option Assignment :=
  m.assignments.find? fun a => a.column = column

theorem columns_putInto (a : Assignment) : ∀ held : List Assignment,
    (putInto a held).map Assignment.column =
      if a.column ∈ held.map Assignment.column then held.map Assignment.column
      else held.map Assignment.column ++ [a.column]
  | [] => rfl
  | b :: rest => by
    have hrest := columns_putInto a rest
    by_cases hb : b.column = a.column
    · simp [putInto, hb]
    · have hab : a.column ≠ b.column := Ne.symm hb
      simp only [putInto, if_neg hb, List.map_cons, hrest, List.mem_cons, hab, false_or]
      split <;> rfl

/-- A column keeps its place if it is assigned again, and a new one comes last. -/
theorem columns_put (m : Modifier) (a : Assignment) : (m.put a).columns =
    if a.column ∈ m.columns then m.columns else m.columns ++ [a.column] :=
  columns_putInto a m.assignments

theorem find?_putInto (a : Assignment) (column : String) : ∀ held : List Assignment,
    (putInto a held).find? (fun b => b.column = column) =
      if a.column = column then some a else held.find? (fun b => b.column = column)
  | [] => by by_cases ha : a.column = column <;> simp [putInto, ha]
  | b :: rest => by
    have hrest := find?_putInto a column rest
    by_cases hb : b.column = a.column
    · by_cases ha : a.column = column <;> simp [putInto, hb, ha]
    · rw [putInto, if_neg hb, List.find?_cons, List.find?_cons, hrest]
      by_cases ha : a.column = column
      · have hbc : b.column ≠ column := ha ▸ hb
        simp [ha, hbc]
      · simp [ha]

/-- The last assignment of a column counts, and those of the others stay. -/
theorem get?_put (m : Modifier) (a : Assignment) (column : String) :
    (m.put a).get? column = if a.column = column then some a else m.get? column :=
  find?_putInto a column m.assignments

/-- Assignments of other columns stay as they are and in their order. -/
theorem filter_putInto {p : String → Bool} (h : p a.column = false) : ∀ held : List Assignment,
    (putInto a held).filter (fun b => p b.column) = held.filter fun b => p b.column
  | [] => by simp [putInto, h]
  | b :: rest => by
    by_cases hb : b.column = a.column
    · simp [putInto, hb, h]
    · rw [putInto, if_neg hb, List.filter_cons, List.filter_cons, filter_putInto h rest]

theorem nodup_put (h : m.columns.Nodup) (a : Assignment) : (m.put a).columns.Nodup := by
  rw [columns_put]
  split
  · exact h
  · next ha =>
    refine List.nodup_append.mpr ⟨h, by simp, fun c hc d hd => ?_⟩
    rw [List.mem_singleton.mp hd]
    exact ne_of_mem_of_not_mem hc ha

/-! ### Sequences of assignments -/

/-- Columns in the order in which they are first assigned. -/
def firsts (calls : List Assignment) : List String := (calls.map Assignment.column).eraseDups

/-- The last assignment of a column. -/
def latest? (calls : List Assignment) (column : String) : Option Assignment :=
  calls.reverse.find? fun a => a.column = column

theorem ofList_append (calls more : List Assignment) :
    ofList (calls ++ more) = more.foldl put (ofList calls) := List.foldl_append ..

theorem ofList_concat (calls : List Assignment) (a : Assignment) :
    ofList (calls ++ [a]) = (ofList calls).put a := ofList_append calls [a]

theorem firsts_append (calls more : List Assignment) : firsts (calls ++ more) =
    firsts calls ++ ((more.map Assignment.column).removeAll
      (calls.map Assignment.column)).eraseDups := by
  rw [firsts, List.map_append, List.eraseDups_append]
  rfl

theorem latest?_append (calls more : List Assignment) (column : String) :
    latest? (calls ++ more) column = (latest? more column).or (latest? calls column) := by
  rw [latest?, List.reverse_append, List.find?_append]
  rfl

theorem exists_latest? (ha : a ∈ calls) : ∃ b, latest? calls a.column = some b :=
  Option.isSome_iff_exists.mp
    (List.find?_isSome.mpr ⟨a, List.mem_reverse.mpr ha, decide_eq_true rfl⟩)

theorem mem_of_latest? (h : latest? calls column = some a) : a ∈ calls ∧ a.column = column := by
  unfold latest? at h
  exact ⟨List.mem_reverse.mp (List.mem_of_find?_eq_some h), by simpa using List.find?_some h⟩

/-- Without repetitions a column that has occurred before is left out, and a new one comes last. -/
theorem eraseDups_concat (columns : List String) (column : String) :
    (columns ++ [column]).eraseDups =
      if column ∈ columns.eraseDups then columns.eraseDups else columns.eraseDups ++ [column] := by
  rw [List.eraseDups_append, List.removeAll]
  by_cases h : column ∈ columns <;> simp [h, List.eraseDups_cons]

theorem mem_firsts : column ∈ firsts calls ↔ column ∈ calls.map Assignment.column :=
  List.mem_eraseDups

theorem columns_ofList (calls : List Assignment) : (ofList calls).columns = firsts calls := by
  induction calls using List.reverseRecOn with
  | nil => rfl
  | append_singleton calls a ih =>
    rw [ofList_concat, columns_put, ih, firsts, firsts, List.map_append, List.map_singleton,
      eraseDups_concat]

theorem get?_ofList (calls : List Assignment) (column : String) :
    (ofList calls).get? column = latest? calls column := by
  induction calls using List.reverseRecOn with
  | nil => rfl
  | append_singleton calls a ih =>
    rw [ofList_concat, get?_put, ih, latest?_append]
    by_cases ha : a.column = column <;> simp [latest?, ha]

theorem nodup_ofList (calls : List Assignment) : (ofList calls).columns.Nodup := by
  induction calls using List.reverseRecOn with
  | nil => exact List.nodup_nil
  | append_singleton calls a ih =>
    rw [ofList_concat]
    exact nodup_put ih a

theorem isEmpty_ofList (calls : List Assignment) : (ofList calls).isEmpty = calls.isEmpty := by
  have hcolumns := columns_ofList calls
  cases calls with
  | nil => rfl
  | cons a rest =>
    have hmem : a.column ∈ (ofList (a :: rest)).columns := by
      rw [hcolumns, mem_firsts]
      exact List.mem_cons_self ..
    have hne := List.ne_nil_of_mem hmem
    rw [columns, ne_eq, List.map_eq_nil_iff] at hne
    simpa [isEmpty] using hne

/-! ### What determines a modifier -/

/-- A modifier that assigns no column twice has each of its assignments for the column of that. -/
theorem get?_of_mem (h : m.columns.Nodup) (ha : a ∈ m.assignments) : m.get? a.column = some a := by
  obtain ⟨held⟩ := m
  simp only [columns, get?] at h ha ⊢
  induction held with
  | nil => cases ha
  | cons b rest ih =>
    rw [List.map_cons, List.nodup_cons] at h
    rcases List.mem_cons.mp ha with rfl | ha
    · simp
    · have hb : b.column ≠ a.column := fun hb => h.1 (hb ▸ List.mem_map_of_mem ha)
      simp [hb, ih h.2 ha]

theorem map_get?_columns (h : m.columns.Nodup) : m.columns.map m.get? = m.assignments.map some := by
  rw [columns, List.map_map]
  exact List.map_congr_left fun a ha => get?_of_mem h ha

/-- A modifier that assigns no column twice has no more assignments of a column than one. -/
theorem filter_column (h : m.columns.Nodup) (column : String) :
    m.assignments.filter (fun a => a.column = column) = (m.get? column).toList := by
  obtain ⟨held⟩ := m
  simp only [columns, get?] at h ⊢
  induction held with
  | nil => rfl
  | cons b rest ih =>
    rw [List.map_cons, List.nodup_cons] at h
    by_cases hb : b.column = column
    · have hrest : rest.filter (fun a => a.column = column) = [] := by
        refine List.filter_eq_nil_iff.mpr fun a ha => ?_
        have hne : a.column ≠ column := fun hac =>
          h.1 (hb.trans hac.symm ▸ List.mem_map_of_mem ha)
        simpa using hne
      simp [hb, hrest]
    · simp [hb, ih h.2]

theorem eq_of_columns (h : m.columns.Nodup) (hcolumns : m.columns = m'.columns)
    (hget : ∀ column, m.get? column = m'.get? column) : m = m' := by
  have hsome : m.assignments.map some = m'.assignments.map some := by
    rw [← map_get?_columns h, ← map_get?_columns (hcolumns ▸ h), hcolumns]
    exact List.map_congr_left fun column _ => hget column
  obtain ⟨held⟩ := m
  obtain ⟨held'⟩ := m'
  exact congrArg Modifier.mk (List.map_injective_iff.mpr (Option.some_injective _) hsome)

/-- Sequences build the same modifier if and only if they agree in the order of their first assignments
and in the last assignment of each column. -/
theorem ofList_eq_iff (calls calls' : List Assignment) : ofList calls = ofList calls' ↔
    firsts calls = firsts calls' ∧ ∀ column, latest? calls column = latest? calls' column := by
  constructor
  · intro h
    refine ⟨?_, fun column => ?_⟩
    · rw [← columns_ofList, h, columns_ofList]
    · rw [← get?_ofList, h, get?_ofList]
  · rintro ⟨hfirsts, hlatest⟩
    refine eq_of_columns (nodup_ofList calls) ?_ fun column => ?_
    · rw [columns_ofList, columns_ofList, hfirsts]
    · rw [get?_ofList, get?_ofList, hlatest]

/-! ### The last assignments in the order of the first ones -/

/-- What a sequence of assignments comes to: each column that is assigned, once, in the order in which the
columns are first assigned, and as it is assigned last. -/
structure Latest (calls held : List Assignment) : Prop where
  once : (held.map Assignment.column).Nodup
  assigned : ∀ column,
    column ∈ held.map Assignment.column ↔ column ∈ calls.map Assignment.column
  ordered : (held.map Assignment.column).Pairwise fun c d =>
    (calls.map Assignment.column).idxOf c < (calls.map Assignment.column).idxOf d
  latest : ∀ a ∈ held, ∃ before after,
    calls = before ++ a :: after ∧ ∀ b ∈ after, b.column ≠ a.column

/-- Columns without their repetitions are in the order in which they first occur. -/
theorem ordered_eraseDups (columns : List String) :
    columns.eraseDups.Pairwise fun c d => columns.idxOf c < columns.idxOf d := by
  induction columns using List.reverseRecOn with
  | nil => exact .nil
  | append_singleton columns c ih =>
    have hbefore : ∀ d ∈ columns.eraseDups, (columns ++ [c]).idxOf d = columns.idxOf d :=
      fun d hd => List.idxOf_append_of_mem (List.mem_eraseDups.mp hd)
    have hkept : columns.eraseDups.Pairwise fun d e =>
        (columns ++ [c]).idxOf d < (columns ++ [c]).idxOf e :=
      ih.imp_of_mem fun hd he hlt => by rwa [hbefore _ hd, hbefore _ he]
    rw [eraseDups_concat]
    split
    · exact hkept
    · next hc =>
      -- a column that has not occurred comes behind all that have
      have hlast : ∀ d ∈ columns.eraseDups,
          (columns ++ [c]).idxOf d < (columns ++ [c]).idxOf c := by
        intro d hd
        rw [hbefore d hd, List.idxOf_append_of_notMem (mt List.mem_eraseDups.mpr hc)]
        exact Nat.lt_of_lt_of_le (List.idxOf_lt_length_of_mem (List.mem_eraseDups.mp hd))
          (Nat.le_add_right ..)
      rw [List.pairwise_append]
      exact ⟨hkept, List.pairwise_singleton .., by simpa using hlast⟩

theorem exists_of_latest? (h : latest? calls column = some a) : ∃ before after,
    calls = before ++ a :: after ∧ ∀ b ∈ after, b.column ≠ column := by
  obtain ⟨-, before, after, hsplit, hbefore⟩ := List.find?_eq_some_iff_append.mp h
  refine ⟨after.reverse, before.reverse, ?_, fun b hb => ?_⟩
  · rw [← List.reverse_reverse calls, hsplit]
    simp
  · simpa using hbefore b (List.mem_reverse.mp hb)

theorem latest_ofList (calls : List Assignment) : Latest calls (ofList calls).assignments := by
  have hcolumns : (ofList calls).assignments.map Assignment.column = firsts calls :=
    columns_ofList calls
  refine ⟨nodup_ofList calls, fun column => ?_, ?_, fun a ha => ?_⟩
  · rw [hcolumns, mem_firsts]
  · rw [hcolumns]
    exact ordered_eraseDups _
  · have hlast := get?_of_mem (nodup_ofList calls) ha
    rw [get?_ofList] at hlast
    exact exists_of_latest? hlast

/-- Whatever the sequence of assignments: the modifier that it builds holds each assigned column once, in
the order of the first assignments and as the last one has it. Its clause lists what it holds, and there
is none without assignments. No other sequences build the same modifier than those with the same order of
first assignments and the same last ones. -/
theorem ofList_settled (calls : List Assignment) :
    Latest calls (ofList calls).assignments ∧
    (ofList calls).compile =
      (if calls.isEmpty then Sql.empty
      else ⟨"set " ++ ",".intercalate ((ofList calls).assignments.map Assignment.text),
        (ofList calls).assignments.map Assignment.value⟩) ∧
    ∀ calls', ofList calls = ofList calls' ↔
      firsts calls = firsts calls' ∧ ∀ column, latest? calls column = latest? calls' column := by
  refine ⟨latest_ofList calls, ?_, ofList_eq_iff calls⟩
  have hempty := isEmpty_ofList calls
  cases hc : calls.isEmpty with
  | true =>
    rw [hc] at hempty
    rw [compile, hempty]
    rfl
  | false =>
    rw [hc] at hempty
    rw [compile_eq hempty]
    rfl

example : ofList [⟨"a", .set, .int 1⟩, ⟨"b", .set, .int 2⟩, ⟨"a", .add, .int 5⟩] =
    ⟨[⟨"a", .add, .int 5⟩, ⟨"b", .set, .int 2⟩]⟩ := by decide

end Modifier

end TableAccess
