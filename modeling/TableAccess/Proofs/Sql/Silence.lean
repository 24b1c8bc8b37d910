import TableAccess.Proofs.Sql.Conditions
import TableAccess.Statement

/-!
What a condition says before it is compiled.

Of a condition that is made of predicates only, it can be read off the predicates, in the order of
the tree, how compiling it ends: the first membership in an empty list is refused by its column, and
if there is none the text is empty exactly if every predicate is void. A mutation refuses the empty
text as well, so these are the two ways in which one makes no statement.
-/

namespace TableAccess

/-- A predicate that says nothing: a pattern without text or of an unknown style, a range without
bounds, an empty text of its own. -/
def Predicate.isVoid : Predicate → Bool
  | like _ text style => text.isEmpty || !(style == 0 || style == 1 || style == 2)
  | between _ none none => true
  | scalar text => text.isEmpty
  | _ => false

/-- The column of a membership in an empty list. -/
def Predicate.emptyAmong? : Predicate → Option String
  | among column [] _ => some column
  | _ => none

namespace Condition

mutual

/-- The predicates of a condition from left to right, at whatever depth they are. -/
def leaves : Condition → List Predicate
  | leaf p => [p]
  | group _ children => leavesAll children
  | custom _ => []

def leavesAll : List Condition → List Predicate
  | [] => []
  | c :: cs => c.leaves ++ leavesAll cs

end

mutual

/-- Whether a condition is made of predicates only. -/
def isBuiltIn : Condition → Bool
  | leaf _ => true
  | group _ children => allBuiltIn children
  | custom _ => false

def allBuiltIn : List Condition → Bool
  | [] => true
  | c :: cs => c.isBuiltIn && allBuiltIn cs

end

/-- The column of the leftmost membership in an empty list. -/
def emptyAmong? (c : Condition) : Option String := c.leaves.findSome? Predicate.emptyAmong?

/-- Whether no predicate of a condition says anything; a condition without predicates is void. -/
def isVoid (c : Condition) : Bool := c.leaves.all Predicate.isVoid

end Condition

/-! ### Predicates -/

theorem text_bind_ne_empty (v : Value) : (Sql.bind v).text ≠ "" := by
  change "?" ≠ ""
  decide

/-- Text with anything after it that is not empty is not empty. -/
theorem append_ne_empty {s t : String} (h : t ≠ "") : s ++ t ≠ "" := by
  rw [ne_eq, String.append_eq_empty_iff]
  exact fun hst => h hst.2

theorem Predicate.compile_of_emptyAmong {p : Predicate} {column : String}
    (h : p.emptyAmong? = some column) : p.compile = .error (.noParamValues column) := by
  cases p with
  | among c values negated =>
    cases values with
    | nil =>
      cases h
      rfl
    | cons v vs => cases h
  | compare op c v => cases h
  | like c text style => cases h
  | null c negated => cases h
  | between c low high => cases h
  | scalar text => cases h
  | bits c mask target => cases h

/-- The three pattern styles are the ones that have a pattern. -/
theorem likePattern_eq_none_iff {style : Int} (text : String) :
    likePattern style text = none ↔ (style == 0 || style == 1 || style == 2) = false := by
  unfold likePattern
  by_cases h0 : style = 0
  · simp [h0]
  · by_cases h1 : style = 1
    · simp [h1]
    · by_cases h2 : style = 2 <;> simp [h0, h1, h2]

/-- A predicate that is not refused compiles, and to no text exactly if it is void. -/
theorem Predicate.exists_compile {p : Predicate} (h : p.emptyAmong? = none) :
    ∃ q, p.compile = .ok q ∧ (q.text = "" ↔ p.isVoid = true) := by
  cases p with
  | compare op column v =>
    exact ⟨_, rfl, iff_of_false (append_ne_empty (text_bind_ne_empty v)) Bool.false_ne_true⟩
  | among column values negated =>
    cases values with
    | nil => cases h
    | cons v vs => exact ⟨_, rfl, iff_of_false (append_ne_empty (by decide)) Bool.false_ne_true⟩
  | like column text style =>
    rw [compile, isVoid]
    by_cases ht : text.isEmpty = true
    · exact ⟨_, if_pos ht, iff_of_true rfl (by rw [ht, Bool.true_or])⟩
    · rw [if_neg ht, Bool.eq_false_iff.mpr ht, Bool.false_or, Bool.not_eq_true']
      cases hp : likePattern style text with
      | none => exact ⟨_, rfl, iff_of_true rfl ((likePattern_eq_none_iff text).mp hp)⟩
      | some pattern =>
        refine ⟨_, rfl, iff_of_false (append_ne_empty (text_bind_ne_empty _)) ?_⟩
        rw [← likePattern_eq_none_iff text, hp]
        exact Option.some_ne_none pattern
  | null column negated =>
    refine ⟨_, rfl, iff_of_false (append_ne_empty ?_) Bool.false_ne_true⟩
    cases negated <;> decide
  | between column low high =>
    cases low with
    | none =>
      cases high with
      | none => exact ⟨_, rfl, iff_of_true rfl rfl⟩
      | some high =>
        exact ⟨_, rfl, iff_of_false (append_ne_empty (text_bind_ne_empty high)) Bool.false_ne_true⟩
    | some low =>
      cases high with
      | none =>
        exact ⟨_, rfl, iff_of_false (append_ne_empty (text_bind_ne_empty low)) Bool.false_ne_true⟩
      | some high =>
        exact ⟨_, rfl, iff_of_false (append_ne_empty (text_bind_ne_empty high)) Bool.false_ne_true⟩
  | scalar text => exact ⟨_, rfl, String.isEmpty_iff.symm⟩
  | bits column mask target =>
    exact ⟨_, rfl, iff_of_false (append_ne_empty (text_bind_ne_empty target)) Bool.false_ne_true⟩

/-! ### Trees -/

/-- Fragments that are not empty make a text that is not empty, if there are any. -/
theorem Logic.join_eq_empty_iff (logic : Logic) {fragments : List String}
    (h : ∀ f ∈ fragments, f ≠ "") : logic.join fragments = "" ↔ fragments = [] := by
  match fragments with
  | [] => cases logic <;> exact iff_of_true rfl rfl
  | [f] =>
    refine iff_of_false ?_ (List.cons_ne_nil f [])
    have hf : f ≠ "" := h f (List.mem_singleton_self f)
    cases logic <;> simpa [join] using hf
  | f :: g :: rest =>
    refine iff_of_false ?_ (List.cons_ne_nil f (g :: rest))
    have hf : f ≠ "" := h f (List.mem_cons_self ..)
    rw [join]
    split
    · exact append_ne_empty (by decide)
    · rw [String.intercalate_cons_cons]
      simp [String.append_eq_empty_iff, hf]

namespace Condition

mutual

/-- A condition without an empty membership compiles, and to no text exactly if it is void. -/
theorem exists_compile : ∀ {c : Condition} (args : List Value), c.isBuiltIn = true →
    c.leaves.findSome? Predicate.emptyAmong? = none →
    ∃ q, c.compile args = .ok q ∧ (q.text = "" ↔ c.leaves.all Predicate.isVoid = true)
  | .leaf p, args, _, h => by
    simp only [leaves, List.findSome?_singleton] at h
    obtain ⟨q, hq, hvoid⟩ := Predicate.exists_compile h
    refine ⟨⟨q.text, args ++ q.args⟩, ?_, ?_⟩
    · rw [compile, hq]
      rfl
    · simpa [leaves] using hvoid
  | .group logic children, args, hb, h => by
    rw [isBuiltIn] at hb
    rw [leaves] at h
    obtain ⟨⟨fragments, args'⟩, hr, hne, hvoid⟩ := exists_compileAll args hb h
    refine ⟨⟨logic.join fragments, args'⟩, ?_, ?_⟩
    · rw [compile, hr]
      rfl
    · rw [leaves]
      exact (logic.join_eq_empty_iff hne).trans hvoid

/-- The children leave only texts that say something, and none exactly if all of them are void. -/
theorem exists_compileAll : ∀ {cs : List Condition} (args : List Value), allBuiltIn cs = true →
    (leavesAll cs).findSome? Predicate.emptyAmong? = none →
    ∃ r, compileAll cs args = .ok r ∧ (∀ f ∈ r.1, f ≠ "") ∧
      (r.1 = [] ↔ (leavesAll cs).all Predicate.isVoid = true)
  | [], args, _, _ => ⟨([], args), by rw [compileAll], nofun, by simp [leavesAll]⟩
  | c :: cs, args, hb, h => by
    simp only [allBuiltIn, Bool.and_eq_true] at hb
    rw [leavesAll, List.findSome?_append, Option.or_eq_none_iff] at h
    obtain ⟨q, hq, hvoid⟩ := exists_compile args hb.1 h.1
    obtain ⟨⟨fragments, args'⟩, hr, hne, hvoids⟩ := exists_compileAll q.args hb.2 h.2
    refine ⟨(if q.text.isEmpty then fragments else q.text :: fragments, args'), ?_, ?_, ?_⟩
    · rw [compileAll, hq]
      simp only [bind, Except.bind, hr, pure, Except.pure]
    · intro f hf
      by_cases ht : q.text = ""
      · rw [if_pos (String.isEmpty_iff.mpr ht)] at hf
        exact hne f hf
      · rw [if_neg (mt String.isEmpty_iff.mp ht)] at hf
        rcases List.mem_cons.mp hf with rfl | hf
        · exact ht
        · exact hne f hf
    · rw [leavesAll, List.all_append, Bool.and_eq_true, ← hvoid, ← hvoids]
      by_cases ht : q.text = ""
      · simp [ht]
      · simp [ht]

end

mutual

/-- A condition with an empty membership is refused by the leftmost one's column. -/
theorem compile_error : ∀ {c : Condition} {column : String} (args : List Value),
    c.isBuiltIn = true → c.leaves.findSome? Predicate.emptyAmong? = some column →
    c.compile args = .error (.noParamValues column)
  | .leaf p, column, args, _, h => by
    simp only [leaves, List.findSome?_singleton] at h
    rw [compile, Predicate.compile_of_emptyAmong h]
    rfl
  | .group logic children, column, args, hb, h => by
    rw [isBuiltIn] at hb
    rw [leaves] at h
    rw [compile, compileAll_error args hb h]
    rfl

theorem compileAll_error : ∀ {cs : List Condition} {column : String} (args : List Value),
    allBuiltIn cs = true → (leavesAll cs).findSome? Predicate.emptyAmong? = some column →
    compileAll cs args = .error (.noParamValues column)
  | [], column, args, _, h => by
    rw [leavesAll] at h
    cases h
  | c :: cs, column, args, hb, h => by
    simp only [allBuiltIn, Bool.and_eq_true] at hb
    rw [leavesAll, List.findSome?_append] at h
    cases hc : c.leaves.findSome? Predicate.emptyAmong? with
    | some other =>
      rw [hc, Option.some_or] at h
      cases h
      rw [compileAll, compile_error args hb.1 hc]
      rfl
    | none =>
      -- the children before the leftmost one compile, so it is the one that is met first
      rw [hc, Option.none_or] at h
      obtain ⟨q, hq, _⟩ := exists_compile args hb.1 hc
      rw [compileAll, hq]
      simp only [bind, Except.bind, compileAll_error q.args hb.2 h]

end

end Condition

/-! ### The condition of a mutation -/

namespace Statement

/-- A condition with a text stands behind its word. -/
theorem condition_of_build {m : Matcher} {q : Sql} (h : m.build = .ok q) (ht : q.text ≠ "") :
    condition (some m) = .ok ⟨" where " ++ q.text, q.args⟩ := by
  have hq : q.isEmpty = false := Bool.eq_false_iff.mpr (mt String.isEmpty_iff.mp ht)
  rw [condition, h]
  simp only [bind, Except.bind, pure, Except.pure, hq, Bool.false_eq_true, if_false]

/-- A condition with a text is what a mutation asks for. -/
theorem required_of_build {m : Matcher} {q : Sql} (mutation : Mutation) (h : m.build = .ok q)
    (ht : q.text ≠ "") : required mutation (some m) = .ok ⟨" where " ++ q.text, q.args⟩ := by
  have hword : (Sql.isEmpty ⟨" where " ++ q.text, q.args⟩) = false :=
    Bool.eq_false_iff.mpr (mt String.isEmpty_iff.mp (append_ne_empty ht))
  rw [required, condition_of_build h ht]
  simp only [bind, Except.bind, hword, Bool.false_eq_true, if_false]

/-- A condition without text is refused. -/
theorem required_of_empty {m : Matcher} {q : Sql} (mutation : Mutation) (h : m.build = .ok q)
    (ht : q.text = "") : required mutation (some m) = .error (.missingCondition mutation) := by
  have hq : q.isEmpty = true := String.isEmpty_iff.mpr ht
  rw [required, condition, h]
  simp only [bind, Except.bind, pure, Except.pure, hq, if_true]
  rfl

/-- A condition that is refused refuses the mutation. -/
theorem required_of_error {m : Matcher} {f : Failure} (mutation : Mutation)
    (h : m.build = .error f) : required mutation (some m) = .error f := by
  rw [required, condition, h]
  rfl

/-- A mutation that is not refused has the text of its condition at its end, behind the word. -/
theorem exists_of_required {mutation : Mutation} {m : Matcher} {cond : Sql}
    (h : required mutation (some m) = .ok cond) :
    ∃ q, m.build = .ok q ∧ q.text ≠ "" ∧ cond = ⟨" where " ++ q.text, q.args⟩ := by
  cases hb : m.build with
  | error f =>
    rw [required_of_error mutation hb] at h
    cases h
  | ok q =>
    by_cases ht : q.text = ""
    · rw [required_of_empty mutation hb ht] at h
      cases h
    · rw [required_of_build mutation hb ht] at h
      cases h
      exact ⟨q, rfl, ht, rfl⟩

end Statement

end TableAccess
