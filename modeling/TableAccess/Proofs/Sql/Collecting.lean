import TableAccess.Proofs.Sql.Silence

/-!
Arguments are collected from the left.

Compiling a condition is handed the arguments that were collected before it. It never looks at them: it
puts its own behind them, and whether it compiles and to which text does not depend on them. Its own are
those of the conditions at its tips, whatever depth they are at, in the order of the tree, also of those
that have no text. Conditions of the caller's own are taken to keep to this; predicates always do, and
where predicates say nothing they bind nothing either.
-/

namespace TableAccess

/-- A fragment with arguments that were collected before it. -/
def Sql.behind (prior : List Value) (q : Sql) : Sql := ⟨q.text, prior ++ q.args⟩

/-- A predicate that says nothing binds nothing. -/
theorem Predicate.args_of_text {p : Predicate} {q : Sql} (h : p.compile = .ok q) (ht : q.text = "") :
    q.args = [] := by
  obtain rfl := Predicate.compile_eq h
  have hnil : p.written = [] := Written.isEmpty_sql.mp (String.isEmpty_iff.mpr ht)
  rw [hnil]
  rfl

namespace Condition

mutual

/-- The conditions of a tree that are no groups, from left to right and at whatever depth they are. -/
def tips : Condition → List Condition
  | leaf p => [leaf p]
  | custom f => [custom f]
  | group _ children => tipsAll children

def tipsAll : List Condition → List Condition
  | [] => []
  | c :: cs => c.tips ++ tipsAll cs

end

/-- A condition of the caller's own that only puts arguments behind the ones it is given: what it comes
to besides does not depend on them. -/
def Appends (f : List Value → Except Failure Sql) : Prop :=
  ∃ own : Except Failure Sql, ∀ prior, f prior = own.map (Sql.behind prior)

/-- All conditions of the caller's own among some only append. -/
def AllAppend (cs : List Condition) : Prop := ∀ f, custom f ∈ cs → Appends f

theorem allAppend_append {cs ds : List Condition} :
    AllAppend (cs ++ ds) ↔ AllAppend cs ∧ AllAppend ds := by
  constructor
  · intro h
    exact ⟨fun f hf => h f (List.mem_append_left ds hf), fun f hf => h f (List.mem_append_right cs hf)⟩
  · rintro ⟨hcs, hds⟩ f hf
    rcases List.mem_append.mp hf with hf | hf
    · exact hcs f hf
    · exact hds f hf

/-! ### What was collected before -/

theorem Appends.eq_behind {f : List Value → Except Failure Sql} (h : Appends f) (prior : List Value) :
    f prior = (f []).map (Sql.behind prior) := by
  obtain ⟨own, hown⟩ := h
  rw [hown prior, hown []]
  cases own <;> rfl

mutual

/-- The arguments collected before a condition are put in front of its own. -/
theorem compile_behind : ∀ {c : Condition}, AllAppend c.tips → ∀ prior : List Value,
    c.compile prior = (c.compile []).map (Sql.behind prior)
  | .leaf p, _, prior => by
    rw [compile, compile]
    cases p.compile <;> rfl
  | .custom f, h, prior => by
    rw [compile, compile]
    exact (h f (by simp [tips])).eq_behind prior
  | .group logic children, h, prior => by
    rw [tips] at h
    rw [compile, compile, compileAll_behind h prior]
    cases compileAll children [] <;> rfl

/-- Those collected before the first of several conditions are put in front of those of all. -/
theorem compileAll_behind : ∀ {cs : List Condition}, AllAppend (tipsAll cs) → ∀ prior : List Value,
    compileAll cs prior = (compileAll cs []).map fun r => (r.1, prior ++ r.2)
  | [], _, prior => by
    rw [compileAll, compileAll]
    simp [Except.map]
  | c :: cs, h, prior => by
    rw [tipsAll, allAppend_append] at h
    rw [compileAll, compileAll, compile_behind h.1 prior]
    cases c.compile [] with
    | error e => rfl
    | ok q =>
      have hprior := compileAll_behind h.2 (prior ++ q.args)
      have hnone := compileAll_behind h.2 q.args
      simp only [Except.map, bind, Except.bind, Sql.behind, hprior, hnone]
      cases compileAll cs [] with
      | error e => rfl
      | ok r => simp [pure, Except.pure]

end

/-! ### What is collected -/

/-- The arguments of conditions, one after the other, each compiled by itself; if some do not compile,
the failure of the first of them. -/
def collected (cs : List Condition) : Except Failure (List Value) :=
  (cs.mapM fun c : Condition => c.compile []).map fun qs => qs.flatMap Sql.args

theorem collected_singleton (c : Condition) : collected [c] = (c.compile []).map Sql.args := by
  rw [collected, List.mapM_cons, List.mapM_nil]
  cases c.compile [] with
  | error e => rfl
  | ok q => simp [Except.map, bind, Except.bind, pure, Except.pure]

theorem collected_append (cs ds : List Condition) :
    collected (cs ++ ds) = (collected cs).bind fun args => (collected ds).map (args ++ ·) := by
  rw [collected, collected, collected, List.mapM_append]
  cases cs.mapM fun c : Condition => c.compile [] with
  | error e => rfl
  | ok qs =>
    cases ds.mapM fun c : Condition => c.compile [] with
    | error e => rfl
    | ok rs => simp [Except.map, bind, Except.bind, pure, Except.pure]

mutual

/-- The arguments of a condition are those of its tips. -/
theorem args_compile : ∀ {c : Condition}, AllAppend c.tips →
    (c.compile []).map Sql.args = collected c.tips
  | .leaf p, _ => by rw [tips, collected_singleton]
  | .custom f, _ => by rw [tips, collected_singleton]
  | .group logic children, h => by
    rw [tips] at h ⊢
    rw [← args_compileAll h, compile]
    cases compileAll children [] <;> rfl

theorem args_compileAll : ∀ {cs : List Condition}, AllAppend (tipsAll cs) →
    (compileAll cs []).map Prod.snd = collected (tipsAll cs)
  | [], _ => by
    rw [compileAll, tipsAll]
    rfl
  | c :: cs, h => by
    rw [tipsAll, allAppend_append] at h
    rw [compileAll, tipsAll, collected_append, ← args_compile h.1, ← args_compileAll h.2]
    cases c.compile [] with
    | error e => rfl
    | ok q =>
      simp only [Except.map, bind, Except.bind, compileAll_behind h.2 q.args]
      cases compileAll cs [] <;> rfl

end

/-! ### Silence -/

/-- Conditions leave only texts that say something. -/
theorem ne_empty_of_compileAll : ∀ {cs : List Condition} {args : List Value}
    {r : List String × List Value}, compileAll cs args = .ok r → ∀ f ∈ r.1, f ≠ ""
  | [], args, r, h, f, hf => by
    rw [compileAll] at h
    cases h
    cases hf
  | c :: cs, args, r, h, f, hf => by
    rw [compileAll] at h
    obtain ⟨q, -, h⟩ := exists_of_bind_eq_ok h
    obtain ⟨rest, hrest, h⟩ := exists_of_bind_eq_ok h
    cases h
    dsimp only at hf
    split at hf
    · exact ne_empty_of_compileAll hrest f hf
    · next hne =>
      rcases List.mem_cons.mp hf with rfl | hf
      · exact fun he => hne (String.isEmpty_iff.mpr he)
      · exact ne_empty_of_compileAll hrest f hf

mutual

/-- A condition of predicates that says nothing binds nothing. -/
theorem args_of_text : ∀ {c : Condition} {prior : List Value} {q : Sql}, c.isBuiltIn = true →
    c.compile prior = .ok q → q.text = "" → q.args = prior
  | .leaf p, prior, q, _, h, ht => by
    rw [compile] at h
    obtain ⟨r, hr, hq⟩ := exists_of_bind_eq_ok h
    cases hq
    rw [Predicate.args_of_text hr ht, List.append_nil]
  | .group logic children, prior, q, hb, h, ht => by
    rw [isBuiltIn] at hb
    rw [compile] at h
    obtain ⟨⟨fragments, args⟩, hr, hq⟩ := exists_of_bind_eq_ok h
    cases hq
    have hnil := (logic.join_eq_empty_iff (ne_empty_of_compileAll hr)).mp ht
    exact args_of_fragments hb hr hnil

theorem args_of_fragments : ∀ {cs : List Condition} {prior : List Value}
    {r : List String × List Value}, allBuiltIn cs = true → compileAll cs prior = .ok r →
    r.1 = [] → r.2 = prior
  | [], prior, r, _, h, _ => by
    rw [compileAll] at h
    cases h
    rfl
  | c :: cs, prior, r, hb, h, hnil => by
    simp only [allBuiltIn, Bool.and_eq_true] at hb
    rw [compileAll] at h
    obtain ⟨q, hq, h⟩ := exists_of_bind_eq_ok h
    obtain ⟨rest, hrest, h⟩ := exists_of_bind_eq_ok h
    cases h
    dsimp only at hnil ⊢
    split at hnil
    · next hempty =>
      rw [args_of_fragments hb.2 hrest hnil, args_of_text hb.1 hq (String.isEmpty_iff.mp hempty)]
    · cases hnil

end

end Condition

/-- Compiling a group puts its arguments behind those that were collected before: it fails as it does
without them, and otherwise has the same text. Its arguments are those of its tips from left to right,
and a group of predicates that says nothing has none. -/
theorem Matcher.compile_collects (m : Matcher) (h : Condition.AllAppend m.toCondition.tips)
    (prior : List Value) :
    m.compile prior = (m.compile []).map (Sql.behind prior) ∧
      (m.compile []).map Sql.args = Condition.collected m.toCondition.tips ∧
      (m.toCondition.isBuiltIn = true → ∀ q, m.compile prior = .ok q → q.text = "" →
        q.args = prior) := by
  refine ⟨Condition.compile_behind h prior, Condition.args_compile h, ?_⟩
  intro hb q hq ht
  exact Condition.args_of_text hb hq ht

/-- A condition of the caller's own that has no text and yet binds a value, deep in a group of
alternatives: the value stands between those of its neighbours. -/
theorem Matcher.compile_collects_hollow :
    let hollow : List Value → Except Failure Sql := fun prior => .ok ⟨"", prior ++ [.int 2]⟩
    let m : Matcher :=
      ⟨.or, [.leaf (.compare .eq "a" (.int 1)),
        .group .and [.custom hollow, .leaf (.like "b" "" 0)], .leaf (.among "c" [.int 3] true)]⟩
    Condition.AllAppend m.toCondition.tips ∧
      m.compile [.text "x"] =
        .ok ⟨"(a = ? or c not in (?))", [.text "x", .int 1, .int 2, .int 3]⟩ := by
  intro hollow m
  have happends : Condition.AllAppend m.toCondition.tips := by
    intro f hf
    have htips : m.toCondition.tips = [.leaf (.compare .eq "a" (.int 1)), .custom hollow,
      .leaf (.like "b" "" 0), .leaf (.among "c" [.int 3] true)] := rfl
    rw [htips] at hf
    obtain rfl : f = hollow := by simpa using hf
    exact ⟨.ok ⟨"", [.int 2]⟩, fun prior => rfl⟩
  obtain ⟨hbehind, -⟩ := Matcher.compile_collects m happends [.text "x"]
  refine ⟨happends, hbehind.trans ?_⟩
  rfl

end TableAccess
