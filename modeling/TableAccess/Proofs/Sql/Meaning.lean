import TableAccess.Proofs.Sql.Phrases

/-!
What a compiled condition means.

Reading the text of a condition gives a boolean expression over its predicates in the order of the
tree, and for every truth assignment the expression has the value of the tree. The expression need
not have the tree's shape: groups that must hold are written without parentheses, and so are
alternatives of which only one says something. What reading relies on is that no condition is
written with an `or` outside parentheses, so that reading a condition only ever adds to the factors
before it.
-/

namespace TableAccess

open Written Reading

/-! ### The value of a tree -/

namespace Condition

/-- Whether a condition compiles to no text. -/
def isSilent (c : Condition) : Bool :=
  match c.compile [] with
  | .ok q => q.text.isEmpty
  | .error _ => false

/-- What the predicates of a condition say, from left to right. -/
def atoms (c : Condition) : List Atom := c.leaves.filterMap Predicate.atom?

mutual

/-- The value of a condition, given the values of its predicates by their numbers, of which the
first is `n`. Children that say nothing count for nothing. -/
def value (truth : Nat → Bool) : Condition → Nat → Bool
  | leaf _, n => truth n
  | group .and children, n => allHold truth children n
  | group .or children, n => anyHolds truth children n
  | custom _, _ => false

def allHold (truth : Nat → Bool) : List Condition → Nat → Bool
  | [], _ => true
  | c :: cs, n => (c.isSilent || c.value truth n) && allHold truth cs (n + c.atoms.length)

def anyHolds (truth : Nat → Bool) : List Condition → Nat → Bool
  | [], _ => false
  | c :: cs, n => (!c.isSilent && c.value truth n) || anyHolds truth cs (n + c.atoms.length)

end

end Condition

/-! ### The items of a tree -/

def Logic.item : Logic → Item
  | and => .and
  | or => .or

/-- The items of a group, from those of its children. -/
def Logic.items (logic : Logic) (pieces : List (List Item)) : List Item :=
  if logic = .or ∧ 1 < pieces.length then
    .opening :: ([logic.item].intercalate pieces ++ [.closing])
  else [logic.item].intercalate pieces

namespace Condition

mutual

/-- The items that a condition is read as. -/
def items : Condition → Nat → List Item
  | leaf p, n => (p.atom?.map fun a => .atom a n).toList
  | group logic children, n => logic.items (itemsAll children n)
  | custom _, _ => []

/-- The items of the children that say something. -/
def itemsAll : List Condition → Nat → List (List Item)
  | [], _ => []
  | c :: cs, n =>
    if c.written = [] then itemsAll cs n else c.items n :: itemsAll cs (n + c.atoms.length)

end

/-- A condition whose predicates can be told from the words around them. -/
def Legible (c : Condition) : Prop := c.isPlain = true ∧ ∀ p ∈ c.leaves, p.Legible

/-- The children that say something are the ones that are written. -/
theorem length_itemsAll (cs : List Condition) (n : Nat) :
    (itemsAll cs n).length = (writtenAll cs).length := by
  induction cs generalizing n with
  | nil =>
    rw [itemsAll, writtenAll]
    rfl
  | cons c cs ih =>
    rw [itemsAll, writtenAll]
    split
    · exact ih n
    · rw [List.length_cons, List.length_cons, ih]

mutual

theorem leaves_of_isPlain : ∀ {c : Condition}, c.isPlain = true →
    c.isBuiltIn = true ∧ ∀ p ∈ c.leaves, p.column?.any Ident.isPlain = true
  | .leaf p, h => by
    rw [isPlain] at h
    rw [isBuiltIn, leaves]
    refine ⟨rfl, fun p hp => ?_⟩
    rw [List.mem_singleton.mp hp]
    exact h
  | .group _ children, h => by
    rw [isPlain] at h
    rw [isBuiltIn, leaves]
    exact leavesAll_of_allPlain h

theorem leavesAll_of_allPlain : ∀ {cs : List Condition}, allPlain cs = true →
    allBuiltIn cs = true ∧ ∀ p ∈ leavesAll cs, p.column?.any Ident.isPlain = true
  | [], _ => by
    rw [allBuiltIn, leavesAll]
    exact ⟨rfl, fun p hp => absurd hp List.not_mem_nil⟩
  | c :: cs, h => by
    simp only [allPlain, Bool.and_eq_true] at h
    obtain ⟨hc, hleaves⟩ := leaves_of_isPlain h.1
    obtain ⟨hcs, hrest⟩ := leavesAll_of_allPlain h.2
    rw [allBuiltIn, leavesAll, hc, hcs]
    refine ⟨rfl, fun p hp => ?_⟩
    rcases List.mem_append.mp hp with hp | hp
    · exact hleaves p hp
    · exact hrest p hp

end

variable {c : Condition} {cs : List Condition}

theorem legible_group {logic : Logic} (h : (group logic (c :: cs)).Legible) :
    c.Legible ∧ (group logic cs).Legible := by
  obtain ⟨hplain, hleaves⟩ := h
  simp only [isPlain, allPlain, Bool.and_eq_true] at hplain
  simp only [leaves, leavesAll] at hleaves
  refine ⟨⟨hplain.1, fun p hp => hleaves p (List.mem_append_left _ hp)⟩, ?_, ?_⟩
  · rw [isPlain]
    exact hplain.2
  · intro p hp
    rw [leaves] at hp
    exact hleaves p (List.mem_append_right _ hp)

/-- A condition compiles to no text if nothing is written, and then none of its predicates says
anything. -/
theorem Legible.isSilent_iff (h : c.Legible) :
    (c.isSilent = true ↔ c.written = []) ∧ (c.written = [] → c.atoms = []) := by
  obtain ⟨hplain, hleaves⟩ := h
  have hlists : c.leaves.findSome? Predicate.emptyAmong? = none := by
    rw [List.findSome?_eq_none_iff]
    exact fun p hp => (hleaves p hp).list
  obtain ⟨q, hq, hvoid⟩ := exists_compile [] (leaves_of_isPlain hplain).1 hlists
  obtain rfl := compile_eq hplain hq
  have hwritten : c.written.sql.text = "" ↔ c.written = [] :=
    String.isEmpty_iff.symm.trans isEmpty_sql
  refine ⟨?_, fun hnil => ?_⟩
  · rw [isSilent, hq]
    exact isEmpty_sql
  · have hall := hvoid.mp (hwritten.mpr hnil)
    rw [List.all_eq_true] at hall
    rw [atoms, List.filterMap_eq_nil_iff]
    exact fun p hp => Predicate.atom?_of_isVoid (hall p hp)

/-! ### From text to items -/

theorem intercalate_cons_cons {α : Type} (sep p q : List α) (rest : List (List α)) :
    sep.intercalate (p :: q :: rest) = p ++ sep ++ sep.intercalate (q :: rest) := by
  simp [List.intercalate]

theorem apart_separator (logic : Logic) (w : Written) : Apart (plain logic.separator ++ w) := by
  cases logic <;> exact apart_plain (by decide) w

/-- The word between the children is read as its item. -/
theorem items?_separator (logic : Logic) (n : Nat) (w : Written) :
    items? n (lex (plain logic.separator ++ w)) = (items? n (lex w)).map (logic.item :: ·) := by
  cases logic with
  | and =>
    have hword : lex (plain " and ") = [.keyword .and] := by decide
    rw [Logic.separator, lex_plain_append (by decide), hword, List.singleton_append, items?]
    rfl
  | or =>
    have hword : lex (plain " or ") = [.keyword .or] := by decide
    rw [Logic.separator, lex_plain_append (by decide), hword, List.singleton_append, items?]
    rfl

theorem items?_opening (n : Nat) (w : Written) :
    items? n (lex (plain "(" ++ w)) = (items? n (lex w)).map (.opening :: ·) := by
  have hmark : lex (plain "(") = [.opening] := by decide
  rw [lex_plain_append (by decide), hmark, List.singleton_append, items?]

theorem items?_closing (n : Nat) (w : Written) :
    items? n (lex (plain ")" ++ w)) = (items? n (lex w)).map (.closing :: ·) := by
  have hmark : lex (plain ")") = [.closing] := by decide
  rw [lex_plain_append (by decide), hmark, List.singleton_append, items?]

mutual

/-- What is written of a condition is read as its items. -/
theorem items?_written : ∀ {c : Condition} (n : Nat) {w : Written}, c.Legible → Apart w →
    items? n (lex (c.written ++ w)) =
      (items? (n + c.atoms.length) (lex w)).map (c.items n ++ ·)
  | .leaf p, n, w, h, hw => by
    have hp : p.Legible := h.2 p (by rw [leaves]; exact List.mem_singleton_self p)
    rw [written, items, atoms, leaves]
    cases ha : p.atom? with
    | none =>
      rw [hp.written_eq_nil ha, List.filterMap_cons_none ha, List.filterMap_nil]
      simp
    | some a =>
      obtain ⟨column, ls, hls, hatom⟩ := hp.atom?_written ha hw
      rw [hls, items?_atom hatom, List.filterMap_cons_some ha, List.filterMap_nil]
      rfl
  | .group logic children, n, w, h, hw => by
    rw [written, items, Logic.written, Logic.items, length_itemsAll, atoms, leaves]
    split
    · rw [List.append_assoc, List.append_assoc, items?_opening,
        items?_joined n h (apart_plain (by decide) w), items?_closing]
      simp only [Option.map_map, Function.comp_def, List.cons_append, List.append_assoc,
        List.nil_append]
    · exact items?_joined n h hw
  | .custom _, n, w, h, _ => by
    cases h.1

theorem items?_joined : ∀ {logic : Logic} {cs : List Condition} (n : Nat) {w : Written},
    (group logic cs).Legible → Apart w →
    items? n (lex (joined logic.separator (writtenAll cs) ++ w)) =
      (items? (n + ((leavesAll cs).filterMap Predicate.atom?).length) (lex w)).map
        ([logic.item].intercalate (itemsAll cs n) ++ ·)
  | logic, [], n, w, _, _ => by
    rw [writtenAll, itemsAll, leavesAll]
    simp [joined]
  | logic, c :: cs, n, w, h, hw => by
    obtain ⟨hc, hcs⟩ := legible_group h
    rw [writtenAll, itemsAll, leavesAll, List.filterMap_append, ← atoms, List.length_append,
      ← Nat.add_assoc]
    split
    case isTrue hnil =>
      rw [hc.isSilent_iff.2 hnil]
      exact items?_joined n hcs hw
    case isFalse =>
      have hrest := items?_joined (n + c.atoms.length) hcs hw
      have hlength := length_itemsAll cs (n + c.atoms.length)
      cases hpieces : writtenAll cs with
      | nil =>
        rw [hpieces] at hrest hlength
        have hnone := List.length_eq_zero_iff.mp hlength
        rw [hnone] at hrest ⊢
        have hnext : items? (n + c.atoms.length) (lex w) =
            items? (n + c.atoms.length + ((leavesAll cs).filterMap Predicate.atom?).length)
              (lex w) := by
          simpa [joined] using hrest
        rw [joined_singleton, items?_written n hc hw, hnext]
        simp [List.intercalate]
      | cons p ps =>
        rw [hpieces] at hrest hlength
        obtain ⟨i, is, hitems⟩ := List.exists_cons_of_length_eq_add_one hlength
        rw [hitems] at hrest ⊢
        rw [joined_cons_cons, List.append_assoc, List.append_assoc,
          items?_written n hc (apart_separator logic _), items?_separator, hrest,
          intercalate_cons_cons]
        simp only [Option.map_map, Function.comp_def, List.append_assoc, List.nil_append,
          List.cons_append]

end

/-! ### From items to an expression -/

/-- An expression that adds predicates to the factors before it, as a conjunction. -/
structure Conjoined (before : Option Formula) (atoms : List (Atom × Nat))
    (value : (Nat → Bool) → Bool) (f : Formula) : Prop where
  atoms_eq : f.atoms = before.elim [] Formula.atoms ++ atoms
  value_eq : ∀ truth, f.value truth = (before.elim true (Formula.value truth) && value truth)

/-- An expression that adds predicates to the alternatives before it, as a disjunction. -/
structure Disjoined (before : Option Formula) (atoms : List (Atom × Nat))
    (value : (Nat → Bool) → Bool) (f : Formula) : Prop where
  atoms_eq : f.atoms = before.elim [] Formula.atoms ++ atoms
  value_eq : ∀ truth, f.value truth = (before.elim false (Formula.value truth) || value truth)

section

variable {before : Option Formula} {as bs : List (Atom × Nat)} {v u : (Nat → Bool) → Bool}
  {f g : Formula}

theorem Conjoined.of_eq (h : Conjoined before as v f) (ha : as = bs)
    (hv : ∀ truth, v truth = u truth) : Conjoined before bs u f :=
  ⟨ha ▸ h.atoms_eq, fun truth => (h.value_eq truth).trans (by rw [hv])⟩

theorem Conjoined.trans (hf : Conjoined before as v f) (hg : Conjoined (some f) bs u g) :
    Conjoined before (as ++ bs) (fun truth => v truth && u truth) g := by
  refine ⟨?_, fun truth => ?_⟩
  · rw [hg.atoms_eq, Option.elim_some, hf.atoms_eq, List.append_assoc]
  · rw [hg.value_eq, Option.elim_some, hf.value_eq, Bool.and_assoc]

theorem Disjoined.of_eq (h : Disjoined before as v f) (ha : as = bs)
    (hv : ∀ truth, v truth = u truth) : Disjoined before bs u f :=
  ⟨ha ▸ h.atoms_eq, fun truth => (h.value_eq truth).trans (by rw [hv])⟩

theorem Disjoined.trans (hf : Disjoined before as v f) (hg : Disjoined (some f) bs u g) :
    Disjoined before (as ++ bs) (fun truth => v truth || u truth) g := by
  refine ⟨?_, fun truth => ?_⟩
  · rw [hg.atoms_eq, Option.elim_some, hf.atoms_eq, List.append_assoc]
  · rw [hg.value_eq, Option.elim_some, hf.value_eq, Bool.or_assoc]

end

/-- One more factor. -/
theorem conjoined_factor {level : Level} (hn : level.negated = false) (f : Formula) :
    Conjoined level.factors f.atoms (fun truth => f.value truth) (level.factor f) := by
  obtain ⟨alternatives, factors, negated⟩ := level
  cases hn
  cases factors with
  | none => exact ⟨rfl, fun _ => rfl⟩
  | some g => exact ⟨rfl, fun _ => rfl⟩

/-- One more alternative. -/
theorem disjoined_either (before : Option Formula) (f : Formula) :
    Disjoined before f.atoms (fun truth => f.value truth) (either before f) := by
  cases before with
  | none => exact ⟨rfl, fun _ => rfl⟩
  | some g => exact ⟨rfl, fun _ => rfl⟩

/-- Of children that say nothing, all hold and none does. -/
theorem silent_of_itemsAll {cs : List Condition} {n : Nat} {logic : Logic}
    (h : (group logic cs).Legible) (hnil : itemsAll cs n = []) :
    (leavesAll cs).filterMap Predicate.atom? = [] ∧
      ∀ truth k, allHold truth cs k = true ∧ anyHolds truth cs k = false := by
  induction cs generalizing n with
  | nil =>
    refine ⟨by rw [leavesAll, List.filterMap_nil], fun truth k => ?_⟩
    rw [allHold, anyHolds]
    exact ⟨rfl, rfl⟩
  | cons c cs ih =>
    obtain ⟨hc, hcs⟩ := legible_group h
    rw [itemsAll] at hnil
    split at hnil
    case isTrue hw =>
      obtain ⟨hatoms, hvalue⟩ := ih hcs hnil
      have hatom : c.leaves.filterMap Predicate.atom? = [] := hc.isSilent_iff.2 hw
      refine ⟨by rw [leavesAll, List.filterMap_append, hatoms, hatom, List.append_nil], ?_⟩
      intro truth k
      obtain ⟨hall, hany⟩ := hvalue truth (k + c.atoms.length)
      rw [allHold, anyHolds, hc.isSilent_iff.1.mpr hw, hall, hany]
      exact ⟨rfl, rfl⟩
    case isFalse => cases hnil

/-- Of children of which one says something, all hold if any does. -/
theorem allHold_eq_anyHolds {cs : List Condition} {n : Nat} {logic : Logic}
    (h : (group logic cs).Legible) (hlength : (itemsAll cs n).length = 1) (truth : Nat → Bool) :
    allHold truth cs n = anyHolds truth cs n := by
  induction cs generalizing n with
  | nil =>
    rw [itemsAll] at hlength
    cases hlength
  | cons c cs ih =>
    obtain ⟨hc, hcs⟩ := legible_group h
    rw [itemsAll] at hlength
    rw [allHold, anyHolds]
    split at hlength
    case isTrue hw =>
      rw [hc.isSilent_iff.1.mpr hw, hc.isSilent_iff.2 hw, Bool.true_or, Bool.true_and,
        Bool.not_true, Bool.false_and, Bool.false_or]
      exact ih hcs hlength
    case isFalse hw =>
      have hnil : itemsAll cs (n + c.atoms.length) = [] :=
        List.length_eq_zero_iff.mp (Nat.succ.inj hlength)
      obtain ⟨hall, hany⟩ := (silent_of_itemsAll hcs hnil).2 truth (n + c.atoms.length)
      rw [Bool.eq_false_iff.mpr (mt hc.isSilent_iff.1.mp hw), hall, hany, Bool.false_or,
        Bool.and_true, Bool.not_false, Bool.true_and, Bool.or_false]

theorem itemsAll_ne_nil {logic : Logic} {cs : List Condition} (n : Nat)
    (h : (group logic cs).written ≠ []) : itemsAll cs n ≠ [] := by
  intro hnil
  have hwritten : writtenAll cs = [] := by
    rw [← List.length_eq_zero_iff, ← length_itemsAll cs n, hnil]
    rfl
  rw [written, hwritten] at h
  cases logic <;> exact h rfl

mutual

/-- Reading a condition that says something adds it to the factors before it. -/
theorem readFactor_items : ∀ {c : Condition} (n : Nat), c.Legible → c.written ≠ [] →
    ∀ (level : Level) (outer : List Level) (rest : List Item), level.negated = false →
    ∃ f, readFactor level outer (c.items n ++ rest) =
        readOperator level.alternatives f outer rest ∧
      Conjoined level.factors (c.atoms.zipIdx n) (fun truth => c.value truth n) f
  | .leaf p, n, h, hw, level, outer, rest, hn => by
    have hp : p.Legible := h.2 p (by rw [leaves]; exact List.mem_singleton_self p)
    rw [written] at hw
    rw [items, atoms, leaves]
    cases ha : p.atom? with
    | none => exact absurd (hp.written_eq_nil ha) hw
    | some a =>
      refine ⟨level.factor (.atom a n), rfl, ?_⟩
      rw [List.filterMap_cons_some ha, List.filterMap_nil]
      exact conjoined_factor hn (.atom a n)
  | .group .and children, n, h, hw, level, outer, rest, hn => by
    obtain ⟨f, hread, hf⟩ := readFactor_all n h (itemsAll_ne_nil n hw) level outer rest hn
    refine ⟨f, ?_, ?_⟩
    · rw [items, Logic.items, if_neg (fun hor => nomatch hor.1)]
      exact hread
    · rw [atoms, leaves]
      exact hf.of_eq rfl fun truth => by rw [value]
  | .group .or children, n, h, hw, level, outer, rest, hn => by
    have hne := itemsAll_ne_nil n hw
    rw [items, Logic.items, atoms, leaves]
    by_cases hlength : 1 < (itemsAll children n).length
    · obtain ⟨alternatives, f, hread, hf⟩ :=
        readFactor_any n h hne none (level :: outer) (.closing :: rest)
      have hadded := conjoined_factor hn (either alternatives f)
      refine ⟨level.factor (either alternatives f), ?_, hadded.of_eq ?_ fun truth => ?_⟩
      · rw [if_pos ⟨rfl, hlength⟩, List.cons_append, List.append_assoc, readFactor]
        exact hread
      · exact hf.atoms_eq
      · rw [hf.value_eq, value]
        rfl
    · obtain ⟨piece, hpiece⟩ : ∃ piece, itemsAll children n = [piece] := by
        refine List.length_eq_one_iff.mp ?_
        have := List.length_pos_iff.mpr hne
        omega
      obtain ⟨f, hread, hf⟩ := readFactor_all n h hne level outer rest hn
      refine ⟨f, ?_, hf.of_eq rfl fun truth => ?_⟩
      · rw [if_neg (fun hor => hlength hor.2)]
        rw [hpiece] at hread ⊢
        exact hread
      · rw [value, allHold_eq_anyHolds h (by rw [hpiece]; rfl)]
  | .custom _, n, h, _, _, _, _, _ => by
    cases h.1

theorem readFactor_all : ∀ {cs : List Condition} (n : Nat) {logic : Logic},
    (group logic cs).Legible → itemsAll cs n ≠ [] →
    ∀ (level : Level) (outer : List Level) (rest : List Item), level.negated = false →
    ∃ f, readFactor level outer ([.and].intercalate (itemsAll cs n) ++ rest) =
        readOperator level.alternatives f outer rest ∧
      Conjoined level.factors (((leavesAll cs).filterMap Predicate.atom?).zipIdx n)
        (fun truth => allHold truth cs n) f
  | [], n, _, _, hne, _, _, _, _ => absurd (by rw [itemsAll]) hne
  | c :: cs, n, logic, h, hne, level, outer, rest, hn => by
    obtain ⟨hc, hcs⟩ := legible_group h
    rw [itemsAll] at hne ⊢
    rw [leavesAll, List.filterMap_append, ← atoms, List.zipIdx_append]
    split at hne
    case isTrue hw =>
      obtain ⟨f, hread, hf⟩ := readFactor_all n hcs hne level outer rest hn
      rw [if_pos hw]
      refine ⟨f, hread, hf.of_eq ?_ fun truth => ?_⟩
      · rw [hc.isSilent_iff.2 hw]
        rfl
      · rw [allHold, hc.isSilent_iff.1.mpr hw, hc.isSilent_iff.2 hw]
        rfl
    case isFalse hw =>
      have hloud : c.isSilent = false := Bool.eq_false_iff.mpr (mt hc.isSilent_iff.1.mp hw)
      rw [if_neg hw]
      cases hitems : itemsAll cs (n + c.atoms.length) with
      | nil =>
        obtain ⟨f, hread, hf⟩ := readFactor_items n hc hw level outer rest hn
        obtain ⟨hatoms, hvalue⟩ := silent_of_itemsAll hcs hitems
        refine ⟨f, ?_, hf.of_eq ?_ fun truth => ?_⟩
        · simpa [List.intercalate] using hread
        · rw [hatoms, List.zipIdx_nil, List.append_nil]
        · rw [allHold, hloud, (hvalue truth _).1, Bool.false_or,
            Bool.and_true]
      | cons i is =>
        have hne' : itemsAll cs (n + c.atoms.length) ≠ [] := by
          rw [hitems]
          exact List.cons_ne_nil i is
        obtain ⟨f, hread, hf⟩ := readFactor_items n hc hw level outer
          (.and :: ([.and].intercalate (i :: is) ++ rest)) hn
        obtain ⟨g, hread', hg⟩ := readFactor_all (n + c.atoms.length) hcs hne'
          ⟨level.alternatives, some f, false⟩ outer rest rfl
        refine ⟨g, ?_, (hf.trans hg).of_eq rfl fun truth => ?_⟩
        · rw [hitems] at hread'
          rw [intercalate_cons_cons, List.append_assoc, List.append_assoc]
          exact (hread.trans (by rw [readOperator])).trans hread'
        · rw [allHold, hloud, Bool.false_or]

theorem readFactor_any : ∀ {cs : List Condition} (n : Nat) {logic : Logic},
    (group logic cs).Legible → itemsAll cs n ≠ [] →
    ∀ (before : Option Formula) (outer : List Level) (rest : List Item),
    ∃ alternatives f, readFactor ⟨before, none, false⟩ outer
          ([.or].intercalate (itemsAll cs n) ++ rest) =
        readOperator alternatives f outer rest ∧
      Disjoined before (((leavesAll cs).filterMap Predicate.atom?).zipIdx n)
        (fun truth => anyHolds truth cs n) (either alternatives f)
  | [], n, _, _, hne, _, _, _ => absurd (by rw [itemsAll]) hne
  | c :: cs, n, logic, h, hne, before, outer, rest => by
    obtain ⟨hc, hcs⟩ := legible_group h
    rw [itemsAll] at hne ⊢
    rw [leavesAll, List.filterMap_append, ← atoms, List.zipIdx_append]
    split at hne
    case isTrue hw =>
      obtain ⟨alternatives, f, hread, hf⟩ := readFactor_any n hcs hne before outer rest
      rw [if_pos hw]
      refine ⟨alternatives, f, hread, hf.of_eq ?_ fun truth => ?_⟩
      · rw [hc.isSilent_iff.2 hw]
        rfl
      · rw [anyHolds, hc.isSilent_iff.1.mpr hw, hc.isSilent_iff.2 hw]
        rfl
    case isFalse hw =>
      have hloud : c.isSilent = false := Bool.eq_false_iff.mpr (mt hc.isSilent_iff.1.mp hw)
      rw [if_neg hw]
      -- the child is an alternative of its own, as no factor stands before it
      have halternative {f : Formula}
          (hf : Conjoined none (c.atoms.zipIdx n) (fun truth => c.value truth n) f) :
          Disjoined before (c.atoms.zipIdx n) (fun truth => c.value truth n) (either before f) :=
        (disjoined_either before f).of_eq hf.atoms_eq hf.value_eq
      cases hitems : itemsAll cs (n + c.atoms.length) with
      | nil =>
        obtain ⟨f, hread, hf⟩ := readFactor_items n hc hw ⟨before, none, false⟩ outer rest rfl
        obtain ⟨hatoms, hvalue⟩ := silent_of_itemsAll hcs hitems
        refine ⟨before, f, ?_, (halternative hf).of_eq ?_ fun truth => ?_⟩
        · simpa [List.intercalate] using hread
        · rw [hatoms, List.zipIdx_nil, List.append_nil]
        · rw [anyHolds, hloud, (hvalue truth _).2, Bool.or_false,
            Bool.not_false, Bool.true_and]
      | cons i is =>
        have hne' : itemsAll cs (n + c.atoms.length) ≠ [] := by
          rw [hitems]
          exact List.cons_ne_nil i is
        obtain ⟨f, hread, hf⟩ := readFactor_items n hc hw ⟨before, none, false⟩ outer
          (.or :: ([.or].intercalate (i :: is) ++ rest)) rfl
        obtain ⟨alternatives, g, hread', hg⟩ :=
          readFactor_any (n + c.atoms.length) hcs hne' (some (either before f)) outer rest
        refine ⟨alternatives, g, ?_, ((halternative hf).trans hg).of_eq rfl fun truth => ?_⟩
        · rw [hitems] at hread'
          rw [intercalate_cons_cons, List.append_assoc, List.append_assoc]
          exact (hread.trans (by rw [readOperator])).trans hread'
        · rw [anyHolds, hloud, Bool.not_false, Bool.true_and]

end

/-- A condition that compiles is legible, if its columns are plain identifiers and no keywords. -/
theorem legible_of_compile {c : Condition} {before : List Value} {q : Sql}
    (hplain : c.isPlain = true)
    (hword : ∀ p ∈ c.leaves, ∀ column ∈ p.column?, keyword? column = none)
    (h : c.compile before = .ok q) : c.Legible := by
  obtain ⟨hbuilt, hcolumns⟩ := leaves_of_isPlain hplain
  refine ⟨hplain, fun p hp => ⟨?_, ?_⟩⟩
  · obtain ⟨column, hcolumn, hname⟩ := (Option.any_eq_true ..).mp (hcolumns p hp)
    exact ⟨column, hcolumn, hname, hword p hp column hcolumn⟩
  · cases hlists : c.leaves.findSome? Predicate.emptyAmong? with
    | none => exact List.findSome?_eq_none_iff.mp hlists p hp
    | some column =>
      rw [compile_error before hbuilt hlists] at h
      cases h

end Condition

/-- The text of a compiled condition, read with its own arguments, means what the tree says: it is
an expression over what the predicates say, in the order of the tree, and whatever their values are
it has the value of the tree. -/
theorem Matcher.compile_meaning {m : Matcher} {before : List Value} {q : Sql}
    (hplain : m.toCondition.isPlain = true)
    (hword : ∀ p ∈ m.toCondition.leaves, ∀ column ∈ p.column?, keyword? column = none)
    (h : m.compile before = .ok q) (htext : q.text ≠ "") :
    ∃ own e, q.args = before ++ own ∧ read? ⟨q.text, own⟩ = some e ∧
      e.atoms = m.toCondition.atoms.zipIdx ∧
      ∀ truth, e.value truth = m.toCondition.value truth 0 := by
  have hlegible := Condition.legible_of_compile hplain hword h
  obtain rfl := Condition.compile_eq hplain h
  have hwritten : m.toCondition.written ≠ [] := by
    intro hnil
    rw [hnil] at htext
    exact htext rfl
  have hinline : m.toCondition.written.sql.inline = m.toCondition.written :=
    inline_sql (Condition.mild_written hplain).quiet
  have hitems := Condition.items?_written 0 hlegible (show Apart [] from trivial)
  obtain ⟨e, hread, he⟩ :=
    Condition.readFactor_items 0 hlegible hwritten {} [] [] rfl
  refine ⟨m.toCondition.written.values, e, rfl, ?_, he.atoms_eq, he.value_eq⟩
  change (items? 0 (lex m.toCondition.written.sql.inline)).bind (readFactor {} []) = some e
  rw [List.append_nil] at hitems
  rw [hinline, hitems, show lex [] = [] from rfl, items?, Option.map_some, Option.bind_some, hread]
  rfl

/-- Alternatives inside a group that must hold, next to a range and to children that say nothing. -/
theorem Matcher.compile_meaning_nested :
    ∃ own e, [Value.int 9, .int 1, .int 2, .int 3, .int 4] = [Value.int 9] ++ own ∧
      read? ⟨"a = ? and b between ? and ? and (c is null or t.d != ?)", own⟩ = some e ∧
      e.atoms = [(.compare .eq "a" (.int 1), 0), (.between "b" (.int 2) (.int 3), 1),
        (.null "c" false, 2), (.compare .ne "t.d" (.int 4), 3)] ∧
      ∀ truth, e.value truth = (truth 0 && (truth 1 && (truth 2 || truth 3))) := by
  let m : Matcher := ⟨.and, [.leaf (.compare .eq "a" (.int 1)),
    .leaf (.between "b" (some (.int 2)) (some (.int 3))), .group .or [.leaf (.like "e" "" 0)],
    .group .or [.leaf (.null "c" false), .group .and [], .leaf (.compare .ne "t.d" (.int 4))]]⟩
  have hcompile : m.compile [.int 9] =
      .ok ⟨"a = ? and b between ? and ? and (c is null or t.d != ?)",
        [.int 9, .int 1, .int 2, .int 3, .int 4]⟩ := by
    rfl
  obtain ⟨own, e, hown, hread, hatoms, hvalue⟩ :=
    Matcher.compile_meaning (m := m) (by decide) (by decide) hcompile (by decide)
  refine ⟨own, e, hown, hread, hatoms.trans (by decide), fun truth => (hvalue truth).trans ?_⟩
  have htree : m.toCondition.value truth 0 =
      (truth 0 && (truth 1 && ((truth 2 || (truth 3 || false)) && true))) := by
    rfl
  rw [htree, Bool.or_false, Bool.and_true]

end TableAccess
