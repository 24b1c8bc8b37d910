import TableAccess.Proofs.Work.Custody
import TableAccess.Work.Session

/-!
Connections over whole sessions.

A session is sound in a world if its slots are in order, each of its contexts is open with its
connection or finished without one, and the connections that are held are those of the open contexts.
Every step keeps that, so it is so between any two steps of any session. What it says about the trace
is read off the ledger: pools balance, connections are given up once, nothing is asked of them after
that, and a transaction may be open on a connection that is closed only if its rollback has failed.
-/

namespace TableAccess

variable {σ ρ β : Type}

namespace Session

/-! ### Slots -/

section Slots

variable {slot : Nat} {tc : Context σ} {slots : List (Nat × Context σ)} {s : Session σ}

/-- The slots are in ascending order. -/
def Ordered (slots : List (Nat × Context σ)) : Prop := slots.Pairwise fun x y => x.1 < y.1

theorem get?_putInto (slots : List (Nat × Context σ)) (n : Nat) :
    (⟨putInto slot tc slots⟩ : Session σ).get? n =
      if n = slot then some tc else (⟨slots⟩ : Session σ).get? n := by
  induction slots with
  | nil =>
    by_cases h : n = slot
    · simp [putInto, get?, h]
    · simp [putInto, get?, h, Ne.symm h]
  | cons x rest ih =>
    obtain ⟨m, other⟩ := x
    simp only [get?] at ih ⊢
    unfold putInto
    split
    · by_cases h : n = slot
      · simp [h]
      · simp [h, Ne.symm h]
    · split
      · next hm =>
        subst hm
        by_cases h : n = m
        · simp [h]
        · simp [h, Ne.symm h]
      · next hm =>
        by_cases h : m = n
        · subst h
          simp [hm]
        · simpa [List.find?_cons, h] using ih

/-- A slot that a context is put into has that context, and the others have theirs. -/
theorem get?_put (s : Session σ) (slot : Nat) (tc : Context σ) (n : Nat) :
    (s.put slot tc).get? n = if n = slot then some tc else s.get? n := get?_putInto s.slots n

/-- A slot that is cleared is empty, and the others have their contexts. -/
theorem get?_remove (s : Session σ) (slot n : Nat) :
    (s.remove slot).get? n = if n = slot then none else s.get? n := by
  rw [get?, remove, List.find?_filter]
  by_cases h : n = slot
  · rw [if_pos h, Option.map_eq_none_iff, List.find?_eq_none]
    rintro ⟨m, other⟩ _
    simp [h]
  · rw [if_neg h, get?]
    congr 1
    refine congrArg (List.find? · s.slots) (funext ?_)
    rintro ⟨m, other⟩
    by_cases hm : m = n
    · simp [hm, h]
    · simp [hm]

theorem mem_of_get? (h : s.get? slot = some tc) : (slot, tc) ∈ s.slots := by
  rw [get?, Option.map_eq_some_iff] at h
  obtain ⟨⟨n, other⟩, hfind, rfl⟩ := h
  have hn : n = slot := by simpa using List.find?_some hfind
  rw [← hn]
  exact List.mem_of_find?_eq_some hfind

/-- Clearing an empty slot changes nothing. -/
theorem remove_of_get?_none (h : s.get? slot = none) : s.remove slot = s := by
  rw [get?, Option.map_eq_none_iff, List.find?_eq_none] at h
  obtain ⟨slots⟩ := s
  refine congrArg Session.mk (List.filter_eq_self.mpr ?_)
  rintro ⟨n, other⟩ hmem
  simpa using h _ hmem

/-- The slots after a put are the new one and those of other numbers. -/
theorem putInto_perm : ∀ {slots : List (Nat × Context σ)}, Ordered slots →
    (putInto slot tc slots).Perm ((slot, tc) :: slots.filter fun (n, _) => n ≠ slot)
  | [], _ => .refl _
  | (m, other) :: rest, h => by
    obtain ⟨hfirst, hrest⟩ := List.pairwise_cons.mp h
    unfold putInto
    split
    · next hlt =>
      rw [List.filter_eq_self.mpr]
      rintro ⟨n, _⟩ hn
      rcases List.mem_cons.mp hn with hn | hn
      · cases hn
        simpa using Nat.ne_of_gt hlt
      · have := hfirst _ hn
        simp only [ne_eq, decide_not, Bool.not_eq_eq_eq_not, Bool.not_true, decide_eq_false_iff_not]
        omega
    · split
      · next hm =>
        subst hm
        have hkeep : rest.filter (fun (n, _) => n ≠ m) = rest := by
          rw [List.filter_eq_self]
          rintro ⟨n, _⟩ hn
          simpa using Nat.ne_of_gt (hfirst _ hn)
        rw [List.filter_cons_of_neg (by simp), hkeep]
      · next hm =>
        rw [List.filter_cons_of_pos (by simpa using hm)]
        exact ((putInto_perm hrest).cons _).trans (.swap ..)

/-- A put keeps the slots in order. -/
theorem Ordered.putInto : ∀ {slots : List (Nat × Context σ)}, Ordered slots →
    Ordered (putInto slot tc slots)
  | [], _ => List.pairwise_singleton _ _
  | (m, other) :: rest, h => by
    obtain ⟨hfirst, hrest⟩ := List.pairwise_cons.mp h
    unfold Session.putInto
    split
    · next hlt =>
      refine List.pairwise_cons.mpr ⟨?_, h⟩
      intro x hx
      rcases List.mem_cons.mp hx with rfl | hx
      · exact hlt
      · exact Nat.lt_trans hlt (hfirst x hx)
    · split
      · exact List.pairwise_cons.mpr ⟨hfirst, hrest⟩
      · next hlt hm =>
        refine List.pairwise_cons.mpr ⟨?_, Ordered.putInto hrest⟩
        intro x hx
        rcases List.mem_cons.mp ((putInto_perm hrest).mem_iff.mp hx) with rfl | hx
        · exact Nat.lt_of_le_of_ne (Nat.le_of_not_lt hlt) hm
        · exact hfirst x (List.mem_filter.mp hx).1

/-- A context that a slot has could as well be put there once more. -/
theorem putInto_self : ∀ {slots : List (Nat × Context σ)}, Ordered slots → (slot, tc) ∈ slots →
    Session.putInto slot tc slots = slots
  | (m, other) :: rest, h, hmem => by
    obtain ⟨hfirst, hrest⟩ := List.pairwise_cons.mp h
    unfold Session.putInto
    rcases List.mem_cons.mp hmem with he | hmem
    · cases he
      rw [if_neg (Nat.lt_irrefl _), if_pos rfl]
    · have hlt := hfirst _ hmem
      rw [if_neg (Nat.lt_asymm hlt), if_neg (Nat.ne_of_lt hlt), putInto_self hrest hmem]

end Slots

/-! ### Soundness -/

/-- What the contexts of a session have in hand. -/
def holdings (s : Session σ) : List (Connection × Life) := s.slots.flatMap fun x => x.2.holding

/-- The slots are in order, and each context is open or finished. -/
structure Neat (s : Session σ) : Prop where
  ordered : Ordered s.slots
  settled : ∀ x ∈ s.slots, x.2.Settled

/-- The session is neat, and what its contexts have in hand is what is held. -/
structure Sound (s : Session σ) (w : World σ) : Prop where
  neat : s.Neat
  holds : w.Holds s.holdings

section Neat

variable {s : Session σ} {slot : Nat} {tc : Context σ}

theorem Neat.settled_of_get? (h : s.Neat) (hget : s.get? slot = some tc) : tc.Settled :=
  h.settled _ (mem_of_get? hget)

theorem Neat.put (h : s.Neat) (htc : tc.Settled) : (s.put slot tc).Neat where
  ordered := Ordered.putInto h.ordered
  settled := by
    intro x hx
    rcases List.mem_cons.mp ((putInto_perm h.ordered).mem_iff.mp hx) with rfl | hx
    · exact htc
    · exact h.settled x (List.mem_filter.mp hx).1

theorem Neat.remove (h : s.Neat) : (s.remove slot).Neat where
  ordered := List.Pairwise.filter _ h.ordered
  settled x hx := h.settled x (List.mem_filter.mp hx).1

/-- After a put, the context in its slot and those of other slots have everything in hand. -/
theorem holdings_put (h : s.Neat) :
    (s.put slot tc).holdings.Perm (tc.holding ++ (s.remove slot).holdings) :=
  (putInto_perm h.ordered).flatMap_right _

/-- The context of a slot and those of other slots have everything in hand. -/
theorem holdings_of_get? (h : s.Neat) (hget : s.get? slot = some tc) :
    s.holdings.Perm (tc.holding ++ (s.remove slot).holdings) := by
  have hsame : s.put slot tc = s := congrArg Session.mk (putInto_self h.ordered (mem_of_get? hget))
  have hperm : (s.put slot tc).holdings.Perm _ := holdings_put h
  rwa [hsame] at hperm

end Neat

/-! ### Steps -/

/-- Whether a step opens a context into the slot. -/
def Opens (slot : Nat) : Step σ ρ β → Prop
  | .open n _ _ => n = slot
  | _ => False

/-- What a slot has later is the context it had, as it was or finished. -/
def Kept (slot : Nat) (s s' : Session σ) : Prop :=
  ∀ tc', s'.get? slot = some tc' → ∃ tc, s.get? slot = some tc ∧ (tc' = tc ∨ tc' = tc.invalidated)

theorem Kept.refl (slot : Nat) (s : Session σ) : Kept slot s s := fun tc h => ⟨tc, h, .inl rfl⟩

theorem Kept.trans {slot : Nat} {s s' s'' : Session σ} (h : Kept slot s s')
    (h' : Kept slot s' s'') : Kept slot s s'' := by
  intro tc'' hget
  obtain ⟨tc', hget', rfl | rfl⟩ := h' tc'' hget
  · exact h _ hget'
  · obtain ⟨tc, hget, htc⟩ := h tc' hget'
    refine ⟨tc, hget, .inr ?_⟩
    rcases htc with rfl | rfl <;> rfl

theorem kept_remove (slot n : Nat) (s : Session σ) : Kept n s (s.remove slot) := by
  intro tc' hget
  rw [get?_remove] at hget
  split at hget
  · cases hget
  · exact ⟨tc', hget, .inl rfl⟩

theorem kept_put {slot : Nat} {s : Session σ} {tc tc' : Context σ} (hget : s.get? slot = some tc)
    (h : tc' = tc ∨ tc' = tc.invalidated) (n : Nat) : Kept n s (s.put slot tc') := by
  intro other hother
  rw [get?_put] at hother
  split at hother
  · next hn =>
    cases hother
    exact ⟨tc, hn ▸ hget, h⟩
  · exact ⟨other, hother, .inl rfl⟩

open Run

variable {s : Session σ} {fr : List (Connection × Life)}

/-- Dropping the context of a slot clears the slot and gives up what the context had in hand. -/
theorem leads_dropSlot (h : s.Neat) (slot : Nat) :
    Leads (·.Holds (s.holdings ++ fr)) (s.dropSlot slot)
      (fun s' w => s' = s.remove slot ∧ w.Holds ((s.remove slot).holdings ++ fr))
      fun _ => False := by
  unfold dropSlot
  cases hget : s.get? slot with
  | none =>
    refine leads_pure fun w hw => ?_
    rw [remove_of_get?_none hget]
    exact ⟨rfl, hw⟩
  | some tc =>
    have hdrop := (Context.leads_drop tc).of_pre
      fun w (hw : w.Holds (s.holdings ++ fr)) => by
        have hledger := Ledger.perm hw ((holdings_of_get? h hget).append_right fr)
        rwa [List.append_assoc] at hledger
    exact hdrop.bind fun _ => leads_pure fun _ hw => ⟨rfl, hw⟩

/-- Opening fills a slot with an open context or leaves the session alone. -/
theorem leads_openInto (h : s.Neat) (ds : Datasource σ) (slot : Nat) (style : Style)
    (scope : Scope) :
    Leads (·.Holds s.holdings) (s.step ds (.open slot style scope : Step σ ρ β))
      (fun r w => r.2.Sound w ∧ ∀ n, slot ≠ n → Kept n s r.2) fun _ => False := by
  have hopen : Leads (·.Holds s.holdings) (ds.open style scope).ending
      (fun e w => (∀ tc, e = .ok tc → tc.Settled ∧ w.Holds (s.holdings ++ tc.holding)) ∧
        ((∀ tc, e ≠ .ok tc) → w.Holds s.holdings)) fun _ => False := by
    refine (Datasource.leads_open ds style scope).ending ?_ ?_
    · rintro tc w ⟨-, hopen, hw⟩
      refine ⟨?_, fun hne => absurd rfl (hne tc)⟩
      rintro _ ⟨⟩
      exact ⟨.inl hopen, Ledger.perm hw List.perm_append_comm⟩
    · intro e w he hw
      refine ⟨?_, fun _ => hw⟩
      rintro tc rfl
      cases he
  refine hopen.bind ?_
  intro e
  cases e with
  | error f | panic p =>
    refine leads_pure ?_
    rintro w ⟨-, hw⟩
    refine ⟨⟨h, hw ?_⟩, fun n _ => Kept.refl n s⟩
    intro tc he
    cases he
  | ok tc =>
    rintro b w ⟨hok, -⟩
    obtain ⟨htc, hw⟩ := hok tc rfl
    refine (leads_dropSlot h slot).bind (fun s' => leads_pure ?_) b w hw
    rintro w' ⟨rfl, hw'⟩
    refine ⟨⟨h.remove.put htc, ?_⟩, ?_⟩
    · have hcleared : (s.remove slot).remove slot = s.remove slot :=
        remove_of_get?_none (by rw [get?_remove, if_pos rfl])
      have hperm : ((s.remove slot).put slot tc).holdings.Perm _ := holdings_put h.remove
      rw [hcleared] at hperm
      exact Ledger.perm hw' (List.perm_append_comm.trans hperm.symm)
    · intro n hn tc' hget
      rw [get?_put, if_neg hn.symm] at hget
      exact kept_remove slot n s tc' hget

/-- An operation changes the context of its slot only. -/
theorem leads_performIn (h : s.Neat) (ds : Datasource σ) (slot : Nat) (op : Operation σ ρ) :
    Leads (·.Holds s.holdings) (s.step ds (.perform slot op : Step σ ρ β))
      (fun r w => r.2.Sound w ∧ ∀ n, Kept n s r.2) fun _ => False := by
  cases hget : s.get? slot with
  | none =>
    simp only [step, hget]
    exact leads_pure fun w hw => ⟨⟨h, hw⟩, fun n => Kept.refl n s⟩
  | some tc =>
    simp only [step, hget]
    have htc := h.settled_of_get? hget
    have hrun := (op.leads_run htc).of_pre fun w (hw : w.Holds s.holdings) =>
      Ledger.perm hw (holdings_of_get? h hget)
    refine hrun.bind ?_
    rintro ⟨report, tc'⟩
    refine leads_pure ?_
    rintro w ⟨hor, hw⟩
    exact ⟨⟨h.put (htc.of_or hor), Ledger.perm hw (holdings_put h).symm⟩, kept_put hget hor⟩

/-- Wrapped work clears its slot. -/
theorem leads_wrapIn (h : s.Neat) (ds : Datasource σ) (slot : Nat) (work : Work σ ρ β) :
    Leads (·.Holds s.holdings) (s.step ds (.wrap slot work))
      (fun r w => r.2.Sound w ∧ ∀ n, Kept n s r.2) fun _ => False := by
  cases hget : s.get? slot with
  | none =>
    simp only [step, hget]
    exact leads_pure fun w hw => ⟨⟨h, hw⟩, fun n => Kept.refl n s⟩
  | some tc =>
    simp only [step, hget]
    have hrun := (Context.leads_wrap (h.settled_of_get? hget) work).of_pre
      fun w (hw : w.Holds s.holdings) => Ledger.perm hw (holdings_of_get? h hget)
    refine hrun.bind ?_
    rintro ⟨e, tc'⟩
    refine leads_pure ?_
    rintro w ⟨-, hw⟩
    exact ⟨⟨h.remove, hw⟩, fun n => kept_remove slot n s⟩

theorem leads_dropIn (h : s.Neat) (ds : Datasource σ) (slot : Nat) :
    Leads (·.Holds s.holdings) (s.step ds (.drop slot : Step σ ρ β))
      (fun r w => r.2.Sound w ∧ ∀ n, Kept n s r.2) fun _ => False := by
  have hdrop := @leads_dropSlot σ s [] h slot
  simp only [List.append_nil] at hdrop
  refine hdrop.bind fun s' => leads_pure ?_
  rintro w ⟨rfl, hw⟩
  exact ⟨⟨h.remove, hw⟩, fun n => kept_remove slot n s⟩

/-- What happens aside from a session leaves it alone. -/
theorem leads_aside {α : Type} (h : s.Neat) (f : α → Outcome ρ β) {x : Run σ α}
    (hx : Leads (·.Holds s.holdings) x (fun _ w => w.Holds s.holdings) (·.Holds s.holdings)) :
    Leads (·.Holds s.holdings) (s.aside f x)
      (fun r w => r.2.Sound w ∧ ∀ n, Kept n s r.2) fun _ => False := by
  have hending : Leads (·.Holds s.holdings) x.ending (fun _ w => w.Holds s.holdings)
      fun _ => False := hx.ending (fun _ _ hw => hw) fun _ _ _ hw => hw
  exact hending.bind fun _ => leads_pure fun w hw => ⟨⟨h, hw⟩, fun n => Kept.refl n s⟩

/-- Every step keeps a session sound, and it keeps each context as it is or finishes it, except where
it opens one. -/
theorem leads_step (ds : Datasource σ) (s : Session σ) (st : Step σ ρ β) :
    Leads s.Sound (s.step ds st)
      (fun r w => r.2.Sound w ∧ ∀ n, ¬ Opens n st → Kept n s r.2) fun _ => False := by
  rintro b w ⟨h, hw⟩
  have hall : ∀ {x : Run σ (Ending (Outcome ρ β) × Session σ)},
      Leads (·.Holds s.holdings) x (fun r w => r.2.Sound w ∧ ∀ n, Kept n s r.2) (fun _ => False) →
      Leads (·.Holds s.holdings) x (fun r w => r.2.Sound w ∧ ∀ n, ¬ Opens n st → Kept n s r.2)
        fun _ => False :=
    fun hx => hx.mono (fun _ hw => hw) (fun _ _ hr => ⟨hr.1, fun n _ => hr.2 n⟩) fun _ hw => hw
  cases st with
  | «open» slot style scope => exact leads_openInto h ds slot style scope b w hw
  | perform slot op => exact hall (leads_performIn h ds slot op) b w hw
  | drop slot => exact hall (leads_dropIn h ds slot) b w hw
  | wrap slot work => exact hall (leads_wrapIn h ds slot work) b w hw
  | transact style scope work =>
    exact hall (leads_aside h _ (Datasource.leads_transact ds style scope work)) b w hw
  | route scope => exact hall (leads_aside h _ (Datasource.leads_poolFor ds scope)) b w hw
  | shutdown => exact hall (leads_aside h _ (Datasource.leads_closeFrom 0 ds.pools)) b w hw
  | adjust f => exact hall (leads_aside h _ (leads_modifyEnv f)) b w hw

/-- A session is sound after any steps. -/
theorem leads_run (ds : Datasource σ) : ∀ (steps : List (Step σ ρ β)) (s : Session σ),
    Leads s.Sound (s.run ds steps)
      (fun s' w => s'.Sound w ∧ ∀ n, (∀ st ∈ steps, ¬ Opens n st) → Kept n s s') fun _ => False
  | [], s => leads_pure fun _ hw => ⟨hw, fun n _ => Kept.refl n s⟩
  | st :: rest, s => by
    refine (leads_step ds s st).bind ?_
    rintro ⟨e, s'⟩ b w ⟨hw, hkept⟩
    refine (leads_run ds rest s').mono (fun _ hw => hw) ?_ (fun _ hw => hw) b w hw
    rintro s'' w'' ⟨hw'', hkept'⟩
    refine ⟨hw'', fun n hn => ?_⟩
    exact (hkept n (hn st (List.mem_cons_self ..))).trans
      (hkept' n fun st' hst' => hn st' (List.mem_cons_of_mem _ hst'))

/-! ### What a trace shows -/

/-- The books of a session: `es` is what happened up to now. -/
structure Accounted (s : Session σ) (es : List Event) : Prop where
  balance : ∀ pool, es.countP (Event.grantsOn pool) =
    es.countP (Event.closesOn pool) + es.countP (Event.discardsOn pool) +
      s.slots.countP fun x => x.2.status = .init ∧ x.2.connection.any (·.pool = pool)
  granted_once : ∀ c, es.count (.granted c) ≤ 1
  released_once : ∀ c, es.countP (Event.releases c) ≤ 1
  released_iff : ∀ c, es.countP (Event.releases c) = 1 ↔
    .granted c ∈ es ∧ ∀ x ∈ s.slots, x.2.connection ≠ some c
  called_between : ∀ before c call ok after, es = before ++ .called c call ok :: after →
    .granted c ∈ before ∧ ∀ e ∈ before, e.releases c = false
  init_iff : ∀ x ∈ s.slots, (x.2.status = .init ↔ x.2.connection.isSome = true) ∧
    (x.2.status = .init ∨ x.2.status = .invalid)
  own : (s.slots.filterMap fun x => x.2.connection).Nodup

section Accounted

variable {w : World σ}

theorem fst_holdings (s : Session σ) :
    s.holdings.map Prod.fst = s.slots.filterMap fun x => x.2.connection := by
  rw [holdings]
  induction s.slots with
  | nil => rfl
  | cons x rest ih =>
    rw [List.flatMap_cons, List.map_append, ih, List.filterMap_cons, Context.holding]
    cases x.2.connection <;> rfl

theorem mem_fst_holdings {c : Connection} :
    c ∈ s.holdings.map Prod.fst ↔ ∃ x ∈ s.slots, x.2.connection = some c := by
  rw [fst_holdings, List.mem_filterMap]

/-- A context is in its first status exactly while it has its connection. -/
theorem settled_init_iff {tc : Context σ} (h : tc.Settled) :
    (tc.status = .init ↔ tc.connection.isSome = true) ∧
      (tc.status = .init ∨ tc.status = .invalid) := by
  rcases h with ⟨conn, hc⟩ | ⟨hs, hc⟩
  · obtain ⟨hs, hc⟩ := Context.check_eq_ok_iff.mp hc
    simp [hs, hc]
  · simp [hs, hc]

/-- What is held of a pool is held by the open contexts on it. -/
theorem countP_holdings (h : s.Neat) (pool : Nat) :
    s.holdings.countP (fun x => x.1.pool = pool) =
      s.slots.countP fun x => x.2.status = .init ∧ x.2.connection.any (·.pool = pool) := by
  have hsettled := h.settled
  rw [holdings]
  generalize s.slots = slots at hsettled ⊢
  induction slots with
  | nil => rfl
  | cons x rest ih =>
    rw [List.flatMap_cons, List.countP_append, List.countP_cons,
      ih fun y hy => hsettled y (List.mem_cons_of_mem _ hy), Nat.add_comm]
    congr 1
    rcases hsettled x (List.mem_cons_self ..) with ⟨conn, hc⟩ | ⟨hs, hc⟩
    · obtain ⟨hs, hconn⟩ := Context.check_eq_ok_iff.mp hc
      rw [Context.holding_of_check hc, List.countP_singleton]
      simp [hs, hconn]
    · simp [Context.holding, hs, hc]

/-- The books of a sound session. -/
theorem Sound.accounted (h : s.Sound w) : s.Accounted w.trace where
  balance pool := by
    rw [← countP_holdings h.neat, h.holds.balance pool]
  granted_once c := by
    rw [(lifeOf_counts (h.holds.ne_misused c)).1]
    split <;> omega
  released_once c := by
    rw [(lifeOf_counts (h.holds.ne_misused c)).2]
    split <;> omega
  released_iff c := by
    obtain ⟨hgranted, hreleased⟩ := lifeOf_counts (h.holds.ne_misused c)
    have hmem : .granted c ∈ w.trace ↔ lifeOf c w.trace ≠ .unseen := by
      rw [← List.count_pos_iff, hgranted]
      split <;> simp [*]
    have hheld : (∀ x ∈ s.slots, x.2.connection ≠ some c) ↔ c ∉ s.holdings.map Prod.fst := by
      simp only [mem_fst_holdings, not_exists, not_and, ne_eq]
    rw [hreleased, hmem, hheld]
    by_cases hc : c ∈ s.holdings.map Prod.fst
    · obtain ⟨⟨d, l⟩, hx, hd⟩ := List.mem_map.mp hc
      obtain rfl : d = c := hd
      obtain ⟨hl, hheld⟩ := h.holds.listed d l hx
      have hne : l ≠ .released := by
        rintro rfl
        cases hheld
      simp [hl, hne, hc]
    · rcases h.holds.others c hc with hl | hl <;> simp [hl, hc]
  called_between := by
    intro before c call ok after hes
    exact lifeOf_called (hes ▸ h.holds.ne_misused c)
  init_iff x hx := settled_init_iff (h.neat.settled x hx)
  own := by
    rw [← fst_holdings]
    exact h.holds.nodup

end Accounted

theorem sound_empty (env : σ) : ({} : Session σ).Sound { env := env } where
  neat := ⟨List.Pairwise.nil, fun _ hx => absurd hx List.not_mem_nil⟩
  holds := Ledger.nil

/-- From an empty session, any steps lead to a sound one. -/
theorem sound_run (ds : Datasource σ) (b : Backend σ) (env : σ) (steps : List (Step σ ρ β)) :
    ∃ s w, Session.run ds {} steps b { env := env } = (.ok s, w) ∧ s.Sound w := by
  have hrun := leads_run ds steps {} b _ (sound_empty env)
  generalize Session.run ds {} steps b { env := env } = r at hrun ⊢
  obtain ⟨_ | _ | _, w⟩ := r
  · exact ⟨_, w, rfl, hrun.1⟩
  · exact hrun.elim
  · exact hrun.elim

/-- After any steps on any contexts the books are in order, and a context that is finished stays as it
is whatever is done next, until its slot is used for another. -/
theorem run_accounted (ds : Datasource σ) (b : Backend σ) (env : σ) (steps : List (Step σ ρ β)) :
    ∃ s w, Session.run ds {} steps b { env := env } = (.ok s, w) ∧ s.Accounted w.trace ∧
      ∀ slot tc, s.get? slot = some tc → tc.status = .invalid →
        ∀ more : List (Step σ ρ β), (∀ st ∈ more, ¬ Opens slot st) →
          ∃ s' w', Session.run ds s more b w = (.ok s', w') ∧
            ∀ tc', s'.get? slot = some tc' → tc' = tc := by
  obtain ⟨s, w, hrun, hsound⟩ := sound_run ds b env steps
  refine ⟨s, w, hrun, hsound.accounted, ?_⟩
  intro slot tc hget hstatus more hmore
  have hsame : tc.invalidated = tc :=
    ((hsound.neat.settled_of_get? hget).of_invalid hstatus).1
  have hnext := leads_run ds more s b w hsound
  generalize Session.run ds s more b w = r at hnext ⊢
  obtain ⟨_ | _ | _, w'⟩ := r
  · refine ⟨_, w', rfl, ?_⟩
    intro tc' hget'
    obtain ⟨other, hother, htc'⟩ := hnext.2 slot hmore tc' hget'
    rw [hget] at hother
    cases hother
    rwa [hsame, or_self] at htc'
  · exact hnext.elim
  · exact hnext.elim

/-- Whatever is done, the connections that are given up by a close with a transaction that may be open
are the ones that are given up after a rollback has failed. -/
theorem run_released (ds : Datasource σ) (b : Backend σ) (env : σ) (steps : List (Step σ ρ β)) :
    ∃ s w, Session.run ds {} steps b { env := env } = (.ok s, w) ∧
      ∀ before e after c, w.trace = before ++ e :: after → e.releases c = true →
        ((e = .closed c ∧ MayBeOpen c before) ↔ RollbackFailedLast c before) := by
  obtain ⟨s, w, hrun, hsound⟩ := sound_run ds b env steps
  refine ⟨s, w, hrun, ?_⟩
  intro before e after c htrace he
  exact lifeOf_released (htrace ▸ hsound.holds.ne_misused c) he

/-- There are such connections: where neither the commit nor the rollback goes well, completing a
context that has just been opened closes its connection with the transaction open. -/
theorem closed_with_open_transaction :
    ∃ (s : Session (Scripted Unit)) (w : World (Scripted Unit)) (before : List Event)
      (c : Connection),
      Session.run (Datasource.ofPool {}) {}
          [(.open 0 .write { traceId := "" } : Step (Scripted Unit) Unit Unit),
            .perform 0 (.complete none)]
          Scripted.backend { env := Context.stuckWorld.env } = (.ok s, w) ∧
        w.trace = before ++ [.closed c] ∧ MayBeOpen c before := by
  refine ⟨_, _, [.granted ⟨0, 0⟩, .called ⟨0, 0⟩ (.begin false) true,
    .called ⟨0, 0⟩ .commit false, .logged (.commitFailed "" (Script.connectionFailure "commit")),
    .called ⟨0, 0⟩ .rollback false,
    .logged (.rollbackFailed "" (Script.connectionFailure "rollback"))], ⟨0, 0⟩, rfl, rfl, ?_⟩
  exact ⟨[.granted ⟨0, 0⟩], false, _, rfl, by simp, by simp⟩

end Session

end TableAccess
