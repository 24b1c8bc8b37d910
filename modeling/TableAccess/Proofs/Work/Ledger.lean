import TableAccess.Proofs.Work.Life

/-!
Which connections are held, and how they stand.

`Ledger` says that exactly the listed connections are held, each in the state that is listed with it,
and that no connection is misused. The lemmas on it say what each event does to the list, so that a
list of the open contexts can be kept along a run; the balance of each pool comes with it.
-/

namespace TableAccess

/-- Exactly the listed connections are held, and they stand as listed. Serial numbers from `n` on are
yet to be given. -/
structure Ledger (hs : List (Connection × Life)) (es : List Event) (n : Nat) : Prop where
  nodup : (hs.map Prod.fst).Nodup
  listed : ∀ c l, (c, l) ∈ hs → lifeOf c es = l ∧ l.held = true
  others : ∀ c, c ∉ hs.map Prod.fst → lifeOf c es = .unseen ∨ lifeOf c es = .released
  fresh : ∀ c, n ≤ c.serial → lifeOf c es = .unseen
  balance : ∀ pool, es.countP (Event.grantsOn pool) =
    es.countP (Event.closesOn pool) + es.countP (Event.discardsOn pool) +
      hs.countP fun h => h.1.pool = pool

namespace Ledger

variable {hs hs' fr : List (Connection × Life)} {es fs : List Event} {n : Nat} {conn : Connection}
  {l : Life}

theorem nil : Ledger [] [] 0 where
  nodup := List.nodup_nil
  listed := nofun
  others _ _ := .inl rfl
  fresh _ _ := rfl
  balance _ := rfl

/-- The order of the list is of no importance. -/
theorem perm (h : Ledger hs es n) (hp : hs.Perm hs') : Ledger hs' es n where
  nodup := (hp.map Prod.fst).nodup_iff.mp h.nodup
  listed c l hc := h.listed c l (hp.mem_iff.mpr hc)
  others c hc := h.others c fun hm => hc ((hp.map Prod.fst).mem_iff.mp hm)
  fresh := h.fresh
  balance pool := by rw [h.balance pool, hp.countP_eq]

/-- No connection is misused. -/
theorem ne_misused (h : Ledger hs es n) (c : Connection) : lifeOf c es ≠ .misused := by
  by_cases hc : c ∈ hs.map Prod.fst
  · obtain ⟨⟨_, l⟩, hm, rfl⟩ := List.mem_map.mp hc
    obtain ⟨hl, hheld⟩ := h.listed _ l hm
    rw [hl]
    rintro rfl
    cases hheld
  · rcases h.others c hc with hl | hl <;> rw [hl] <;> decide

/-- A listed connection has its number already. -/
theorem serial_lt (h : Ledger hs es n) (hc : (conn, l) ∈ hs) : conn.serial < n := by
  by_contra hn
  obtain ⟨hl, hheld⟩ := h.listed conn l hc
  rw [← hl, h.fresh conn (by omega)] at hheld
  cases hheld

/-- The rest of the list is of other connections. -/
theorem ne_of_mem (h : Ledger ((conn, l) :: fr) es n) {c : Connection} (hc : c ∈ fr.map Prod.fst) :
    c ≠ conn := by
  rintro rfl
  exact (List.nodup_cons.mp h.nodup).1 hc

/-- An event of a listed connection touches no other connection, nor one that is yet to be
granted. -/
theorem untouched (h : Ledger ((conn, l) :: fr) es n) {e : Event}
    (he : e.connection? = some conn) :
    (∀ d, d ≠ conn → lifeOf d (es ++ [e]) = lifeOf d es) ∧
      ∀ d, n ≤ d.serial → lifeOf d (es ++ [e]) = .unseen := by
  refine ⟨fun d hd => lifeOf_append_other he hd, ?_⟩
  intro d hd
  have hlt := h.serial_lt (List.mem_cons_self ..)
  have hne : d ≠ conn := by
    rintro rfl
    omega
  rw [lifeOf_append_other he hne]
  exact h.fresh d hd

/-- Events that are of no connection change nothing. -/
theorem quiet (h : Ledger hs es n) {e : Event} (he : e.connection? = none) :
    Ledger hs (es ++ [e]) n := by
  have hlife : ∀ c, lifeOf c (es ++ [e]) = lifeOf c es := fun _ => lifeOf_append_none he
  constructor
  case nodup => exact h.nodup
  case listed => simpa only [hlife] using h.listed
  case others => simpa only [hlife] using h.others
  case fresh => simpa only [hlife] using h.fresh
  case balance =>
    intro pool
    obtain ⟨hg, hc, hd⟩ := Event.counts_of_none he pool
    simp [hg, hc, hd, h.balance pool]

theorem quiets (h : Ledger hs es n) :
    ∀ {fs : List Event}, (∀ e ∈ fs, e.connection? = none) → Ledger hs (es ++ fs) n := by
  intro fs
  induction fs using List.reverseRecOn with
  | nil => rw [List.append_nil]; exact fun _ => h
  | append_singleton fs e ih =>
    intro hfs
    rw [← List.append_assoc]
    exact (ih fun e he => hfs e (List.mem_append_left _ he)).quiet
      (hfs e (List.mem_append_right _ (List.mem_singleton_self e)))

/-- A call moves its connection on and leaves the others. -/
theorem call (h : Ledger ((conn, l) :: fr) es n) {c : Call} {ok : Bool} {l' : Life}
    (hl : l.called c ok = l') (hheld : l'.held = true) :
    Ledger ((conn, l') :: fr) (es ++ [.called conn c ok]) n := by
  obtain ⟨hother, hfresh⟩ := h.untouched (e := .called conn c ok) rfl
  constructor
  case nodup => exact h.nodup
  case listed =>
    intro d m hd
    rcases List.mem_cons.mp hd with hd | hd
    · obtain ⟨rfl, rfl⟩ := Prod.mk.inj hd
      refine ⟨?_, hheld⟩
      rw [lifeOf_append_own rfl, (h.listed d l (List.mem_cons_self ..)).1, ← hl]
      cases l <;> rfl
    · rw [hother d (h.ne_of_mem (List.mem_map_of_mem hd))]
      exact h.listed d m (List.mem_cons_of_mem _ hd)
  case others =>
    intro d hd
    rw [hother d fun he => hd (he ▸ List.mem_cons_self ..)]
    exact h.others d hd
  case fresh => exact hfresh
  case balance =>
    intro pool
    have hb := h.balance pool
    rw [List.countP_cons] at hb ⊢
    simpa [Event.grantsOn, Event.closesOn, Event.discardsOn] using hb

/-- Giving a connection up takes it off the list. -/
theorem release (h : Ledger ((conn, l) :: fr) es n) {e : Event}
    (he : e = .closed conn ∧ l ≠ .busy ∨ e = .discarded conn ∧ l ≠ .stranded) :
    Ledger fr (es ++ [e]) n := by
  have hconn : e.connection? = some conn := by
    rcases he with ⟨rfl, _⟩ | ⟨rfl, _⟩ <;> rfl
  obtain ⟨hlife, hheld⟩ := h.listed conn l (List.mem_cons_self ..)
  have hown : lifeOf conn (es ++ [e]) = .released := by
    rw [lifeOf_append_own hconn, hlife]
    rcases he with ⟨rfl, hb⟩ | ⟨rfl, hb⟩
    · cases l with
      | idle | stranded => rfl
      | busy => exact absurd rfl hb
      | unseen | released | misused => cases hheld
    · cases l with
      | idle | busy => rfl
      | stranded => exact absurd rfl hb
      | unseen | released | misused => cases hheld
  obtain ⟨hother, hfresh⟩ := h.untouched hconn
  constructor
  case nodup => exact (List.nodup_cons.mp h.nodup).2
  case listed =>
    intro d l' hd
    rw [hother d (h.ne_of_mem (List.mem_map_of_mem hd))]
    exact h.listed d l' (List.mem_cons_of_mem _ hd)
  case others =>
    intro d hd
    by_cases hc : d = conn
    · rw [hc]
      exact .inr hown
    · rw [hother d hc]
      exact h.others d fun hm => (List.mem_cons.mp hm).elim hc hd
  case fresh => exact hfresh
  case balance =>
    intro pool
    have hb := h.balance pool
    rw [List.countP_cons] at hb
    by_cases hp : conn.pool = pool <;> rcases he with ⟨rfl, _⟩ | ⟨rfl, _⟩ <;>
      simp [Event.grantsOn, Event.closesOn, Event.discardsOn, hp] at hb ⊢ <;> omega

/-- A connection is granted under a number of its own. -/
theorem grant (h : Ledger fr es n) (pool : Nat) :
    Ledger ((⟨pool, n⟩, .idle) :: fr) (es ++ [.granted ⟨pool, n⟩]) (n + 1) := by
  have hother : ∀ d, d ≠ ⟨pool, n⟩ → lifeOf d (es ++ [.granted ⟨pool, n⟩]) = lifeOf d es :=
    fun _ hd => lifeOf_append_other rfl hd
  have hnew : ∀ d ∈ fr.map Prod.fst, d ≠ ⟨pool, n⟩ := by
    rintro _ hd rfl
    obtain ⟨⟨_, l⟩, hm, rfl⟩ := List.mem_map.mp hd
    exact Nat.lt_irrefl _ (h.serial_lt hm)
  constructor
  case nodup => exact List.nodup_cons.mpr ⟨fun hm => hnew _ hm rfl, h.nodup⟩
  case listed =>
    intro d l hd
    rcases List.mem_cons.mp hd with hd | hd
    · obtain ⟨rfl, rfl⟩ := Prod.mk.inj hd
      refine ⟨?_, rfl⟩
      rw [lifeOf_append_own rfl, h.fresh _ (Nat.le_refl n)]
      rfl
    · rw [hother d (hnew d (List.mem_map_of_mem hd))]
      exact h.listed d l hd
  case others =>
    intro d hd
    rw [hother d fun he => hd (he ▸ List.mem_cons_self ..)]
    exact h.others d fun hm => hd (List.mem_cons_of_mem _ hm)
  case fresh =>
    intro d hd
    rw [hother d (by rintro rfl; exact absurd hd (Nat.not_succ_le_self n))]
    exact h.fresh d (by omega)
  case balance =>
    intro pool'
    have hb := h.balance pool'
    rw [List.countP_cons]
    by_cases hp : pool = pool' <;>
      simp [Event.grantsOn, Event.closesOn, Event.discardsOn, hp] at hb ⊢ <;> omega

/-- Only events that a driver sees count. -/
theorem of_driverEvents (h : Ledger hs (es ++ driverEvents fs) n) : Ledger hs (es ++ fs) n := by
  have hcount : ∀ p : Event → Bool, (∀ e, p e = true → e.isDriver = true) →
      (es ++ driverEvents fs).countP p = (es ++ fs).countP p := by
    intro p hp
    rw [List.countP_append, List.countP_append, driverEvents, List.countP_filter]
    congr 1
    refine List.countP_congr fun e _ => ?_
    rw [Bool.and_eq_true]
    exact ⟨fun h => h.1, fun h => ⟨h, hp e h⟩⟩
  constructor
  case nodup => exact h.nodup
  case listed => simpa only [lifeOf_driverEvents] using h.listed
  case others => simpa only [lifeOf_driverEvents] using h.others
  case fresh => simpa only [lifeOf_driverEvents] using h.fresh
  case balance =>
    intro pool
    have hb := h.balance pool
    rwa [hcount, hcount, hcount] at hb
    all_goals
      intro e he
      cases e <;> first | rfl | cases he

/-- Statements leave a connection as it is, whether or not a transaction is open. -/
theorem statements (h : Ledger ((conn, l) :: fr) es n) (hl : l = .idle ∨ l = .busy) :
    ∀ {fs : List Event}, (∀ e ∈ fs, e.connection? = none ∨
      ∃ c ok, c.isStatement = true ∧ e = .called conn c ok) →
    Ledger ((conn, l) :: fr) (es ++ fs) n := by
  intro fs
  induction fs using List.reverseRecOn with
  | nil => rw [List.append_nil]; exact fun _ => h
  | append_singleton fs e ih =>
    intro hfs
    have hledger := ih fun e he => hfs e (List.mem_append_left _ he)
    rw [← List.append_assoc]
    rcases hfs e (List.mem_append_right _ (List.mem_singleton_self e)) with he | ⟨c, ok, hc, rfl⟩
    · exact hledger.quiet he
    · have hsame : l.called c ok = l := by
        rcases hl with rfl | rfl <;> cases c <;> first | rfl | cases hc
      exact hledger.call hsame (by rcases hl with rfl | rfl <;> rfl)

end Ledger

end TableAccess
