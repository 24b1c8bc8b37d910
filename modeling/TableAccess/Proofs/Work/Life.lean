import Mathlib.Data.List.Induction
import TableAccess.Proofs.Work.Footprint

/-!
What becomes of a connection, read off a trace.

`Life.next` is an automaton over the events of one connection. It has states for a connection that
was never granted, for one on which no transaction is open, for one on which a transaction may be
open, for one whose last rollback failed, and for one that was given up; every other order of events
is `misused`, and there is no way back from that. A trace that misuses no connection has the
properties at the end: each connection is granted before it is used and given up at most once, and a
connection is closed with its transaction open only after a failed rollback.
-/

namespace TableAccess

/-- Where a connection stands. -/
inductive Life where
  | unseen | idle | busy | stranded | released | misused
  deriving DecidableEq

namespace Life

/-- Whether the connection is in someone's hands. -/
def held : Life → Bool
  | .idle | .busy | .stranded => true
  | .unseen | .released | .misused => false

/-- A call of a connection: a transaction begins where none is open and ends where one is, and
nothing is asked after a failed rollback. -/
def called : Life → Call → Bool → Life
  | .idle, .begin _, ok => if ok then .busy else .idle
  | .busy, .commit, ok => if ok then .idle else .busy
  | .busy, .rollback, ok => if ok then .idle else .stranded
  | .idle, c, _ => if c.isStatement then .idle else .misused
  | .busy, c, _ => if c.isStatement then .busy else .misused
  | _, _, _ => .misused

/-- An event of the connection. It is closed when no transaction is open or a rollback has failed,
and it is discarded when no rollback has failed. -/
def next : Life → Event → Life
  | .unseen, .granted _ => .idle
  | .idle, .closed _ | .stranded, .closed _ => .released
  | .idle, .discarded _ | .busy, .discarded _ => .released
  | l, .called _ c ok => l.called c ok
  | _, _ => .misused

end Life

namespace Event

/-- The connection of an event. -/
def connection? : Event → Option Connection
  | .granted c | .called c _ _ | .closed c | .discarded c => some c
  | .refused _ | .poolClosed _ | .hook .. | .pulled _ | .batch _ | .logged _ | .answered _ => none

/-- Whether a connection of the pool is granted. -/
def grantsOn (pool : Nat) : Event → Bool
  | .granted c => c.pool = pool
  | _ => false

/-- Whether a connection of the pool is closed. -/
def closesOn (pool : Nat) : Event → Bool
  | .closed c => c.pool = pool
  | _ => false

/-- Whether a connection of the pool is discarded. -/
def discardsOn (pool : Nat) : Event → Bool
  | .discarded c => c.pool = pool
  | _ => false

/-- Whether the connection is given up. -/
def releases (conn : Connection) : Event → Bool
  | .closed c | .discarded c => c = conn
  | _ => false

theorem connection?_eq_none {e : Event} (h : e.isDriver = false) : e.connection? = none := by
  cases e <;> first | rfl | cases h

/-- An event of no connection neither grants one nor gives one up. -/
theorem counts_of_none {e : Event} (h : e.connection? = none) (pool : Nat) :
    e.grantsOn pool = false ∧ e.closesOn pool = false ∧ e.discardsOn pool = false := by
  cases e <;> first | exact ⟨rfl, rfl, rfl⟩ | cases h

end Event

/-- The state of a connection after events. -/
def lifeOf (conn : Connection) (es : List Event) : Life :=
  es.foldl (fun l e => if e.connection? = some conn then l.next e else l) .unseen

section History

variable {conn c : Connection} {es fs : List Event} {e : Event} {l : Life}

theorem lifeOf_append_single : lifeOf conn (es ++ [e]) =
    if e.connection? = some conn then (lifeOf conn es).next e else lifeOf conn es := by
  rw [lifeOf, List.foldl_append]
  rfl

theorem lifeOf_append_own (h : e.connection? = some conn) :
    lifeOf conn (es ++ [e]) = (lifeOf conn es).next e := by
  rw [lifeOf_append_single, if_pos h]

theorem lifeOf_append_none (h : e.connection? = none) :
    lifeOf conn (es ++ [e]) = lifeOf conn es := by
  rw [lifeOf_append_single, h, if_neg nofun]

/-- Events of another connection do not count. -/
theorem lifeOf_append_other (h : e.connection? = some c) (hne : conn ≠ c) :
    lifeOf conn (es ++ [e]) = lifeOf conn es := by
  rw [lifeOf_append_single, if_neg]
  rw [h, Option.some.injEq]
  exact hne.symm

/-- No event makes a connection one that was never granted. -/
theorem Life.next_ne_unseen (l : Life) (e : Event) : l.next e ≠ .unseen := by
  cases e with
  | called c call ok => cases l <;> cases call <;> cases ok <;> nofun
  | granted | closed | discarded | refused | hook | pulled | batch | poolClosed | logged
  | answered => cases l <;> nofun

/-- There is no way back from misuse. -/
theorem Life.next_misused (e : Event) : Life.next .misused e = .misused := by
  cases e <;> rfl

theorem lifeOf_misused (h : lifeOf conn es = .misused) : ∀ fs, lifeOf conn (es ++ fs) = .misused := by
  intro fs
  induction fs using List.reverseRecOn with
  | nil => rw [List.append_nil, h]
  | append_singleton fs e ih =>
    rw [← List.append_assoc, lifeOf_append_single, ih, Life.next_misused, ite_self]

/-- A connection that is not misused was not misused before. -/
theorem lifeOf_before (h : lifeOf conn (es ++ fs) ≠ .misused) : lifeOf conn es ≠ .misused :=
  fun hm => h (lifeOf_misused hm fs)

/-- Only events that a driver sees count. -/
theorem lifeOf_driverEvents (es fs : List Event) :
    lifeOf conn (es ++ driverEvents fs) = lifeOf conn (es ++ fs) := by
  induction fs using List.reverseRecOn with
  | nil => rfl
  | append_singleton fs e ih =>
    rw [driverEvents_append, ← List.append_assoc, ← List.append_assoc, lifeOf_append_single (e := e)]
    cases hd : e.isDriver with
    | true =>
      have he : driverEvents [e] = [e] := by simp [driverEvents, hd]
      rw [he, lifeOf_append_single, ih]
    | false =>
      have he : driverEvents [e] = [] := by simp [driverEvents, hd]
      rw [he, List.append_nil, ih, Event.connection?_eq_none hd, if_neg nofun]

/-! ### Counting grants and releases -/

/-- An event of the connection, by the state before it and unless it is misuse: it is granted first,
and given up last. -/
theorem Life.counts_next (h : l.next e ≠ .misused) (he : e.connection? = some conn) :
    (e = .granted conn ↔ l = .unseen) ∧ (e.releases conn = true ↔ l.next e = .released) ∧
      l.next e ≠ .unseen ∧ l ≠ .released := by
  cases e with
  | granted c =>
    cases he
    cases l <;> first | exact absurd rfl h | simp [Life.next, Event.releases]
  | called c call ok =>
    cases he
    cases l <;> cases call <;> cases ok <;> first
      | exact absurd rfl h
      | simp [Life.next, Life.called, Call.isStatement, Event.releases]
  | closed c | discarded c =>
    cases he
    cases l <;> first | exact absurd rfl h | simp [Life.next, Event.releases]
  | refused | hook | pulled | batch | poolClosed | logged | answered => cases he

/-- What is granted and given up of a connection that is not misused. -/
theorem lifeOf_counts (h : lifeOf conn es ≠ .misused) :
    es.count (.granted conn) = (if lifeOf conn es = .unseen then 0 else 1) ∧
      es.countP (Event.releases conn) = if lifeOf conn es = .released then 1 else 0 := by
  induction es using List.reverseRecOn with
  | nil => exact ⟨rfl, rfl⟩
  | append_singleton es e ih =>
    obtain ⟨hgrants, hreleases⟩ := ih (lifeOf_before h)
    rw [List.count_append, List.countP_append, hgrants, hreleases]
    by_cases he : e.connection? = some conn
    · rw [lifeOf_append_own he] at h ⊢
      obtain ⟨hg, hr, hne, hnr⟩ := Life.counts_next h he
      rw [if_neg hne, if_neg hnr]
      constructor
      · by_cases hu : lifeOf conn es = .unseen
        · simp [hg.mpr hu, hu]
        · simp [mt hg.mp hu, hu]
      · simp [hr]
    · rw [lifeOf_append_single, if_neg he]
      have hg : e ≠ .granted conn := by
        rintro rfl
        exact he rfl
      have hr : e.releases conn = false := by
        cases e <;> first | rfl | simpa [Event.releases, Event.connection?] using he
      simp [hg, hr]

/-- A connection is called between its grant and its release. -/
theorem lifeOf_called {call : Call} {ok : Bool}
    (h : lifeOf conn (es ++ .called conn call ok :: fs) ≠ .misused) :
    .granted conn ∈ es ∧ ∀ e ∈ es, e.releases conn = false := by
  rw [← List.singleton_append, ← List.append_assoc] at h
  have hcall := lifeOf_before h
  rw [lifeOf_append_own rfl] at hcall
  obtain ⟨hg, hr⟩ := lifeOf_counts (lifeOf_before (lifeOf_before h))
  have hne : lifeOf conn es ≠ .unseen ∧ lifeOf conn es ≠ .released := by
    constructor <;> intro hl <;> rw [hl] at hcall <;> exact hcall rfl
  rw [if_neg hne.1] at hg
  rw [if_neg hne.2, List.countP_eq_zero] at hr
  refine ⟨List.count_pos_iff.mp (by omega), ?_⟩
  intro e he
  exact Bool.eq_false_iff.mpr (hr e he)

/-! ### Transactions -/

/-- A transaction may be open: a begin went well, and since then neither a commit nor a rollback
has. -/
def MayBeOpen (conn : Connection) (es : List Event) : Prop :=
  ∃ before readOnly since, es = before ++ .called conn (.begin readOnly) true :: since ∧
    .called conn .commit true ∉ since ∧ .called conn .rollback true ∉ since

/-- The last call was a rollback, and it failed. -/
def RollbackFailedLast (conn : Connection) (es : List Event) : Prop :=
  ∃ before since, es = before ++ .called conn .rollback false :: since ∧
    ∀ call ok, .called conn call ok ∉ since

/-- An event in a list that one is added to is that one, or was there before. -/
theorem append_cons_eq_append_single {before since : List Event} {x : Event} :
    es ++ [e] = before ++ x :: since ↔
      (since = [] ∧ before = es ∧ x = e) ∨
        ∃ rest, since = rest ++ [e] ∧ es = before ++ x :: rest := by
  constructor
  · intro h
    rcases List.eq_nil_or_concat since with rfl | ⟨rest, y, rfl⟩
    · obtain ⟨rfl, rfl⟩ := List.append_inj' h rfl |>.imp id List.singleton_inj.mp
      exact .inl ⟨rfl, rfl, rfl⟩
    · rw [List.concat_eq_append, ← List.cons_append, ← List.append_assoc] at h
      obtain ⟨rfl, hy⟩ := List.append_inj' h rfl
      cases hy
      exact .inr ⟨rest, by simp, rfl⟩
  · rintro (⟨rfl, rfl, rfl⟩ | ⟨rest, rfl, rfl⟩)
    · rfl
    · simp

theorem mayBeOpen_append_single : MayBeOpen conn (es ++ [e]) ↔
    (∃ readOnly, e = .called conn (.begin readOnly) true) ∨
      (MayBeOpen conn es ∧ e ≠ .called conn .commit true ∧ e ≠ .called conn .rollback true) := by
  constructor
  · rintro ⟨before, readOnly, since, hes, hc, hr⟩
    rcases append_cons_eq_append_single.mp hes with ⟨_, _, rfl⟩ | ⟨rest, rfl, rfl⟩
    · exact .inl ⟨readOnly, rfl⟩
    · simp only [List.mem_append, List.mem_singleton, not_or] at hc hr
      exact .inr ⟨⟨before, readOnly, rest, rfl, hc.1, hr.1⟩, Ne.symm hc.2, Ne.symm hr.2⟩
  · rintro (⟨readOnly, rfl⟩ | ⟨⟨before, readOnly, since, rfl, hc, hr⟩, hec, her⟩)
    · exact ⟨es, readOnly, [], rfl, List.not_mem_nil, List.not_mem_nil⟩
    · refine ⟨before, readOnly, since ++ [e], by simp, ?_, ?_⟩
      · simpa [hc] using hec.symm
      · simpa [hr] using her.symm

theorem rollbackFailedLast_append_single : RollbackFailedLast conn (es ++ [e]) ↔
    e = .called conn .rollback false ∨
      (RollbackFailedLast conn es ∧ ∀ call ok, e ≠ .called conn call ok) := by
  constructor
  · rintro ⟨before, since, hes, hs⟩
    rcases append_cons_eq_append_single.mp hes with ⟨_, _, rfl⟩ | ⟨rest, rfl, rfl⟩
    · exact .inl rfl
    · simp only [List.mem_append, List.mem_singleton, not_or] at hs
      exact .inr ⟨⟨before, rest, rfl, fun call ok => (hs call ok).1⟩,
        fun call ok => Ne.symm (hs call ok).2⟩
  · rintro (rfl | ⟨⟨before, since, rfl, hs⟩, he⟩)
    · exact ⟨es, [], rfl, fun _ _ => List.not_mem_nil⟩
    · refine ⟨before, since ++ [e], by simp, ?_⟩
      intro call ok
      simpa [hs] using (he call ok).symm

/-- An event of the connection, by the state before it and unless it gives the connection up: it may
open a transaction, end it or fail to. -/
theorem Life.transaction_next (h : (l.next e).held = true) (he : e.connection? = some conn) :
    (l.held = true ∨ l = .unseen) ∧
      ((l.next e = .busy ∨ l.next e = .stranded) ↔
        (∃ readOnly, e = .called conn (.begin readOnly) true) ∨
          ((l = .busy ∨ l = .stranded) ∧
            e ≠ .called conn .commit true ∧ e ≠ .called conn .rollback true)) ∧
      (l.next e = .stranded ↔ e = .called conn .rollback false ∨
        (l = .stranded ∧ ∀ call ok, e ≠ .called conn call ok)) := by
  cases e with
  | granted c =>
    cases he
    cases l <;> simp [Life.next, Life.held] at h ⊢
  | called c call ok =>
    cases he
    cases l <;> cases call <;> cases ok <;>
      simp [Life.next, Life.called, Life.held, Call.isStatement] at h ⊢
  | closed c | discarded c =>
    cases he
    cases l <;> cases h
  | refused | hook | pulled | batch | poolClosed | logged | answered => cases he

/-- The state of a connection that is held says whether a transaction may be open and whether the
last call was a rollback that failed. -/
theorem lifeOf_transaction (h : (lifeOf conn es).held = true ∨ lifeOf conn es = .unseen) :
    (MayBeOpen conn es ↔ lifeOf conn es = .busy ∨ lifeOf conn es = .stranded) ∧
      (RollbackFailedLast conn es ↔ lifeOf conn es = .stranded) := by
  induction es using List.reverseRecOn with
  | nil =>
    refine ⟨⟨?_, nofun⟩, ⟨?_, nofun⟩⟩
    · rintro ⟨before, _, _, hes, _⟩
      cases before <;> cases hes
    · rintro ⟨before, _, hes, _⟩
      cases before <;> cases hes
  | append_singleton es e ih =>
    rw [mayBeOpen_append_single, rollbackFailedLast_append_single]
    by_cases he : e.connection? = some conn
    · rw [lifeOf_append_own he] at h ⊢
      have hheld : ((lifeOf conn es).next e).held = true :=
        h.resolve_right (Life.next_ne_unseen _ _)
      obtain ⟨hl, hopen, hfailed⟩ := Life.transaction_next hheld he
      rw [hopen, hfailed, (ih hl).1, (ih hl).2]
      exact ⟨Iff.rfl, Iff.rfl⟩
    · rw [lifeOf_append_single, if_neg he] at h ⊢
      obtain ⟨hopen, hfailed⟩ := ih h
      have hne : ∀ call ok, e ≠ .called conn call ok := by
        rintro call ok rfl
        exact he rfl
      simp [hne, hopen, hfailed]

/-- Of all releases it is the closes with a transaction open that follow a failed rollback. -/
theorem lifeOf_released (h : lifeOf conn (es ++ e :: fs) ≠ .misused) (he : e.releases conn = true) :
    (e = .closed conn ∧ MayBeOpen conn es) ↔ RollbackFailedLast conn es := by
  rw [← List.singleton_append, ← List.append_assoc] at h
  have hnext := lifeOf_before h
  have hconn : e.connection? = some conn ∧ (e = .closed conn ∨ e = .discarded conn) := by
    cases e <;> simp [Event.releases, Event.connection?] at he ⊢ <;> exact he
  rw [lifeOf_append_own hconn.1] at hnext
  have hheld : (lifeOf conn es).held = true := by
    rcases hconn.2 with rfl | rfl <;> cases hl : lifeOf conn es <;> rw [hl] at hnext <;>
      first | rfl | exact absurd rfl hnext
  obtain ⟨hopen, hfailed⟩ := lifeOf_transaction (.inl hheld)
  rw [hopen, hfailed]
  rcases hconn.2 with rfl | rfl <;> cases hl : lifeOf conn es <;> rw [hl] at hnext <;>
    first | exact absurd rfl hnext | simp

end History

end TableAccess
