import TableAccess.Proofs.Work.Readers

/-!
What a batch reader does, beat by beat.

A `Beat` is one thing that a batch reader does: it takes an item of the result, has a row mapped, or
hands a batch over. The rows that are mapped well set the pace: `Beat.paced` takes them in order and
hands each batch over when its last row is mapped, before the next one is taken. `Beat.Course` says how
that goes on for a result item by item, up to its end or to the first failure, and counts the rows that
are taken and the calls of the handler. A reader without room for a batch is `Unbegun`: it has no beats at
all.
-/

namespace TableAccess

variable {σ α : Type}

/-- One thing that a batch reader does, and how it goes. -/
inductive Beat (α : Type) where
  | pull (item : Except Failure Row)
  | map (row : Row) (e : Ending α)
  | hand (batch : List α) (e : Ending Unit)

/-- Whether an event is about a row that is taken or a batch that is handed over. -/
def Event.isDelivery : Event → Bool
  | .pulled _ | .batch _ => true
  | _ => false

namespace Beat

/-- What a beat adds to the trace. -/
def event? : Beat α → Option Event
  | pull item => some (.pulled (Run.succeeded item))
  | map .. => none
  | hand batch _ => some (.batch batch.length)

def isPull : Beat α → Bool
  | pull _ => true
  | _ => false

def isHand : Beat α → Bool
  | hand .. => true
  | _ => false

/-- Between two states, a mapper and a handler have been called for some beats and no others, and have
answered as the beats say. -/
inductive Played (m : Row → Callback σ α) (handler : List α → Callback σ Unit) :
    σ → List (Beat α) → σ → Prop
  | done (env : σ) : Played m handler env [] env
  | pull {env env' : σ} {beats : List (Beat α)} (item : Except Failure Row)
      (next : Played m handler env beats env') : Played m handler env (.pull item :: beats) env'
  | map {env env₁ env' : σ} {row : Row} {e : Ending α} {beats : List (Beat α)}
      (answer : m row env = (e, env₁)) (next : Played m handler env₁ beats env') :
    Played m handler env (.map row e :: beats) env'
  | hand {env env₁ env' : σ} {batch : List α} {e : Ending Unit} {beats : List (Beat α)}
      (answer : handler batch env = (e, env₁)) (next : Played m handler env₁ beats env') :
    Played m handler env (.hand batch e :: beats) env'

/-! ### The pace -/

/-- The rows that have been mapped, as they came. -/
def stream (good : List (Row × α)) : RowStream := good.map fun x => .ok x.1

/-- Rows are taken, and each of them is mapped. -/
def taken (good : List (Row × α)) : List (Beat α) :=
  good.flatMap fun x => [.pull (.ok x.1), .map x.1 (.ok x.2)]

/-- The rows of a full batch, counted from the first. -/
def chunk (size : Nat) (good : List (Row × α)) (j : Nat) : List (Row × α) :=
  (good.drop (j * size)).take size

/-- The rows behind all full batches. -/
def rest (size : Nat) (good : List (Row × α)) : List (Row × α) :=
  good.drop (good.length / size * size)

/-- The rows of a batch are taken, and then it is handed over. -/
def delivered (batch : List (Row × α)) (e : Ending Unit) : List (Beat α) :=
  taken batch ++ [.hand (batch.map Prod.snd) e]

/-- The first full batches, all of which the handler takes well. -/
def full (size : Nat) (good : List (Row × α)) (n : Nat) : List (Beat α) :=
  (List.range n).flatMap fun j => delivered (chunk size good j) (.ok ())

/-- Rows that are mapped well, as far as the handler takes their batches well. -/
def paced (size : Nat) (good : List (Row × α)) : List (Beat α) :=
  full size good (good.length / size) ++ taken (rest size good)

/-- The beats for a result, how they end, how many rows have been taken by then and how often the
handler has been called. The first failure is the last beat. -/
inductive Course (size : Nat) : RowStream → List (Beat α) → Ending Unit → Nat → Nat → Prop
  | finished {good : List (Row × α)} (whole : size ∣ good.length) :
    Course size (stream good) (paced size good) (.ok ()) good.length (good.length / size)
  | remainder {good : List (Row × α)} (part : ¬ size ∣ good.length) (e : Ending Unit) :
    Course size (stream good) (paced size good ++ [.hand ((rest size good).map Prod.snd) e]) e
      good.length (good.length / size + 1)
  | unreadable (good : List (Row × α)) (f : Failure) (after : RowStream) :
    Course size (stream good ++ .error f :: after) (paced size good ++ [.pull (.error f)]) (.error f)
      (good.length + 1) (good.length / size)
  | unmapped (good : List (Row × α)) (row : Row) {e : Ending α} (failed : e.isOk = false)
      (after : RowStream) :
    Course size (stream good ++ .ok row :: after) (paced size good ++ [.pull (.ok row), .map row e])
      (e.map fun _ => ()) (good.length + 1) (good.length / size)
  | rejected {good : List (Row × α)} {j : Nat} (whole : good.length = (j + 1) * size)
      {e : Ending Unit} (failed : e.isOk = false) (after : RowStream) :
    Course size (stream good ++ after) (full size good j ++ delivered (chunk size good j) e) e
      ((j + 1) * size) (j + 1)

section Pace

variable {size n : Nat} {good : List (Row × α)}

@[simp]
theorem rest_nil (size : Nat) : rest size ([] : List (Row × α)) = [] := List.drop_nil

@[simp]
theorem paced_nil (size : Nat) : paced size ([] : List (Row × α)) = [] := by
  rw [paced, rest_nil, List.length_nil, Nat.zero_div]
  rfl

theorem taken_append (good more : List (Row × α)) : taken (good ++ more) = taken good ++ taken more :=
  List.flatMap_append

theorem full_succ (size : Nat) (good : List (Row × α)) (n : Nat) :
    full size good (n + 1) = full size good n ++ delivered (chunk size good n) (.ok ()) := by
  simp [full, List.range_succ]

theorem length_chunk (h : (n + 1) * size ≤ good.length) : (chunk size good n).length = size := by
  rw [Nat.succ_mul] at h
  rw [chunk, List.length_take, List.length_drop]
  omega

/-- More rows behind a full batch change nothing about it. -/
theorem chunk_append (h : (n + 1) * size ≤ good.length) (more : List (Row × α)) :
    chunk size (good ++ more) n = chunk size good n := by
  rw [Nat.succ_mul] at h
  rw [chunk, chunk, List.drop_append_of_le_length (by omega), List.take_append_of_le_length]
  rw [List.length_drop]
  omega

theorem mul_le_of_succ {k : Nat} (h : (n + 1) * size ≤ k) : n * size ≤ k :=
  Nat.le_trans (Nat.mul_le_mul_right size n.le_succ) h

theorem full_append (more : List (Row × α)) : ∀ {n : Nat}, n * size ≤ good.length →
    full size (good ++ more) n = full size good n
  | 0, _ => rfl
  | n + 1, h => by
    rw [full_succ, full_succ, full_append more (mul_le_of_succ h), chunk_append h]

theorem length_rest (size : Nat) (good : List (Row × α)) :
    (rest size good).length = good.length % size := by
  rw [rest, List.length_drop, Nat.mod_eq_sub_div_mul]

/-- A row that does not fill its batch is taken, and that is all. -/
theorem paced_part (h : (rest size good).length + 1 < size) (x : Row × α) :
    paced size (good ++ [x]) = paced size good ++ taken [x] ∧
      rest size (good ++ [x]) = rest size good ++ [x] := by
  rw [length_rest] at h
  have hlength : (good ++ [x]).length = good.length + 1 := by simp
  have hsame : (good ++ [x]).length / size = good.length / size := by
    have hsplit := Nat.div_add_mod' good.length size
    rw [hlength]
    refine Nat.div_eq_of_lt_le ?_ ?_
    · omega
    · rw [Nat.succ_mul]
      omega
  have hrest : rest size (good ++ [x]) = rest size good ++ [x] := by
    rw [rest, hsame, List.drop_append_of_le_length (Nat.div_mul_le_self ..)]
    rfl
  refine ⟨?_, hrest⟩
  rw [paced, hrest, hsame, full_append [x] (Nat.div_mul_le_self ..), taken_append, paced,
    List.append_assoc]

/-- A row that fills its batch: how many rows there are then, and which of them the batch is. -/
theorem chunk_full (h : (rest size good).length + 1 = size) (x : Row × α) :
    (good ++ [x]).length = (good.length / size + 1) * size ∧
      chunk size (good ++ [x]) (good.length / size) = rest size good ++ [x] := by
  have hsplit := Nat.div_add_mod' good.length size
  rw [← length_rest] at hsplit
  refine ⟨?_, ?_⟩
  · rw [List.length_append, List.length_singleton, Nat.succ_mul]
    omega
  · have hdrop : (good ++ [x]).drop (good.length / size * size) = rest size good ++ [x] := by
      rw [List.drop_append_of_le_length (Nat.div_mul_le_self ..)]
      rfl
    rw [chunk, hdrop, List.take_of_length_le]
    rw [List.length_append, List.length_singleton]
    omega

/-- The beats of a row that fills its batch come behind those of the rows before it. -/
theorem full_delivered (size : Nat) (good : List (Row × α)) (x : Row × α) (e : Ending Unit) :
    full size good (good.length / size) ++ delivered (rest size good ++ [x]) e =
      paced size good ++ [.pull (.ok x.1), .map x.1 (.ok x.2),
        .hand ((rest size good).map Prod.snd ++ [x.2]) e] := by
  rw [delivered, taken_append, paced, List.map_append, List.append_assoc, List.append_assoc]
  rfl

/-- A row that fills its batch is taken, and then the batch is handed over. -/
theorem paced_full (hsize : 0 < size) (h : (rest size good).length + 1 = size) (x : Row × α) :
    paced size (good ++ [x]) = paced size good ++ [.pull (.ok x.1), .map x.1 (.ok x.2),
        .hand ((rest size good).map Prod.snd ++ [x.2]) (.ok ())] ∧
      rest size (good ++ [x]) = [] := by
  obtain ⟨hlength, hchunk⟩ := chunk_full h x
  have hcount : (good ++ [x]).length / size = good.length / size + 1 := by
    rw [hlength, Nat.mul_div_cancel _ hsize]
  have hrest : rest size (good ++ [x]) = [] := by
    rw [rest, hcount, ← hlength, List.drop_length]
  refine ⟨?_, hrest⟩
  rw [paced, hrest, hcount, full_succ, hchunk, full_append [x] (Nat.div_mul_le_self ..),
    ← full_delivered]
  exact List.append_nil _

end Pace

/-! ### What a course comes to -/

section Counts

variable {size n : Nat} {good : List (Row × α)}

theorem counted_taken : ∀ good : List (Row × α),
    (taken good).countP isPull = good.length ∧ (taken good).countP isHand = 0
  | [] => ⟨rfl, rfl⟩
  | x :: good => by
    obtain ⟨hpulls, hcalls⟩ := counted_taken good
    simp only [taken, List.flatMap_cons, List.countP_append] at hpulls hcalls ⊢
    rw [hpulls, hcalls, Nat.add_comm]
    exact ⟨rfl, rfl⟩

theorem counted_delivered (batch : List (Row × α)) (e : Ending Unit) :
    (delivered batch e).countP isPull = batch.length ∧ (delivered batch e).countP isHand = 1 := by
  obtain ⟨hpulls, hcalls⟩ := counted_taken batch
  rw [delivered, List.countP_append, List.countP_append, hpulls, hcalls]
  exact ⟨rfl, rfl⟩

theorem counted_full : ∀ {n : Nat}, n * size ≤ good.length →
    (full size good n).countP isPull = n * size ∧ (full size good n).countP isHand = n
  | 0, _ => by simp [full]
  | n + 1, h => by
    obtain ⟨hpulls, hcalls⟩ := counted_full (mul_le_of_succ h)
    obtain ⟨hbatch, hcall⟩ := counted_delivered (chunk size good n) (.ok ())
    rw [full_succ, List.countP_append, List.countP_append, hpulls, hcalls, hbatch, hcall,
      length_chunk h, Nat.succ_mul]
    exact ⟨rfl, rfl⟩

theorem counted_paced (size : Nat) (good : List (Row × α)) :
    (paced size good).countP isPull = good.length ∧
      (paced size good).countP isHand = good.length / size := by
  obtain ⟨hpulls, hcalls⟩ := @counted_full _ size good _ (Nat.div_mul_le_self good.length size)
  obtain ⟨hrest, hnone⟩ := counted_taken (rest size good)
  rw [paced, List.countP_append, List.countP_append, hpulls, hcalls, hrest, hnone, length_rest,
    Nat.div_add_mod']
  exact ⟨rfl, rfl⟩

/-- The numbers of a course are those of its beats. -/
theorem Course.counted {items : RowStream} {beats : List (Beat α)} {e : Ending Unit}
    {pulls calls : Nat} (h : Course size items beats e pulls calls) :
    beats.countP isPull = pulls ∧ beats.countP isHand = calls := by
  cases h with
  | finished => exact counted_paced ..
  | remainder | unreadable | unmapped =>
    simp [List.countP_append, counted_paced, List.countP_cons, isPull, isHand]
  | @rejected good j whole =>
    have hle : (j + 1) * size ≤ good.length := Nat.le_of_eq whole.symm
    obtain ⟨hpulls, hcalls⟩ := counted_full (mul_le_of_succ hle)
    obtain ⟨hbatch, hcall⟩ := counted_delivered (chunk size good j) e
    rw [List.countP_append, List.countP_append, hpulls, hcalls, hbatch, hcall, length_chunk hle,
      Nat.succ_mul]
    exact ⟨rfl, rfl⟩

/-- A course takes something off a result in which there is something. -/
theorem Course.pulls_pos (hsize : 0 < size) {items : RowStream} {beats : List (Beat α)} {e : Ending Unit}
    {pulls calls : Nat} (h : Course size items beats e pulls calls) (hitems : items ≠ []) :
    0 < pulls := by
  cases h with
  | finished | remainder =>
    rw [List.length_pos_iff]
    rintro rfl
    exact hitems rfl
  | unreadable | unmapped => exact Nat.succ_pos _
  | rejected => exact Nat.mul_pos (Nat.succ_pos _) hsize

theorem hand_notMem_taken (good : List (Row × α)) (batch : List α) (e : Ending Unit) :
    .hand batch e ∉ taken good := by
  simp [taken]

theorem length_of_mem_delivered {rows : List (Row × α)} {e e' : Ending Unit} {batch : List α}
    (h : .hand batch e' ∈ delivered rows e) : batch.length = rows.length := by
  rcases List.mem_append.mp h with h | h
  · exact absurd h (hand_notMem_taken rows batch e')
  · cases List.mem_singleton.mp h
    rw [List.length_map]

theorem length_of_mem_full (hn : n * size ≤ good.length) {batch : List α} {e : Ending Unit}
    (h : .hand batch e ∈ full size good n) : batch.length = size := by
  obtain ⟨j, hj, h⟩ := List.mem_flatMap.mp h
  have hle : (j + 1) * size ≤ good.length :=
    Nat.le_trans (Nat.mul_le_mul_right size (List.mem_range.mp hj)) hn
  rw [length_of_mem_delivered h, length_chunk hle]

theorem length_of_mem_paced {batch : List α} {e : Ending Unit} (h : .hand batch e ∈ paced size good) :
    batch.length = size := by
  rcases List.mem_append.mp h with h | h
  · exact length_of_mem_full (Nat.div_mul_le_self ..) h
  · exact absurd h (hand_notMem_taken _ batch e)

/-- No batch is empty, and none is too long. -/
theorem Course.sized (hsize : 0 < size) {items : RowStream} {beats : List (Beat α)} {e : Ending Unit}
    {pulls calls : Nat} (h : Course size items beats e pulls calls) {batch : List α}
    {e' : Ending Unit} (hb : .hand batch e' ∈ beats) : 0 < batch.length ∧ batch.length ≤ size := by
  have hpaced : ∀ {good : List (Row × α)}, .hand batch e' ∈ paced size good →
      0 < batch.length ∧ batch.length ≤ size := by
    intro good h
    rw [length_of_mem_paced h]
    exact ⟨hsize, Nat.le_refl size⟩
  cases h with
  | finished => exact hpaced hb
  | @remainder good part =>
    rcases List.mem_append.mp hb with hb | hb
    · exact hpaced hb
    · cases List.mem_singleton.mp hb
      rw [List.length_map, length_rest]
      refine ⟨Nat.pos_of_ne_zero fun h => part (Nat.dvd_of_mod_eq_zero h), ?_⟩
      exact Nat.le_of_lt (Nat.mod_lt _ hsize)
  | unreadable | unmapped =>
    rcases List.mem_append.mp hb with hb | hb
    · exact hpaced hb
    · simp at hb
  | @rejected good j whole =>
    have hle : (j + 1) * size ≤ good.length := Nat.le_of_eq whole.symm
    have hbatch : batch.length = size := by
      rcases List.mem_append.mp hb with hb | hb
      · exact length_of_mem_full (mul_le_of_succ hle) hb
      · rw [length_of_mem_delivered hb, length_chunk hle]
    rw [hbatch]
    exact ⟨hsize, Nat.le_refl size⟩

end Counts

/-! ### The run -/

section Along

variable {width size : Nat} {m : Row → Callback σ α} {handler : List α → Callback σ Unit}

theorem Played.append {env env₁ env' : σ} {beats more : List (Beat α)}
    (h : Played m handler env beats env₁) (h' : Played m handler env₁ more env') :
    Played m handler env (beats ++ more) env' := by
  induction h with
  | done => exact h'
  | pull item _ ih => exact .pull item (ih h')
  | map answer _ ih => exact .map answer (ih h')
  | hand answer _ ih => exact .hand answer (ih h')

/-- A delivery goes on from rows that went well as a course does that begins with them. -/
def Along (size : Nat) (m : Row → Callback σ α) (handler : List α → Callback σ Unit)
    (good : List (Row × α)) (items : RowStream) (w : World σ) (r : Ending Unit × World σ) : Prop :=
  ∃ beats pulls calls, Course size (stream good ++ items) (paced size good ++ beats) r.1 pulls calls ∧
    Played m handler w.env beats r.2.env ∧ r.2.trace = w.trace ++ beats.filterMap event?

variable {good : List (Row × α)} {items : RowStream} {w w₁ : World σ} {r : Ending Unit × World σ}

/-- One more row has gone well. -/
theorem Along.after {x : Row × α} {front : List (Beat α)}
    (h : Along size m handler (good ++ [x]) items w₁ r)
    (hpaced : paced size (good ++ [x]) = paced size good ++ front)
    (hplayed : Played m handler w.env front w₁.env)
    (htrace : w₁.trace = w.trace ++ front.filterMap event?) :
    Along size m handler good (.ok x.1 :: items) w r := by
  obtain ⟨beats, pulls, calls, hcourse, hrest, htail⟩ := h
  refine ⟨front ++ beats, pulls, calls, ?_, hplayed.append hrest, ?_⟩
  · rw [hpaced, List.append_assoc] at hcourse
    simpa [stream] using hcourse
  · rw [htail, htrace, List.filterMap_append, List.append_assoc]

/-- A row that fills its batch is seen to be taken, and the batch to be handed over. -/
theorem events_row (row : Row) (a : α) (batch : List α) (e : Ending Unit) :
    [pull (.ok row), map row (.ok a), hand batch e].filterMap event? =
      [.pulled true, .batch batch.length] := rfl

theorem length_held (size : Nat) (good : List (Row × α)) (a : α) :
    ((rest size good).map Prod.snd ++ [a]).length = (rest size good).length + 1 := by
  rw [List.length_append, List.length_map, List.length_singleton]

/-- What becomes of a delivery when the next row cannot be mapped. -/
theorem along_unmapped {row : Row} {e : Ending α} {env : σ} (failed : e.isOk = false)
    (hmap : m row w.env = (e, env)) (good : List (Row × α)) (items : RowStream) (held : List α)
    (b : Backend σ) :
    Along size m handler good (.ok row :: items) w
      (Context.deliver width size (fun row => Run.callback (m row)) handler held (.ok row :: items) b
        w) := by
  have hrun : Context.deliver width size (fun row => Run.callback (m row)) handler held
      (.ok row :: items) b w = (e.map fun _ => (), ⟨env, w.trace ++ [.pulled true], w.granted⟩) := by
    simp only [Context.deliver, Run.bind_apply, Run.emit_apply, Run.callback_apply, hmap]
    cases e with
    | ok a => cases failed
    | error f | panic p => rfl
  rw [hrun]
  exact ⟨_, _, _, .unmapped good row failed items, .pull (.ok row) (.map hmap (.done env)), rfl⟩

/-- A delivery in which a row is mapped well, and then the batch is handed over if that is full. -/
theorem deliver_row (hroom : HasRoom width size) {row : Row} {a : α} {env : σ}
    (hmap : m row w.env = (.ok a, env)) (held : List α) (items : RowStream) (b : Backend σ) :
    Context.deliver width size (fun row => Run.callback (m row)) handler held (.ok row :: items) b w =
      if (held ++ [a]).length = size then
        match handler (held ++ [a]) env with
        | (.ok (), env₁) =>
          Context.deliver width size (fun row => Run.callback (m row)) handler [] items b
            ⟨env₁, w.trace ++ [.pulled true, .batch size], w.granted⟩
        | (e, env₁) => (e, ⟨env₁, w.trace ++ [.pulled true, .batch size], w.granted⟩)
      else Context.deliver width size (fun row => Run.callback (m row)) handler (held ++ [a]) items b
        ⟨env, w.trace ++ [.pulled true], w.granted⟩ := by
  simp only [Context.deliver, Run.bind_apply, Run.emit_apply, Run.callback_apply, hmap]
  split
  · next hfull =>
    simp only [Run.reserve_eq hroom, Context.handOver, Run.bind_apply, Run.pure_apply, Run.emit_apply,
      Run.callback_apply, hfull, List.append_assoc]
    rcases handler (held ++ [a]) env with ⟨_ | _ | _, env₁⟩ <;> rfl
  · rfl

/-- What becomes of a delivery when the handler fails at the batch that the next row fills. -/
theorem along_rejected (hfull : (rest size good).length + 1 = size) {row : Row} {a : α}
    {e : Ending Unit} {env env₁ : σ} (failed : e.isOk = false) (hmap : m row w.env = (.ok a, env))
    (hhand : handler ((rest size good).map Prod.snd ++ [a]) env = (e, env₁)) (items : RowStream) :
    Along size m handler good (.ok row :: items) w
      (e, ⟨env₁, w.trace ++ [.pulled true, .batch size], w.granted⟩) := by
  obtain ⟨hlength, hchunk⟩ := chunk_full hfull (row, a)
  have hcourse := Course.rejected hlength failed items
  rw [hchunk, full_append _ (Nat.div_mul_le_self ..), full_delivered, stream, List.map_append,
    List.append_assoc] at hcourse
  refine ⟨_, _, _, hcourse, .pull _ (.map hmap (.hand hhand (.done _))), ?_⟩
  rw [events_row, length_held, hfull]

/-- Delivery keeps the pace for as long as everything goes well. The rows of the result move over to
those that went well one by one, and what is held is what they leave behind their full batches. -/
theorem along_deliver (hsize : 0 < size) (hroom : HasRoom width size) (m : Row → Callback σ α)
    (handler : List α → Callback σ Unit) (b : Backend σ) :
    ∀ (items : RowStream) (good : List (Row × α)) (w : World σ),
      Along size m handler good items w (Context.deliver width size (fun row => Run.callback (m row))
        handler ((rest size good).map Prod.snd) items b w)
  | [], good, w => by
    rw [Context.deliver]
    by_cases hnil : rest size good = []
    · have hwhole : size ∣ good.length := by
        rw [Nat.dvd_iff_mod_eq_zero, ← length_rest, hnil, List.length_nil]
      have hcourse := Course.finished hwhole
      rw [← List.append_nil (stream good), ← List.append_nil (paced size good)] at hcourse
      rw [hnil]
      exact ⟨[], _, _, hcourse, .done w.env, (List.append_nil w.trace).symm⟩
    · have hpart : ¬ size ∣ good.length := by
        rwa [Nat.dvd_iff_mod_eq_zero, ← length_rest, List.length_eq_zero_iff]
      have hcourse := Course.remainder hpart (handler ((rest size good).map Prod.snd) w.env).1
      rw [← List.append_nil (stream good)] at hcourse
      rw [if_neg (by simpa using hnil)]
      exact ⟨_, _, _, hcourse, .hand rfl (.done _), rfl⟩
  | .error f :: items, good, w =>
    ⟨_, _, _, .unreadable good f items, .pull (.error f) (.done w.env), rfl⟩
  | .ok row :: items, good, w => by
    rcases hmap : m row w.env with ⟨e, env⟩
    cases e with
    | error f => exact along_unmapped rfl hmap good items _ b
    | panic p => exact along_unmapped rfl hmap good items _ b
    | ok a =>
      rw [deliver_row hroom hmap, length_held]
      split
      · next hfull =>
        obtain ⟨hpaced, hnil⟩ := paced_full hsize hfull (row, a)
        rcases hhand : handler ((rest size good).map Prod.snd ++ [a]) env with ⟨e, env₁⟩
        cases e with
        | error f => exact along_rejected hfull rfl hmap hhand items
        | panic p => exact along_rejected hfull rfl hmap hhand items
        | ok u =>
          -- nothing is held after a full batch
          have ih := along_deliver hsize hroom m handler b items (good ++ [(row, a)])
            ⟨env₁, w.trace ++ [.pulled true, .batch size], w.granted⟩
          rw [hnil] at ih
          refine ih.after hpaced (.pull _ (.map hmap (.hand hhand (.done _)))) ?_
          rw [events_row, length_held, hfull]
      · next hopen =>
        -- the batch is still open: what is held of it is never a full one
        have hheld : (rest size good).length < size := by
          rw [length_rest]
          exact Nat.mod_lt _ hsize
        have hpart : (rest size good).length + 1 < size := by omega
        obtain ⟨hpaced, hrest⟩ := paced_part hpart (row, a)
        have ih := along_deliver hsize hroom m handler b items (good ++ [(row, a)])
          ⟨env, w.trace ++ [.pulled true], w.granted⟩
        rw [hrest, List.map_append] at ih
        exact ih.after hpaced (.pull _ (.map hmap (.done _))) rfl

end Along

/-- A reader has handed the batches of a result over as a course has it: after the statement nothing is
taken or handed over but by its beats, the mapper and the handler have been called for these alone,
its numbers are those of its beats, and no batch is empty or too long. -/
structure Exact (conn : Connection) (q : Sql) (size : Nat) (m : Row → Callback σ α)
    (handler : List α → Callback σ Unit) (items : RowStream) (env : σ) (w : World σ)
    (r : Ending Unit × World σ) (beats : List (Beat α)) (pulls calls : Nat) : Prop where
  course : Course size items beats r.1 pulls calls
  played : Played m handler env beats r.2.env
  trace : ∃ sent, r.2.trace = w.trace ++ sent ++ beats.filterMap event? ∧
    driverEvents sent = [.called conn (.query q.text q.args) true] ∧
    ∀ e ∈ sent, e.isDelivery = false
  counted : beats.countP isPull = pulls ∧ beats.countP isHand = calls
  sized : ∀ batch e, .hand batch e ∈ beats → 0 < batch.length ∧ batch.length ≤ size

/-- Where a result has an item, it is seen that one has been taken. -/
theorem Exact.exists_pulled {conn : Connection} {q : Sql} {size : Nat} {m : Row → Callback σ α}
    {handler : List α → Callback σ Unit} {items : RowStream} {env : σ} {w : World σ}
    {r : Ending Unit × World σ} {beats : List (Beat α)} {pulls calls : Nat}
    (h : Exact conn q size m handler items env w r beats pulls calls) (hsize : 0 < size)
    (hitems : items ≠ []) : ∃ ok, .pulled ok ∈ r.2.trace := by
  have hpulls : 0 < beats.countP isPull := by
    rw [h.counted.1]
    exact h.course.pulls_pos hsize hitems
  obtain ⟨beat, hbeat, hpull⟩ := List.countP_pos_iff.mp hpulls
  obtain ⟨sent, htrace, -, -⟩ := h.trace
  rw [htrace]
  cases beat with
  | pull item => exact ⟨_, List.mem_append_right _ (List.mem_filterMap.mpr ⟨_, hbeat, rfl⟩)⟩
  | map | hand => cases hpull

/-- A reader has ended between its statement and the first row, since no batch has room: nothing has been
taken, mapped or handed over. -/
structure Unbegun (conn : Connection) (q : Sql) (env : σ) (w : World σ) (r : Ending Unit × World σ) :
    Prop where
  ending : r.1 = .panic "capacity overflow"
  env : r.2.env = env
  trace : ∃ sent, r.2.trace = w.trace ++ sent ∧
    driverEvents sent = [.called conn (.query q.text q.args) true] ∧
    ∀ e ∈ sent, e.isDelivery = false

end Beat

namespace Context

variable {tc : Context σ} {conn : Connection} {q : Sql} {width size : Nat} {b : Backend σ} {w : World σ}
  {items : RowStream} {env : σ}

/-- A query that is answered is one call, and none of its rows has been taken. -/
theorem queryStream_run (h : tc.check = .ok conn)
    (hquery : b.query conn q.text q.args w.env = (.ok items, env)) :
    ∃ sent, tc.queryStream q b w = (.ok items, ⟨env, w.trace ++ sent, w.granted⟩) ∧
      driverEvents sent = [.called conn (.query q.text q.args) true] ∧
      ∀ e ∈ sent, e.isDelivery = false := by
  rw [queryStream_eq h]
  have hcall : ∀ trace, Run.query conn q.text q.args b ⟨w.env, trace, w.granted⟩ =
      (.ofExcept (.ok items),
        ⟨env, trace ++ [.called conn (.query q.text q.args) true], w.granted⟩) := by
    intro trace
    simp [Run.query, Run.call, Run.succeeded, hquery, Ending.ofExcept]
  obtain ⟨sent, hrun, hsent⟩ := tc.traced_run q.text q.args hcall
  refine ⟨sent, hrun, hsent Event.isDriver fun _ => rfl, fun e he => ?_⟩
  have hnone := hsent Event.isDelivery fun _ => rfl
  simpa using List.filter_eq_nil_iff.mp hnone e he

/-- Binding a row touches nothing. -/
theorem bindRow_eq (t : Table) (columns : List String) :
    (bindRow t columns (fresh t) : Row → Run σ Record) =
      fun row => Run.callback fun env => (.ofExcept (bound t columns row), env) := by
  funext row b w
  simp only [bindRow, bound, fresh, Run.bind_apply, Run.callback_apply]
  rcases t.bind t.blank columns row.cells with ⟨r, outcome⟩
  cases outcome <;> rfl

section Statement

variable (h : tc.check = .ok conn) (hsize : 0 < size) (m : Row → Callback σ α)
  (handler : List α → Callback σ Unit) (hquery : b.query conn q.text q.args w.env = (.ok items, env))

include h hsize hquery

/-- The batches of a statement are handed over exactly if there is room for them. -/
theorem exists_exact (hroom : HasRoom width size) :
    ∃ beats pulls calls, Beat.Exact conn q size m handler items env w
      (tc.batches width size (.ok (q, fun row => Run.callback (m row))) handler b w)
      beats pulls calls := by
  obtain ⟨sent, hrun, hsent, hquiet⟩ := queryStream_run h hquery
  have halong := Beat.along_deliver hsize hroom m handler b items [] ⟨env, w.trace ++ sent, w.granted⟩
  rw [Beat.rest_nil] at halong
  obtain ⟨beats, pulls, calls, hcourse, hplayed, htrace⟩ := halong
  rw [Beat.paced_nil] at hcourse
  rw [batches_eq_of_room h hsize hroom, Run.bind_apply, hrun]
  exact ⟨beats, pulls, calls, hcourse, hplayed, ⟨sent, htrace, hsent, hquiet⟩, hcourse.counted,
    fun _ _ => hcourse.sized hsize⟩

theorem unbegun_of_not_room (hroom : ¬ HasRoom width size) :
    Beat.Unbegun conn q env w
      (tc.batches width size (.ok (q, fun row => Run.callback (m row))) handler b w) := by
  obtain ⟨sent, hrun, hsent, hquiet⟩ := queryStream_run h hquery
  rw [batches_eq h hsize, Run.reserve_eq_panic hroom, Run.bind_apply, hrun]
  exact ⟨rfl, rfl, sent, rfl, hsent, hquiet⟩

end Statement

/-- Batches that there can be room for are handed over exactly, whatever the result, the mapper and the
handler are: of mapped rows and of a table's records. Longer ones are not begun, whatever the result is:
the reader panics as soon as its statement has been answered. -/
theorem batches_exact (h : tc.check = .ok conn) (hsize : 0 < size) (width : Nat) (b : Backend σ)
    (w : World σ) :
    (∀ q (mapper : Row → Callback σ α) handler items env,
      b.query conn q.text q.args w.env = (.ok items, env) →
      let r := tc.queryRawBatches q width size mapper handler b w
      (HasRoom width size → ∃ beats pulls calls,
        Beat.Exact conn q size mapper handler items env w r beats pulls calls) ∧
      (¬ HasRoom width size → Beat.Unbegun conn q env w r)) ∧
    ∀ t matcher view orders limit handler stmt items env,
      Statement.select t tc.scope
        { matcher := matcher, view := view, pager := limitPager limit, orders := orders } = .ok stmt →
      b.query conn stmt.sql.text stmt.sql.args w.env = (.ok items, env) →
      let r := tc.queryBatches t matcher view orders limit width size handler b w
      (HasRoom width size → ∃ beats pulls calls, Beat.Exact conn stmt.sql size
        (fun row env => (.ofExcept (bound t stmt.columns row), env)) handler items env w r
        beats pulls calls) ∧
      (¬ HasRoom width size → Beat.Unbegun conn stmt.sql env w r) := by
  refine ⟨?_, ?_⟩
  · intro q mapper handler items env hquery
    exact ⟨exists_exact h hsize mapper handler hquery, unbegun_of_not_room h hsize mapper handler hquery⟩
  · intro t matcher view orders limit handler stmt items env hs hquery
    rw [queryBatches, hs, Except.map, bindRow_eq]
    exact ⟨exists_exact h hsize _ handler hquery, unbegun_of_not_room h hsize _ handler hquery⟩

/-- Three rows and then a failure, in batches of two. If the handler takes the first batch well, that
failure is the answer and the third row is never handed over; if it does not, the third row is never
taken. -/
theorem batches_exact_stopped :
    let State := Scripted Nat
    let mapper : Row → Callback State Nat := fun _ env =>
      (.ok env.own, { env with own := env.own + 1 })
    let accept : List Nat → Callback State Unit := fun _ env => (.ok (), env)
    let refuse : List Record → Callback State Unit := fun _ env => (.error (.other "full"), env)
    let rows : RowStream :=
      [7, 8, 9].map (fun n => .ok ⟨["id"], [.int n]⟩) ++ [.error (.other "cut")]
    let w : World State := { env := ⟨[{ results := [rows] }], 0⟩ }
    let q : Sql := ⟨"select id from t_log", []⟩
    let env := (Scripted.backend.query ⟨0, 0⟩ q.text q.args w.env).2
    let t : Table := ⟨"t_log", ["id"], some "id", [("id", .int .i64)], none⟩
    let tc : Context State :=
      { style := .none, status := .init, scope := { traceId := "" }, logSql := true,
        connection := some ⟨0, 0⟩, interceptors := [] }
    let cutShort := tc.queryRawBatches q 8 2 mapper accept Scripted.backend w
    let rejected := tc.queryBatches t none none [] none 8 2 refuse Scripted.backend w
    tc.check = .ok ⟨0, 0⟩ ∧ 0 < 2 ∧ HasRoom 8 2 ∧
      (∃ beats pulls calls,
        Beat.Exact ⟨0, 0⟩ q 2 mapper accept rows env w cutShort beats pulls calls) ∧
      cutShort.1 = .error (.other "cut") ∧ cutShort.2.trace.filter Event.isDelivery =
        [.pulled true, .pulled true, .batch 2, .pulled true, .pulled false] ∧
      (∃ beats pulls calls, Beat.Exact ⟨0, 0⟩ q 2 (fun row env => (.ofExcept (bound t ["id"] row), env))
        refuse rows env w rejected beats pulls calls) ∧
      rejected.1 = .error (.other "full") ∧ rejected.2.trace.filter Event.isDelivery =
        [.pulled true, .pulled true, .batch 2] := by
  intro State mapper accept refuse rows w q env t tc cutShort rejected
  have hopen : tc.check = .ok ⟨0, 0⟩ := rfl
  have hroom : HasRoom 8 2 := by decide
  have hselect : Statement.select t tc.scope {} = .ok ⟨q, ["id"]⟩ := rfl
  obtain ⟨hraw, hrecords⟩ :=
    batches_exact (α := Nat) hopen (show 0 < 2 by decide) 8 Scripted.backend w
  exact ⟨hopen, by decide, hroom, (hraw q mapper accept rows env rfl).1 hroom, by decide +kernel,
    by decide +kernel, (hrecords t none none [] none refuse _ rows env hselect rfl).1 hroom,
    by decide +kernel, by decide +kernel⟩

/-- One row, and batches that there is no room for: the reader panics before it has taken the row, so
that it is not handed over exactly. -/
theorem batches_without_room :
    let State := Scripted Unit
    let accept : List Record → Callback State Unit := fun _ env => (.ok (), env)
    let rows : RowStream := [.ok ⟨["id"], [.int 7]⟩]
    let w : World State := { env := ⟨[{ results := [rows] }], ()⟩ }
    let t : Table := ⟨"t_log", ["id"], some "id", [("id", .int .i64)], none⟩
    let tc : Context State :=
      { style := .none, status := .init, scope := { traceId := "" }, logSql := false,
        connection := some ⟨0, 0⟩, interceptors := [] }
    let r := tc.queryBatches t none none [] none 24 9223372036854775807 accept Scripted.backend w
    tc.check = .ok ⟨0, 0⟩ ∧ ¬ HasRoom 24 9223372036854775807 ∧ r.1 = .panic "capacity overflow" ∧
      r.2.trace = [.called ⟨0, 0⟩ (.query "select id from t_log" []) true] ∧
      ∀ q m env beats pulls calls,
        ¬ Beat.Exact ⟨0, 0⟩ q 9223372036854775807 m accept rows env w r beats pulls calls := by
  intro State accept rows w t tc r
  have htrace : r.2.trace = [.called ⟨0, 0⟩ (.query "select id from t_log" []) true] := by
    decide +kernel
  refine ⟨rfl, by decide, by decide +kernel, htrace, ?_⟩
  intro q m env beats pulls calls hexact
  obtain ⟨ok, hpulled⟩ := hexact.exists_pulled (by decide) (List.cons_ne_nil _ _)
  rw [htrace] at hpulled
  cases List.mem_singleton.mp hpulled

end Context

end TableAccess
