import TableAccess.Proofs.Sql.Splicing
import TableAccess.Proofs.Sql.Windows

/-!
Selects read back.

The text of a select without condition is cut into words, and everything it asks for is read off them:
the columns, the table, the order with its directions, the page and the lock. Names may be any words,
those of clauses included. Each is where only a name is read, and what may follow a list of names is
told from another name or direction by its first word. A plain identifier has no blank and no comma in
it, so no column can pass for anything else.
-/

namespace TableAccess

/-- What a select without condition asks for. -/
structure Listing where
  table : String
  columns : List String
  orders : List Order
  window : Option Window
  lock : Option RowLock
  deriving DecidableEq

namespace Listing

open Written

/-! ### Reading -/

/-- Whether a name is followed by its direction, where names may have one, and what follows. -/
def direction (directed : Bool) : List Piece → Bool × List Piece
  | .blank :: .word d :: ps =>
    if directed ∧ d = "desc".toList then (true, ps) else (false, .blank :: .word d :: ps)
  | ps => (false, ps)

theorem length_direction {directed descending : Bool} {p q : Piece} {ps rest : List Piece}
    (h : direction directed ps = (descending, q :: rest)) : rest.length < (p :: ps).length := by
  rw [direction.eq_def] at h
  split at h
  · split at h <;> cases h <;> simp only [List.length_cons] <;> omega
  · cases h
    simp only [List.length_cons]
    omega

/-- Names with commas between them and their directions, and what follows. -/
def names? (directed : Bool) (ps : List Piece) : Option (List Order × List Piece) :=
  match ps with
  | .word c :: ps =>
    match _h : direction directed ps with
    | (descending, .comma :: rest) =>
      (names? directed rest).map (Prod.map (⟨String.ofList c, descending⟩ :: ·) id)
    | (descending, rest) => some ([⟨String.ofList c, descending⟩], rest)
  | _ => none
termination_by ps.length
decreasing_by exact length_direction ‹_›

/-- The columns, if there are any, and what follows. -/
def optionalColumns (ps : List Piece) : List String × List Piece :=
  match names? false ps with
  | some (names, ps) => (names.map Order.column, ps)
  | none => ([], ps)

/-- The order, if there is one, and what follows. -/
def orders? (ps : List Piece) : Option (List Order × List Piece) :=
  match behind? [.blank, .word "order".toList, .blank, .word "by".toList, .blank] ps with
  | some ps => names? true ps
  | none => some ([], ps)

/-- The window, if there is one, and what follows. -/
def optionalPage (ps : List Piece) : Option Window × List Piece :=
  match page? .assembled ps with
  | some (w, ps) => (some w, ps)
  | none => (none, ps)

/-- The lock, or none if nothing is left. -/
def lock? (ps : List Piece) : Option (Option RowLock) :=
  [none, some .wait, some .skipLocked].find? fun lock : Option RowLock =>
    ps = cut ((lock.map RowLock.text).getD "").toList

/-- What the whole of a text asks for. -/
def read? (text : String) : Option Listing := do
  let ps ← behind? [.word "select".toList, .blank] (cut text.toList)
  let (columns, ps) := optionalColumns ps
  match ← behind? [.blank, .word "from".toList, .blank] ps with
  | .word table :: ps =>
    let (orders, ps) ← orders? ps
    let (window, ps) := optionalPage ps
    let lock ← lock? ps
    return ⟨String.ofList table, columns, orders, window, lock⟩
  | _ => none

/-! ### Names -/

variable {words : List String} {rest : List Char}

/-- A plain identifier is one word. -/
theorem cut_name {name : String} (h : Ident.isPlain name = true) (hrest : Apart rest) :
    cut (name.toList ++ rest) = .word name.toList :: cut rest := by
  refine cut_chars ?_ (fun c => Ident.chars_of_isPlain h) hrest
  obtain ⟨first, others, hname, -⟩ := Ident.exists_start_of_isPlain h
  rw [hname]
  exact List.cons_ne_nil first others

/-- The pieces of a direction. -/
def directionPieces (descending : Bool) : List Piece :=
  if descending then [.blank, .word "desc".toList] else []

theorem cut_order {o : Order} (h : Ident.isPlain o.column = true) (hrest : Apart rest) :
    cut ((Statement.orderText o).toList ++ rest) =
      .word o.column.toList :: (directionPieces o.descending ++ cut rest) := by
  rw [Statement.orderText, String.toList_append, List.append_assoc]
  cases o.descending with
  | false => exact cut_name h hrest
  | true =>
    have hdesc : Apart (" desc".toList ++ rest) := apart_blank _
    refine (cut_name h hdesc).trans ?_
    rw [directionPieces, if_pos rfl, cut_append hrest]
    rfl

section Names

variable {directed : Bool} {o : Order} {ps : List Piece}

/-- A direction is read where there is one, and only there. -/
theorem direction_pieces {descending : Bool} (h : descending = true → directed = true)
    (hps : ∀ qs, ps = .blank :: .word "desc".toList :: qs → directed = false) :
    direction directed (directionPieces descending ++ ps) = (descending, ps) := by
  cases descending with
  | true =>
    rw [directionPieces, if_pos rfl, List.cons_append, List.cons_append, List.nil_append, direction,
      if_pos ⟨h rfl, rfl⟩]
  | false =>
    rw [directionPieces, if_neg (by decide), List.nil_append, direction.eq_def]
    split
    · next d qs =>
      rw [if_neg]
      rintro ⟨hdirected, rfl⟩
      rw [hps qs rfl] at hdirected
      cases hdirected
    · rfl

/-- Another name follows a comma. -/
theorem names?_comma (h : o.descending = true → directed = true) :
    names? directed (.word o.column.toList :: (directionPieces o.descending ++ .comma :: ps)) =
      (names? directed ps).map (Prod.map (o :: ·) id) := by
  have hcomma : ∀ qs, Piece.comma :: ps = .blank :: .word "desc".toList :: qs → directed = false :=
    nofun
  rw [names?, direction_pieces h hcomma, String.ofList_toList]

/-- No name follows what is no comma. -/
theorem names?_last (h : o.descending = true → directed = true) (hrest : Led words rest)
    (hwords : directed = true → "desc" ∉ words) :
    names? directed (.word o.column.toList :: (directionPieces o.descending ++ cut rest)) =
      some ([o], cut rest) := by
  have hstop : ∀ qs, cut rest = .blank :: .word "desc".toList :: qs → directed = false := by
    intro qs hqs
    rcases hrest.cut with hcut | ⟨w, hw, ps, hcut⟩
    · rw [hcut] at hqs
      cases hqs
    · rw [hcut] at hqs
      simp only [List.cons.injEq, Piece.word.injEq, true_and, String.toList_inj] at hqs
      rw [hqs.1] at hw
      exact Bool.eq_false_iff.mpr fun hdirected => hwords hdirected hw
  rw [names?, direction_pieces h hstop, String.ofList_toList]
  rcases hrest.cut with hcut | ⟨w, -, ps, hcut⟩ <;> rw [hcut]

end Names

/-- A list of names is read as it is written, and reading goes on behind it. -/
theorem names?_written {directed : Bool} {orders : List Order} (hne : orders ≠ [])
    (hplain : ∀ o ∈ orders, Ident.isPlain o.column = true)
    (hdirected : ∀ o ∈ orders, o.descending = true → directed = true) (hrest : Led words rest)
    (hwords : directed = true → "desc" ∉ words) :
    names? directed (cut ((",".intercalate (orders.map Statement.orderText)).toList ++ rest)) =
      some (orders, cut rest) := by
  induction orders with
  | nil => exact absurd rfl hne
  | cons o orders ih =>
    have ho := hplain o (List.mem_cons_self ..)
    have hd := hdirected o (List.mem_cons_self ..)
    cases orders with
    | nil =>
      rw [List.map_singleton, String.intercalate_singleton, cut_order ho hrest.apart]
      exact names?_last hd hrest hwords
    | cons o' orders =>
      have hlater := ih nofun (fun p hp => hplain p (List.mem_cons_of_mem o hp))
        fun p hp => hdirected p (List.mem_cons_of_mem o hp)
      rw [List.map_cons] at hlater
      rw [List.map_cons, List.map_cons, String.intercalate_cons_cons, String.toList_append,
        String.toList_append, List.append_assoc, List.append_assoc]
      have hcomma (cs : List Char) : Apart (",".toList ++ cs) := apart_comma cs
      have hcut (cs : List Char) : cut (",".toList ++ cs) = .comma :: cut cs := rfl
      rw [cut_order ho (hcomma _), hcut, names?_comma hd, hlater]
      rfl

/-! ### The parts of a select -/

/-- Columns are names without directions, and there need not be any. -/
theorem optionalColumns_written {columns : List String}
    (hplain : ∀ c ∈ columns, Ident.isPlain c = true) (hrest : Led ["from"] rest) :
    optionalColumns (cut ((",".intercalate columns).toList ++ rest)) = (columns, cut rest) := by
  cases columns with
  | nil =>
    have hnone : names? false (cut rest) = none := by
      rcases hrest.cut with hcut | ⟨w, -, ps, hcut⟩ <;> rw [hcut, names?.eq_def]
    have htext : (",".intercalate ([] : List String)).toList ++ rest = rest := rfl
    rw [htext, optionalColumns, hnone]
  | cons c columns =>
    let orders : List Order := (c :: columns).map fun c => ⟨c, false⟩
    have htexts : orders.map Statement.orderText = c :: columns := by
      rw [List.map_map]
      refine (List.map_congr_left fun c _ => ?_).trans (List.map_id _)
      exact String.append_empty ..
    have hcolumns : orders.map Order.column = c :: columns := by
      rw [List.map_map]
      exact List.map_id _
    have hread :
        names? false (cut ((",".intercalate (orders.map Statement.orderText)).toList ++ rest)) =
          some (orders, cut rest) :=
      names?_written nofun (by simpa [orders] using hplain) (by simp [orders]) hrest nofun
    rw [htexts] at hread
    rw [optionalColumns, hread]
    exact congrArg (·, cut rest) hcolumns

theorem exists_of_ordering {orders : List Order} {text : String}
    (h : Statement.ordering orders = .ok text) :
    (∀ o ∈ orders, Ident.isPlain o.column = true) ∧ text = if orders.isEmpty then "" else
      " order by " ++ ",".intercalate (orders.map Statement.orderText) := by
  obtain ⟨⟨⟩, hcheck, h⟩ := exists_of_bind_eq_ok h
  cases h
  exact ⟨fun o ho => isPlain_of_checkColumns hcheck _ (List.mem_map_of_mem ho), rfl⟩

/-- An order is read where there is one. -/
theorem orders?_written {orders : List Order} {text : String}
    (h : Statement.ordering orders = .ok text) (hrest : Led ["limit", "for"] rest) :
    orders? (cut (text.toList ++ rest)) = some (orders, cut rest) ∧
      Apart (text.toList ++ rest) := by
  obtain ⟨hplain, rfl⟩ := exists_of_ordering h
  cases orders with
  | nil =>
    have hnone : behind? [.blank, .word "order".toList, .blank, .word "by".toList, .blank]
        (cut rest) = none := by
      rcases hrest.cut with hcut | ⟨w, hw, ps, hcut⟩
      · rw [hcut]
        rfl
      · rw [hcut]
        simp only [List.mem_cons, List.not_mem_nil, or_false] at hw
        rcases hw with rfl | rfl <;> rfl
    rw [List.isEmpty_nil, if_pos rfl, String.toList_empty, List.nil_append, orders?, hnone]
    exact ⟨rfl, hrest.apart⟩
  | cons o orders =>
    let names := ",".intercalate ((o :: orders).map Statement.orderText)
    have hread : names? true (cut (names.toList ++ rest)) = some (o :: orders, cut rest) :=
      names?_written nofun hplain (fun _ _ _ => rfl) hrest fun _ => by decide
    have hcut : cut (" order by ".toList ++ (names.toList ++ rest)) =
        [.blank, .word "order".toList, .blank, .word "by".toList, .blank] ++
          cut (names.toList ++ rest) := rfl
    rw [if_neg (by simp), String.toList_append, List.append_assoc]
    refine ⟨?_, apart_blank _⟩
    rw [hcut, orders?, behind?_append]
    exact hread

/-- A page is read where there is one. -/
theorem optionalPage_written {pager : Option Pager} {text : String}
    (h : Statement.paging pager = .ok text) (lock : Option RowLock) :
    optionalPage (cut (text.toList ++ ((lock.map RowLock.text).getD "").toList)) =
        (pager.map Pager.window, cut ((lock.map RowLock.text).getD "").toList) ∧
      Led ["limit", "for"] (text.toList ++ ((lock.map RowLock.text).getD "").toList) := by
  have hlock := led_lock lock
  cases pager with
  | none =>
    cases h
    generalize ((lock.map RowLock.text).getD "").toList = rest at hlock ⊢
    rw [String.toList_empty, List.nil_append]
    rcases hlock.cut with hcut | ⟨w, hw, ps, hcut⟩
    · refine ⟨?_, hlock.apart, .inl hcut⟩
      rw [hcut]
      rfl
    · obtain rfl := List.mem_singleton.mp hw
      refine ⟨?_, hlock.apart, .inr ⟨"for", by decide, ps, hcut⟩⟩
      rw [hcut]
      rfl
  | some p =>
    obtain ⟨hnumbers, rfl⟩ := paging_eq h
    obtain ⟨hsize, hskipped⟩ := hnumbers p rfl
    have hread := page?_written .assembled hsize hskipped lock
    rw [Option.map_some, Option.getD_some, optionalPage, hread]
    obtain ⟨cs, hlimit⟩ : ∃ cs, (p.written .assembled).toList = " limit ".toList ++ cs := by
      rw [Pager.written]
      split
      · exact ⟨_, String.toList_append⟩
      · simp only [String.toList_append, List.append_assoc]
        exact ⟨_, rfl⟩
    rw [hlimit, List.append_assoc]
    exact ⟨rfl, apart_blank _, .inr ⟨"limit", List.mem_cons_self .., _, cut_limit _⟩⟩

theorem lock?_written (lock : Option RowLock) :
    lock? (cut ((lock.map RowLock.text).getD "").toList) = some lock := by
  match lock with
  | none => rfl
  | some .wait => rfl
  | some .skipLocked => rfl

end Listing

namespace Statement

variable {t : Table} {s : Scope} {q : Selection} {r : SelectStatement}

/-- What a select asks for is read back from its text. -/
theorem read?_select (hname : Ident.isPlain (tableName t s) = true) (hmatcher : q.matcher = none)
    (h : select t s q = .ok r) :
    Listing.read? r.sql.text = some ⟨tableName t s, View.resolve q.view t.columns, q.orders,
      q.pager.map Pager.window, q.lock⟩ := by
  obtain ⟨cond, order, page, hcheck, hcond, horder, hpage, -, hsql⟩ := exists_of_select h
  rw [hmatcher] at hcond
  cases hcond
  obtain ⟨hwindow, hled⟩ := Listing.optionalPage_written hpage q.lock
  obtain ⟨horders, hapart⟩ := Listing.orders?_written horder hled
  have hselect (cs : List Char) :
      Listing.cut ("select ".toList ++ cs) = [.word "select".toList, .blank] ++ Listing.cut cs := rfl
  have hfrom (cs : List Char) : Listing.cut (" from ".toList ++ cs) =
      [.blank, .word "from".toList, .blank] ++ Listing.cut cs := rfl
  have hled (cs : List Char) : Listing.Led ["from"] (" from ".toList ++ cs) :=
    ⟨Listing.apart_blank _, .inr ⟨"from", List.mem_singleton_self _, _, hfrom cs⟩⟩
  have hplain := isPlain_of_checkColumns hcheck
  have hcolumns (cs : List Char) := Listing.optionalColumns_written hplain (hled cs)
  have htext : r.sql.text.toList = "select ".toList ++
      ((",".intercalate (View.resolve q.view t.columns)).toList ++
        (" from ".toList ++ ((tableName t s).toList ++ (order.toList ++
          (page.toList ++ ((q.lock.map RowLock.text).getD "").toList))))) := by
    simp only [hsql, Sql.text_append, Sql.raw, Sql.empty, String.toList_append, String.toList_empty,
      List.append_assoc, List.nil_append]
  rw [Listing.read?, htext, hselect, Listing.behind?_append]
  simp only [Option.bind_eq_bind, Option.bind_some, hcolumns, hfrom, Listing.behind?_append,
    Listing.cut_name hname hapart, horders, hwindow, Listing.lock?_written, String.ofList_toList]
  rfl

/-- The pages of a select are told apart by their windows. -/
theorem pager_of_window {pager pager' : Option Pager} (h : ∀ p ∈ pager, p.Valid)
    (heq : pager.map Pager.window = pager'.map Pager.window) : pager = pager' := by
  cases pager with
  | none =>
    cases pager' with
    | none => rfl
    | some p' => cases heq
  | some p =>
    cases pager' with
    | none => cases heq
    | some p' => rw [Pager.eq_of_window (h p rfl) (Option.some.inj heq)]

/-- Everything that a select without condition asks for can be read back from its text, which is that of
one select with these columns, order, page and lock and with plain names. Two selects with the same text
ask for the same. -/
theorem select_read :
    (∀ (t : Table) (s : Scope) (q : Selection) (r : SelectStatement),
      Ident.isPlain (tableName t s) = true → q.matcher = none → select t s q = .ok r →
      r.columns = View.resolve q.view t.columns ∧
        (∀ c ∈ r.columns ++ q.orders.map Order.column, Ident.isPlain c = true) ∧
        Listing.read? r.sql.text =
          some ⟨tableName t s, r.columns, q.orders, q.pager.map Pager.window, q.lock⟩) ∧
    ∀ (t t' : Table) (s s' : Scope) (q q' : Selection) (r r' : SelectStatement),
      Ident.isPlain (tableName t s) = true → Ident.isPlain (tableName t' s') = true →
      q.matcher = none → q'.matcher = none →
      select t s q = .ok r → select t' s' q' = .ok r' → r.sql.text = r'.sql.text →
      tableName t s = tableName t' s' ∧ r.columns = r'.columns ∧ q.orders = q'.orders ∧
        q.pager = q'.pager ∧ q.lock = q'.lock := by
  have hread (t : Table) (s : Scope) (q : Selection) (r : SelectStatement)
      (hname : Ident.isPlain (tableName t s) = true) (hmatcher : q.matcher = none)
      (h : select t s q = .ok r) : Listing.read? r.sql.text =
        some ⟨tableName t s, r.columns, q.orders, q.pager.map Pager.window, q.lock⟩ := by
    obtain ⟨cond, order, page, -, -, -, -, hcolumns, -⟩ := exists_of_select h
    rw [hcolumns]
    exact read?_select hname hmatcher h
  refine ⟨?_, ?_⟩
  · intro t s q r hname hmatcher h
    obtain ⟨cond, order, page, -, -, -, -, hcolumns, -⟩ := exists_of_select h
    exact ⟨hcolumns, fun c hc => ((splices_select h).1 c hc).1, hread t s q r hname hmatcher h⟩
  · intro t t' s s' q q' r r' hname hname' hmatcher hmatcher' h h' htext
    have heq := hread t s q r hname hmatcher h
    rw [htext, hread t' s' q' r' hname' hmatcher' h'] at heq
    simp only [Option.some.injEq, Listing.mk.injEq] at heq
    obtain ⟨htable, hcolumns, horders, hwindow, hlock⟩ := heq
    obtain ⟨cond, order, page, -, -, -, hpage, -⟩ := exists_of_select h'
    have hpager := pager_of_window (Pager.valid_of_paging hpage) hwindow
    exact ⟨htable.symm, hcolumns.symm, horders.symm, hpager.symm, hlock.symm⟩

/-- Columns named like clauses and directions, with everything that a select can have. -/
theorem select_read_words :
    let t : Table := ⟨"from", ["id"], none, [], none⟩
    let s : Scope := { traceId := "" }
    let q : Selection := ⟨none, some (.only ["from", "limit"]), some ⟨5, 2⟩,
      [⟨"desc", true⟩, ⟨"for", false⟩], some .skipLocked⟩
    let text := "select from,limit from from order by desc desc,for limit 5,5 for update skip locked"
    select t s q = .ok ⟨⟨text, []⟩, ["from", "limit"]⟩ ∧
      Listing.read? text = some ⟨"from", ["from", "limit"], [⟨"desc", true⟩, ⟨"for", false⟩],
        some ⟨5, 5⟩, some .skipLocked⟩ := by
  intro t s q text
  have hselect : select t s q = .ok ⟨⟨text, []⟩, ["from", "limit"]⟩ := rfl
  obtain ⟨-, -, hread⟩ := select_read.1 t s q _ (by decide) rfl hselect
  exact ⟨hselect, hread⟩

end Statement

end TableAccess
