import TableAccess.Proofs.Wire.Codec
import TableAccess.Table

/-!
Records that come back from a table as they were saved.

A field has a type, and the column that it is saved in has one too; `FieldType.suits` says which go
together. A value of the field's type is sent to such a column, received and read into the field, and
it is the same value again: numbers without a sign fit the wider column, and an absent value is told
apart from a document that is null. Of moments only whole microseconds last, and of documents the ones
that are read back from their own text. A record is saved column by column, so it comes back if each of
its columns does, whatever the record that it is read into held before.
-/

namespace TableAccess

/-! ### Fields and their columns -/

instance (t : IntType) (n : Int64) : Decidable (t.Covers n) := inferInstanceAs (Decidable (_ ∧ _))

/-- Whether an integer column holds every number of a type. -/
def ColumnType.covers (type : ColumnType) (t : IntType) : Bool :=
  type.intType?.any fun c => c.least ≤ t.least && t.greatest ≤ c.greatest

theorem ColumnType.exists_of_covers {type : ColumnType} {t : IntType} (h : type.covers t = true) :
    ∃ c, type.intType? = some c ∧ c.least ≤ t.least ∧ t.greatest ≤ c.greatest := by
  rw [covers, Option.any_eq_true] at h
  obtain ⟨c, hc, hbounds⟩ := h
  simp only [Bool.and_eq_true, decide_eq_true_eq] at hbounds
  exact ⟨c, hc, hbounds⟩

namespace FieldType

/-- Whether a field may be empty. -/
def isOptional : FieldType → Bool
  | optional _ => true
  | _ => false

/-- Whether fields of a type are saved in columns of a type. -/
def suits : FieldType → ColumnType → Bool
  | int t, type => type.covers t
  | double, type => type = .float8
  | bool, type => type = .bool
  | text, type => type.isText
  | bytes, type => type = .bytea
  | timestamp, type => type.isMoment
  | date, type => type = .date
  | json, type => type = .json || type = .jsonb
  | uuid, type => type = .uuid
  | optional t, type => !t.isOptional && t.suits type
  | single, _ | any, _ => false

/-- Numbers without a sign are saved in the next wider column; the widest have none. -/
example : suits (.int .u8) .int2 ∧ suits (.int .u16) .int4 ∧ suits (.int .u32) .int8 ∧
    ¬ suits (.int .u16) .int2 ∧ ¬ suits (.int .u64) .int8 := by decide

/-- The values of a type. -/
inductive Has : FieldType → Value → Prop
  | int {t : IntType} {n : Int64} (h : t.Covers n) : Has (.int t) (.int n)
  | single {x : Double} (h : x.throughSingle = x) : Has .single (.float x)
  | double (x : Double) : Has .double (.float x)
  | bool (b : Bool) : Has .bool (.bool b)
  | text (s : String) : Has .text (.text s)
  | bytes (bs : List UInt8) : Has .bytes (.bytes bs)
  | timestamp (t : Timestamp) : Has .timestamp (.timestamp t)
  | date (d : Date) : Has .date (.date d)
  | json (document : Json) : Has .json (.json document)
  | uuid (u : Uuid) : Has .uuid (.uuid u)
  | any (v : Value) : Has .any v
  | absent {t : FieldType} : Has (.optional t) .null
  | present {t : FieldType} {v : Value} (h : Has t v) : Has (.optional t) v

/-- Reading leaves the values of a type as they are. -/
theorem Has.read {t : FieldType} {v : Value} (h : t.Has v) : t.read v = .ok v := by
  induction h with
  | int h =>
    rw [FieldType.read, IntType.narrow_of_covers h]
    rfl
  | single h => rw [FieldType.read, readDouble, Except.map, h]
  | present h ih =>
    rename_i t v
    cases v with
    | null => rfl
    | _ => exact ih
  | _ => rfl

theorem Has.convert {t : FieldType} {v : Value} (h : t.Has v) (column : String) :
    t.convert column v = .ok v := by
  rw [FieldType.convert, h.read]
  rfl

end FieldType

/-- What has a wire form that is read back: moments of whole microseconds, documents that are read back
from their own text, and everything else. -/
def Value.Lasts : Value → Prop
  | timestamp t => t.IsWhole
  | json document => Json.ofText? document.write.toList = some document
  | _ => True

instance : DecidablePred Value.Lasts
  | .timestamp t => inferInstanceAs (Decidable t.IsWhole)
  | .json document =>
    inferInstanceAs (Decidable (Json.ofText? document.write.toList = some document))
  | .null | .bool _ | .int _ | .float _ | .text _ | .bytes _ | .date _ | .uuid _ => .isTrue trivial

namespace Wire

variable {t : FieldType} {type : ColumnType} {v : Value}

/-- A value that is sent to a column and received from it. -/
def returned? (type : ColumnType) (v : Value) : Option Value := do
  let raw ← (encode type v).toOption
  (decode type raw).toOption

/-- Values that are sent to columns and received from them, cell by cell. -/
def exchange (types : List ColumnType) (vs : List Value) : Option (List Value) :=
  (types.zip vs).mapM fun (type, v) => returned? type v

/-- What is there and lasts is held by the columns for it. -/
theorem holds_of_has (h : t.Has v) (hs : t.suits type = true) (hl : v.Lasts) (hne : v ≠ .null) :
    Holds type v := by
  induction h with
  | int hn =>
    obtain ⟨c, hc, hlow, hhigh⟩ := ColumnType.exists_of_covers hs
    obtain ⟨hleast, hgreatest⟩ := hn
    exact .int hc ⟨hlow.trans hleast, hgreatest.trans hhigh⟩
  | single h => cases hs
  | double x =>
    obtain rfl : type = .float8 := of_decide_eq_true hs
    exact .float x
  | bool b =>
    obtain rfl : type = .bool := of_decide_eq_true hs
    exact .bool b
  | text s => exact .text hs s
  | bytes bs =>
    obtain rfl : type = .bytea := of_decide_eq_true hs
    exact .bytes bs
  | timestamp m => exact .timestamp hs hl
  | date d =>
    obtain rfl : type = .date := of_decide_eq_true hs
    exact .date d
  | json document =>
    simp only [FieldType.suits, Bool.or_eq_true, decide_eq_true_eq] at hs
    rcases hs with rfl | rfl
    · exact .json hl
    · exact .jsonb hl
  | uuid u =>
    obtain rfl : type = .uuid := of_decide_eq_true hs
    exact .uuid u
  | any v => cases hs
  | absent => exact absurd rfl hne
  | present h ih =>
    simp only [FieldType.suits, Bool.and_eq_true] at hs
    exact ih hs.2 hl hne

/-- A value of a field is decoded from the cell that it is encoded in, which is empty if the value is
absent. -/
theorem returns_of_has (h : t.Has v) (hs : t.suits type = true) (hl : v.Lasts) :
    ∃ cell, encode type v = .ok cell ∧ decode type cell = .ok v := by
  by_cases hne : v = .null
  · subst hne
    exact ⟨none, rfl, rfl⟩
  · obtain ⟨raw, he, hd⟩ := (holds_of_has h hs hl hne).returns
    exact ⟨some raw, he, hd⟩

theorem returned?_of_has (h : t.Has v) (hs : t.suits type = true) (hl : v.Lasts) :
    returned? type v = some v := by
  obtain ⟨cell, he, hd⟩ := returns_of_has h hs hl
  rw [returned?, he]
  simp only [Except.toOption, Option.bind_eq_bind, Option.bind_some, hd]

/-- Cells that are received as they were sent are received together. -/
theorem exchange_map {types : String → ColumnType} {f : String → Value} : ∀ {columns : List String},
    (∀ c ∈ columns, returned? (types c) (f c) = some (f c)) →
    exchange (columns.map types) (columns.map f) = some (columns.map f)
  | [], _ => rfl
  | c :: cs, h => by
    have hrest := exchange_map fun d hd => h d (List.mem_cons_of_mem c hd)
    rw [exchange] at hrest ⊢
    simp only [List.map_cons, List.zip_cons_cons, List.mapM_cons, h c (List.mem_cons_self ..), hrest,
      Option.bind_eq_bind, Option.bind_some, Option.pure_def]

end Wire

/-! ### Records -/

namespace Record

/-- The fields of a record, without their values. -/
def schema (r : Record) : Schema := r.fields.map fun f => (f.name, f.type)

variable {r s : Record} {column : String} {v : Value}

theorem type?_eq_find (r : Record) (column : String) :
    r.type? column = (r.schema.find? fun x => x.1 = column).map Prod.snd := by
  rw [type?, schema, List.find?_map, Option.map_map]
  rfl

/-- Records of one schema have fields of the same types. -/
theorem type?_congr (h : r.schema = s.schema) (column : String) : r.type? column = s.type? column := by
  rw [type?_eq_find, type?_eq_find, h]

/-- Another value leaves names and types alone. -/
theorem map_putValue (column : String) (v : Value) : ∀ fields : List Field,
    (putValue column v fields).map (fun f => (f.name, f.type)) =
      fields.map fun f => (f.name, f.type)
  | [] => rfl
  | f :: rest => by
    rw [putValue]
    split
    · rfl
    · rw [List.map_cons, List.map_cons, map_putValue column v rest]

/-- Only the field that a value is put into has another one. -/
theorem find?_putValue (column other : String) (v : Value) : ∀ fields : List Field,
    ((putValue column v fields).find? fun f => f.name = other).map Field.value =
      if other = column then (fields.find? fun f => f.name = column).map fun _ => v
      else (fields.find? fun f => f.name = other).map Field.value
  | [] => by simp [putValue]
  | f :: rest => by
    have ih := find?_putValue column other v rest
    rw [putValue]
    split
    · next hf =>
      by_cases ho : other = column
      · simp [ho, hf]
      · have hne : f.name ≠ other := fun he => ho (he.symm.trans hf)
        simp [ho, hne]
    · next hf =>
      by_cases ho : f.name = other
      · have hne : other ≠ column := fun he => hf (ho.trans he)
        simp [ho, hne]
      · simp only [List.find?_cons, ho, hf, decide_false, ih]

/-- A value of the field's type is written as it is. -/
theorem set_of_has {t : FieldType} (ht : r.type? column = some t) (hv : t.Has v) :
    ∃ r', r.set column v = .ok r' ∧ r'.schema = r.schema ∧
      ∀ c, r'.get? c = if c = column then some v else r.get? c := by
  refine ⟨⟨putValue column v r.fields⟩, ?_, map_putValue column v r.fields, ?_⟩
  · rw [set, ht]
    simp only [hv.convert, Except.map]
  · intro c
    obtain ⟨f, hf, -⟩ := Option.map_eq_some_iff.mp ht
    rw [get?, find?_putValue]
    simp only [hf, Option.map_some, get?]

/-- Values of the fields' types are written one after the other, and nothing else changes. -/
theorem setAll_of_has {f : String → Value} : ∀ {columns : List String} {r : Record},
    (∀ c ∈ columns, ∃ t, r.type? c = some t ∧ t.Has (f c)) →
    ∃ r', r.setAll (columns.map fun c => (c, f c)) = (r', .ok ()) ∧
      ∀ c, r'.get? c = if c ∈ columns then some (f c) else r.get? c
  | [], r, _ => ⟨r, rfl, fun c => by simp⟩
  | c :: cs, r, h => by
    obtain ⟨t, ht, hv⟩ := h c (List.mem_cons_self ..)
    obtain ⟨r₁, hset, hschema, hget₁⟩ := set_of_has ht hv
    have hrest : ∀ d ∈ cs, ∃ t, r₁.type? d = some t ∧ t.Has (f d) := by
      intro d hd
      rw [type?_congr hschema]
      exact h d (List.mem_cons_of_mem c hd)
    obtain ⟨r', hall, hget⟩ := setAll_of_has hrest
    refine ⟨r', ?_, ?_⟩
    · rw [List.map_cons, setAll, hset]
      exact hall
    · intro d
      rw [hget, hget₁]
      by_cases hd : d ∈ cs
      · simp [hd]
      · by_cases hc : d = c
        · simp [hc]
        · simp [hd, hc]

end Record

namespace Table

/-- Fields that are there are read in the order of the columns. -/
theorem extract_of_get? {r : Record} {f : String → Value} : ∀ {columns : List String},
    (∀ c ∈ columns, r.get? c = some (f c)) → extract r columns = .ok (columns.map f)
  | [], _ => rfl
  | c :: cs, h => by
    have hfield : fieldOf r c = .ok (f c) := by rw [fieldOf, h c (List.mem_cons_self ..)]
    rw [extract, hfield, extract_of_get? fun d hd => h d (List.mem_cons_of_mem c hd)]
    rfl

/-- A value of a field is sent to a column for it, received, and read into the field as it was. Hence a
record of a table, whose declared columns have such values, is sent column by column, and what is
received and read into another record of the table's schema makes that record equal to it on every
declared column. -/
theorem saved_returns :
    (∀ (t : FieldType) (type : ColumnType) (v : Value) (column : String),
      t.suits type = true → t.Has v → v.Lasts →
      ∃ cell received, Wire.encode type v = .ok cell ∧ Wire.decode type cell = .ok received ∧
        t.convert column received = .ok v) ∧
    ∀ (t : Table) (types : String → ColumnType) (r fresh : Record),
      r.schema = t.schema → fresh.schema = t.schema →
      (∀ c ∈ t.columns, ∃ type v, r.type? c = some type ∧ type.suits (types c) = true ∧
        r.get? c = some v ∧ type.Has v ∧ v.Lasts) →
      ∃ sent received r', t.values r false = .ok sent ∧
        Wire.exchange (t.columns.map types) sent = some received ∧
        t.bind fresh t.columns received = (r', .ok ()) ∧
        ∀ c ∈ t.columns, r'.get? c = r.get? c := by
  constructor
  · intro t type v column hs hv hl
    obtain ⟨cell, he, hd⟩ := Wire.returns_of_has hv hs hl
    exact ⟨cell, v, he, hd, hv.convert column⟩
  · intro t types r fresh hr hfresh h
    let f : String → Value := fun c => (r.get? c).getD .null
    have hget : ∀ c ∈ t.columns, r.get? c = some (f c) := by
      intro c hc
      obtain ⟨type, v, -, -, hv, -⟩ := h c hc
      simp only [f, hv, Option.getD_some]
    have hreturned : ∀ c ∈ t.columns, Wire.returned? (types c) (f c) = some (f c) := by
      intro c hc
      obtain ⟨type, v, -, hs, hv, hhas, hl⟩ := h c hc
      obtain rfl : f c = v := by simp only [f, hv, Option.getD_some]
      exact Wire.returned?_of_has hhas hs hl
    have htyped : ∀ c ∈ t.columns, ∃ type, fresh.type? c = some type ∧ type.Has (f c) := by
      intro c hc
      obtain ⟨type, v, htype, -, hv, hhas, -⟩ := h c hc
      obtain rfl : f c = v := by simp only [f, hv, Option.getD_some]
      exact ⟨type, by rw [Record.type?_congr (hfresh.trans hr.symm), htype], hhas⟩
    obtain ⟨r', hset, hafter⟩ := Record.setAll_of_has htyped
    refine ⟨t.columns.map f, t.columns.map f, r', ?_, Wire.exchange_map hreturned, ?_, ?_⟩
    · exact extract_of_get? hget
    · rw [bind, if_neg (by simp), ← List.map_prod_left_eq_zip, hset]
    · intro c hc
      rw [hafter, if_pos hc, hget c hc]

/-- The largest number of its type, a document that is null, a text that is absent, a moment before
2000 and the least number of its type, read over a record that has other values. -/
theorem saved_returns_gauge :
    let moment : Timestamp := ⟨⟨-1, by decide⟩, 86399, 999999000, by decide, by decide, by decide⟩
    let schema : Schema := [("count", .int .u16), ("note", .optional .json),
      ("label", .optional .text), ("seen", .timestamp), ("low", .int .i8)]
    let t : Table := ⟨"t_gauge", ["count", "note", "label", "seen", "low"], none, schema, none⟩
    let types : String → ColumnType := fun c =>
      if c = "count" then .int4 else if c = "note" then .jsonb else if c = "label" then .text
      else if c = "seen" then .timestamptz else .int2
    let r : Record := ⟨[⟨"count", .int .u16, .int 65535⟩, ⟨"note", .optional .json, .json .null⟩,
      ⟨"label", .optional .text, .null⟩, ⟨"seen", .timestamp, .timestamp moment⟩,
      ⟨"low", .int .i8, .int (-128)⟩]⟩
    let fresh : Record := ⟨[⟨"count", .int .u16, .int 7⟩, ⟨"note", .optional .json, .null⟩,
      ⟨"label", .optional .text, .text "old"⟩,
      ⟨"seen", .timestamp, .timestamp (.midnight .unixEpoch)⟩, ⟨"low", .int .i8, .int 0⟩]⟩
    (∃ cell received, Wire.encode .jsonb (.json .null) = .ok cell ∧
      Wire.decode .jsonb cell = .ok received ∧
      FieldType.convert (.optional .json) "note" received = .ok (.json .null)) ∧
    r.schema = t.schema ∧ fresh.schema = t.schema ∧
    ∃ sent received r', t.values r false = .ok sent ∧
      Wire.exchange (t.columns.map types) sent = some received ∧
      t.bind fresh t.columns received = (r', .ok ()) ∧ ∀ c ∈ t.columns, r'.get? c = r.get? c := by
  intro moment schema t types r fresh
  have hcolumns : ∀ c ∈ t.columns, ∃ type v, r.type? c = some type ∧
      type.suits (types c) = true ∧ r.get? c = some v ∧ type.Has v ∧ v.Lasts := by
    intro c hc
    simp only [t, List.mem_cons, List.not_mem_nil, or_false] at hc
    rcases hc with rfl | rfl | rfl | rfl | rfl
    · exact ⟨_, _, rfl, by decide, rfl, .int (by decide), trivial⟩
    · exact ⟨_, _, rfl, by decide, rfl, .present (.json .null),
        by decide +kernel⟩
    · exact ⟨_, _, rfl, by decide, rfl, .absent, trivial⟩
    · exact ⟨_, _, rfl, by decide, rfl, .timestamp moment, by decide⟩
    · exact ⟨_, _, rfl, by decide, rfl, .int (by decide), trivial⟩
  exact ⟨saved_returns.1 _ _ _ "note" (by decide) (.present (.json .null)) (by decide +kernel), rfl,
    rfl, saved_returns.2 t types r fresh rfl rfl hcolumns⟩

end Table

end TableAccess
