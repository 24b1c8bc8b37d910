import TableAccess.Proofs.Wire.Bytes
import TableAccess.Proofs.Wire.Moments
import TableAccess.Proofs.Wire.Utf8

/-!
Values that come back from the wire as they were sent.

A column of a type holds some values as they are: those of its own kind, as far as they fit. Such a
value is encoded and its bytes are decoded to it. In the other direction most types have one
spelling for each value, so bytes that are decoded are the ones that the value is encoded in; truth
values, whose every byte but 0 is true, and documents, which may be written with blanks, are the
exceptions.
-/

namespace TableAccess

/-- The integers that an integer column holds. -/
def ColumnType.intType? : ColumnType → Option IntType
  | .int2 => some .i16
  | .int4 => some .i32
  | .int8 => some .i64
  | _ => none

/-- The types of text columns. -/
def ColumnType.isText : ColumnType → Bool
  | .text | .varchar | .bpchar | .name | .unknown => true
  | _ => false

/-- The types of columns that hold moments. -/
def ColumnType.isMoment : ColumnType → Bool
  | .timestamp | .timestamptz => true
  | _ => false

/-- The types that have one spelling for each value. -/
def ColumnType.isCanonical (type : ColumnType) : Bool :=
  type.intType?.isSome || type.isText || type.isMoment ||
    [float8, bytea, date, uuid].contains type

namespace IntType

/-- How many bytes a number of the type has. -/
def width : IntType → Nat
  | i8 | u8 => 1
  | i16 | u16 => 2
  | i32 | u32 => 4
  | i64 | u64 => 8

/-- Whether a number is one of the type's. -/
def Covers (t : IntType) (n : Int64) : Prop := t.least ≤ n.toInt ∧ n.toInt ≤ t.greatest

variable {t : IntType} {n m : Int64}

theorem narrow_of_covers (h : t.Covers n) : t.narrow n = .ok n := by
  obtain ⟨hlow, hhigh⟩ := h
  rw [narrow, if_neg (by omega), if_neg (by omega)]

theorem covers_of_narrow (h : t.narrow n = .ok m) : t.Covers n := by
  rw [narrow] at h
  split at h
  · cases h
  · split at h
    · cases h
    · exact ⟨by omega, by omega⟩

end IntType

namespace Uuid

theorem ofBytes?_bytes (u : Uuid) : ofBytes? u.bytes = some u := dif_pos u.size_eq

theorem bytes_of_ofBytes? {bytes : List UInt8} {u : Uuid} (h : ofBytes? bytes = some u) :
    u.bytes = bytes := by
  rw [ofBytes?] at h
  split at h
  · cases h
    rfl
  · cases h

end Uuid

namespace Wire

variable {type : ColumnType} {t : IntType} {v : Value} {raw bs : List UInt8} {width : Nat}
  {tooLong : DecodeError}

/-! ### What is decoded -/

theorem exactly_of_length (h : raw.length = width) : exactly width tooLong raw = .ok raw := by
  rw [exactly, if_neg (by omega), if_neg (by omega)]

theorem of_exactly (h : exactly width tooLong raw = .ok bs) : raw.length = width ∧ bs = raw := by
  rw [exactly] at h
  split at h
  · cases h
  · split at h
    · cases h
    · cases h
      exact ⟨by omega, rfl⟩

theorem exactly_bind_iff {f : List UInt8 → Except DecodeError Value} :
    (exactly width tooLong raw >>= f) = .ok v ↔ raw.length = width ∧ f raw = .ok v := by
  constructor
  · intro h
    cases hbs : exactly width tooLong raw with
    | error e =>
      rw [hbs] at h
      cases h
    | ok bs =>
      obtain ⟨hlength, rfl⟩ := of_exactly hbs
      rw [hbs] at h
      exact ⟨hlength, h⟩
  · rintro ⟨hlength, h⟩
    rw [exactly_of_length hlength]
    exact h

theorem exactly_map_iff {f : List UInt8 → Value} :
    (exactly width tooLong raw).map f = .ok v ↔ raw.length = width ∧ v = f raw := by
  have hbind : (exactly width tooLong raw).map f = exactly width tooLong raw >>= (.ok <| f ·) := by
    cases exactly width tooLong raw <;> rfl
  rw [hbind, exactly_bind_iff, Except.ok.injEq, eq_comm (a := v)]

/-- An integer column's bytes have the width of its numbers. -/
theorem decodeBytes_int_iff (h : type.intType? = some t) : decodeBytes type raw = .ok v ↔
    raw.length = t.width ∧ v = .int (Int64.ofInt (ofSignedBytes raw)) := by
  unfold ColumnType.intType? at h
  split at h <;> cases h <;> exact exactly_map_iff

theorem decodeBytes_bool_iff : decodeBytes .bool raw = .ok v ↔
    ∃ b, raw = [b] ∧ v = .bool (b != 0) := by
  match raw with
  | [] => simp [decodeBytes]
  | [b] => simp [decodeBytes, eq_comm]
  | _ :: _ :: _ => simp [decodeBytes]

theorem decodeBytes_float4_iff : decodeBytes .float4 raw = .ok v ↔
    raw.length = 4 ∧ v = .float (Single.mk (UInt32.ofNat (ofBigEndian raw))).toDouble :=
  exactly_map_iff

theorem decodeBytes_float8_iff : decodeBytes .float8 raw = .ok v ↔
    raw.length = 8 ∧ v = .float ⟨UInt64.ofNat (ofBigEndian raw)⟩ := exactly_map_iff

theorem decodeBytes_text_iff (h : type.isText = true) : decodeBytes type raw = .ok v ↔
    ∃ s, v = .text s ∧ Utf8.encode s.toList = raw := by
  have htext : decodeBytes type raw = decodeText raw := by
    cases type <;> first | rfl | cases h
  rw [htext, decodeText]
  constructor
  · intro hv
    split at hv
    case h_1 cs hcs =>
      cases hv
      refine ⟨String.ofList cs, rfl, ?_⟩
      rw [String.toList_ofList, Utf8.encode_of_decode hcs]
    case h_2 => cases hv
  · rintro ⟨s, rfl, rfl⟩
    rw [Utf8.decode_encode]
    exact congrArg (Except.ok ∘ Value.text) String.ofList_toList

theorem decodeBytes_moment_iff (h : type.isMoment = true) : decodeBytes type raw = .ok v ↔
    raw.length = 8 ∧ ∃ t, v = .timestamp t ∧ Timestamp.ofMicros? (ofSignedBytes raw) = some t := by
  have hmoment : decodeBytes type raw = decodeTimestamp raw := by
    cases type <;> first | rfl | cases h
  rw [hmoment, decodeTimestamp, exactly_bind_iff]
  refine and_congr_right fun _ => ?_
  cases Timestamp.ofMicros? (ofSignedBytes raw) with
  | none => simp
  | some t => simp [eq_comm]

theorem decodeBytes_date_iff : decodeBytes .date raw = .ok v ↔
    raw.length = 4 ∧ ∃ d, v = .date d ∧ Date.ofNumber? (ofSignedBytes raw) = some d := by
  rw [decodeBytes, exactly_bind_iff]
  refine and_congr_right fun _ => ?_
  cases Date.ofNumber? (ofSignedBytes raw) with
  | none => simp
  | some d => simp [eq_comm]

theorem decodeBytes_uuid_iff : decodeBytes .uuid raw = .ok v ↔
    ∃ u, v = .uuid u ∧ u.bytes = raw := by
  rw [decodeBytes]
  constructor
  · intro hv
    split at hv
    case h_1 u hu =>
      cases hv
      exact ⟨u, rfl, Uuid.bytes_of_ofBytes? hu⟩
    case h_2 => cases hv
  · rintro ⟨u, rfl, rfl⟩
    rw [Uuid.ofBytes?_bytes]

/-! ### Integers -/

/-- The bounds of an integer column's numbers are those of its width. -/
theorem bounds_of_intType (h : type.intType? = some t) :
    t.least * 2 = -(256 ^ t.width : Nat) ∧ (t.greatest + 1) * 2 = (256 ^ t.width : Nat) := by
  unfold ColumnType.intType? at h
  split at h <;> cases h <;> decide

theorem encode_int (h : type.intType? = some t) (n : Int64) :
    encode type (.int n) = (t.narrow n).map fun n => some (signedBytes t.width n.toInt) := by
  unfold ColumnType.intType? at h
  split at h <;> cases h
  case h_1 => rfl
  case h_2 => rfl
  case h_3 =>
    have hcovers : IntType.i64.Covers n := ⟨n.minValue_le_toInt, n.toInt_le⟩
    rw [IntType.narrow_of_covers hcovers]
    rfl

theorem int_returns (h : type.intType? = some t) {n : Int64} (hn : t.Covers n) :
    ∃ raw, encode type (.int n) = .ok (some raw) ∧ decodeBytes type raw = .ok (.int n) := by
  obtain ⟨hleast, hgreatest⟩ := bounds_of_intType h
  have hback : ofSignedBytes (signedBytes t.width n.toInt) = n.toInt := by
    obtain ⟨hlow, hhigh⟩ := hn
    exact ofSignedBytes_signedBytes (by omega) (by omega)
  refine ⟨signedBytes t.width n.toInt, ?_, ?_⟩
  · rw [encode_int h, IntType.narrow_of_covers hn]
    rfl
  · refine (decodeBytes_int_iff h).mpr ⟨length_signedBytes .., ?_⟩
    rw [hback, Int64.ofInt_toInt]

/-- Bytes of an integer column's width are within its bounds. -/
theorem ofSignedBytes_bounds (h : type.intType? = some t) (hlength : raw.length = t.width) :
    t.least ≤ ofSignedBytes raw ∧ ofSignedBytes raw ≤ t.greatest := by
  obtain ⟨hleast, hgreatest⟩ := bounds_of_intType h
  have hpos : 0 < 256 ^ t.width := Nat.pow_pos (by decide)
  have hlow := Int.le_bmod (x := ofBigEndian raw) (m := 256 ^ t.width) hpos
  have hhigh := Int.bmod_lt (x := ofBigEndian raw) (m := 256 ^ t.width) hpos
  have hvalue : ofSignedBytes raw = Int.bmod (ofBigEndian raw) (256 ^ t.width) := by
    rw [ofSignedBytes, hlength]
    rfl
  omega

theorem int_canonical (h : type.intType? = some t) (hv : decodeBytes type raw = .ok v) :
    encode type v = .ok (some raw) := by
  obtain ⟨hlength, rfl⟩ := (decodeBytes_int_iff h).mp hv
  have hbounds := ofSignedBytes_bounds h hlength
  have hvalue : (Int64.ofInt (ofSignedBytes raw)).toInt = ofSignedBytes raw := by
    have hleast : -2 ^ 63 ≤ t.least ∧ t.greatest < 2 ^ 63 := by
      unfold ColumnType.intType? at h
      split at h <;> cases h <;> decide
    exact Int64.toInt_ofInt_of_le (by omega) (by omega)
  have hcovers : t.Covers (Int64.ofInt (ofSignedBytes raw)) := by
    rw [IntType.Covers, hvalue]
    exact hbounds
  rw [encode_int h, IntType.narrow_of_covers hcovers]
  refine congrArg (Except.ok ∘ some) ?_
  rw [hvalue, ← hlength]
  exact signedBytes_ofSignedBytes raw

/-! ### Floats -/

theorem float_returns (x : Double) :
    ∃ raw, encode .float8 (.float x) = .ok (some raw) ∧
      decodeBytes .float8 raw = .ok (.float x) := by
  have hback : UInt64.ofNat (ofBigEndian (bigEndian 8 x.bits.toNat)) = x.bits := by
    have hlt : x.bits.toNat < 256 ^ 8 := x.bits.toNat_lt
    rw [ofBigEndian_bigEndian, Nat.mod_eq_of_lt hlt, UInt64.ofNat_toNat]
  refine ⟨bigEndian 8 x.bits.toNat, rfl, ?_⟩
  refine decodeBytes_float8_iff.mpr ⟨length_bigEndian .., ?_⟩
  rw [hback]

theorem float_canonical (hv : decodeBytes .float8 raw = .ok v) :
    encode .float8 v = .ok (some raw) := by
  obtain ⟨hlength, rfl⟩ := decodeBytes_float8_iff.mp hv
  have hlt : ofBigEndian raw < 2 ^ 64 := by
    have := ofBigEndian_lt raw
    rwa [hlength] at this
  have hbits : (UInt64.ofNat (ofBigEndian raw)).toNat = ofBigEndian raw :=
    UInt64.toNat_ofNat_of_lt' hlt
  refine congrArg (Except.ok ∘ some) ?_
  rw [hbits, ← hlength]
  exact bigEndian_ofBigEndian raw

/-! ### Days and moments -/

theorem date_returns (d : Date) :
    ∃ raw, encode .date (.date d) = .ok (some raw) ∧ decodeBytes .date raw = .ok (.date d) := by
  obtain ⟨hlow, hhigh⟩ := d.inRange
  unfold Calendar.firstDay at hlow
  unfold Calendar.lastDay at hhigh
  have hback : ofSignedBytes (signedBytes 4 d.number) = d.number :=
    ofSignedBytes_signedBytes (by omega) (by omega)
  refine ⟨signedBytes 4 d.number, rfl, ?_⟩
  refine decodeBytes_date_iff.mpr ⟨length_signedBytes .., d, rfl, ?_⟩
  rw [hback, Date.ofNumber?_number]

theorem date_canonical (hv : decodeBytes .date raw = .ok v) : encode .date v = .ok (some raw) := by
  obtain ⟨hlength, d, rfl, hd⟩ := decodeBytes_date_iff.mp hv
  rw [encode, Date.number_of_ofNumber? hd, ← hlength, signedBytes_ofSignedBytes]

theorem moment_returns (h : type.isMoment = true) {t : Timestamp} (ht : t.IsWhole) :
    ∃ raw, encode type (.timestamp t) = .ok (some raw) ∧
      decodeBytes type raw = .ok (.timestamp t) := by
  obtain ⟨hlow, hhigh⟩ := t.micros_bounds
  refine ⟨signedBytes 8 t.micros, rfl, ?_⟩
  refine (decodeBytes_moment_iff h).mpr ⟨length_signedBytes .., t, rfl, ?_⟩
  rw [ofSignedBytes_signedBytes hlow hhigh, ht.ofMicros?_micros]

theorem moment_canonical (h : type.isMoment = true) (hv : decodeBytes type raw = .ok v) :
    encode type v = .ok (some raw) := by
  obtain ⟨hlength, t, rfl, ht⟩ := (decodeBytes_moment_iff h).mp hv
  rw [encode, Timestamp.micros_of_ofMicros? ht, ← hlength, signedBytes_ofSignedBytes]

/-! ### Documents -/

theorem decodeJson_write {document : Json}
    (h : Json.ofText? document.write.toList = some document) :
    decodeJson (Utf8.encode document.write.toList) = .ok (.json document) := by
  rw [decodeJson, Utf8.decode_encode]
  simp only [h]

/-! ### All kinds -/

/-- The values that a column of a type holds as they are. A document is one of them if it is read
back from its own text. -/
inductive Holds : ColumnType → Value → Prop
  | bool (b : Bool) : Holds .bool (.bool b)
  | int {type : ColumnType} {t : IntType} {n : Int64} (h : type.intType? = some t)
      (hn : t.Covers n) : Holds type (.int n)
  | float (x : Double) : Holds .float8 (.float x)
  | text {type : ColumnType} (h : type.isText = true) (s : String) : Holds type (.text s)
  | bytes (bs : List UInt8) : Holds .bytea (.bytes bs)
  | timestamp {type : ColumnType} (h : type.isMoment = true) {t : Timestamp} (ht : t.IsWhole) :
      Holds type (.timestamp t)
  | date (d : Date) : Holds .date (.date d)
  | uuid (u : Uuid) : Holds .uuid (.uuid u)
  | json {document : Json} (h : Json.ofText? document.write.toList = some document) :
      Holds .json (.json document)
  | jsonb {document : Json} (h : Json.ofText? document.write.toList = some document) :
      Holds .jsonb (.json document)

theorem Holds.returns (h : Holds type v) :
    ∃ raw, encode type v = .ok (some raw) ∧ decodeBytes type raw = .ok v := by
  cases h with
  | bool b => exact ⟨[if b then 1 else 0], rfl, by cases b <;> rfl⟩
  | int h hn => exact int_returns h hn
  | float x => exact float_returns x
  | text h s => exact ⟨Utf8.encode s.toList, rfl, (decodeBytes_text_iff h).mpr ⟨s, rfl, rfl⟩⟩
  | bytes bs => exact ⟨bs, rfl, rfl⟩
  | timestamp h ht => exact moment_returns h ht
  | date d => exact date_returns d
  | uuid u => exact ⟨u.bytes, rfl, decodeBytes_uuid_iff.mpr ⟨u, rfl, rfl⟩⟩
  | json h => exact ⟨_, rfl, decodeJson_write h⟩
  | jsonb h => exact ⟨_, rfl, decodeJson_write h⟩

example : Holds .jsonb (.json (.array [.null, .text "a"])) := .jsonb (by decide +kernel)

/-- Bytes that are decoded are the ones that the value is encoded in. -/
theorem encode_of_decodeBytes (h : type.isCanonical = true) (hv : decodeBytes type raw = .ok v) :
    encode type v = .ok (some raw) := by
  cases type with
  | int2 | int4 | int8 => exact int_canonical rfl hv
  | float8 => exact float_canonical hv
  | text | varchar | bpchar | name | unknown =>
    obtain ⟨s, rfl, rfl⟩ := (decodeBytes_text_iff rfl).mp hv
    rfl
  | bytea =>
    cases hv
    rfl
  | timestamp | timestamptz => exact moment_canonical rfl hv
  | date => exact date_canonical hv
  | uuid =>
    obtain ⟨u, rfl, rfl⟩ := decodeBytes_uuid_iff.mp hv
    rfl
  | bool | float4 | json | jsonb | other => cases h

/-- Encoding and decoding are inverse for the values that a column holds and, if the column's type
has one spelling for each value, for the bytes that are values. An integer that does not fit an
integer column is refused, and the absent value is no bytes whatever the column. -/
theorem codec_inverse (type : ColumnType) :
    (∀ v, Holds type v →
      ∃ raw, encode type v = .ok (some raw) ∧ decode type (some raw) = .ok v) ∧
    (∀ t n, type.intType? = some t → ¬ t.Covers n → ∃ e, encode type (.int n) = .error e) ∧
    encode type .null = .ok none ∧ decode type none = .ok .null ∧
    (type.isCanonical = true → ∀ raw v, decode type (some raw) = .ok v →
      encode type v = .ok (some raw)) := by
  refine ⟨fun v h => h.returns, ?_, rfl, rfl, fun h raw v hv => encode_of_decodeBytes h hv⟩
  intro t n h hn
  rw [encode_int h]
  cases hm : t.narrow n with
  | error e => exact ⟨e, rfl⟩
  | ok m => exact absurd (IntType.covers_of_narrow hm) hn

end Wire

end TableAccess
