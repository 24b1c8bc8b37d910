import TableAccess.Proofs.Number.Nearest
import TableAccess.Proofs.Wire.Codec

/-!
What arrives in columns of fixed width.

A value that is sent to a column of its own kind arrives, up to the numbers that the column has: an
integer becomes a double, a double is rounded to single precision, and a moment is counted in whole
microseconds. Nothing compares a value of another kind with the column, however: it is sent in its
own bytes, and they are refused only if the column has another width or if they write no day or
moment of the calendar. Where they are not refused they arrive as a value of the column's kind.
-/

namespace TableAccess

namespace ColumnType

/-- How many bytes a column of a type has, where every value has as many. -/
def width? : ColumnType → Option Nat
  | bool => some 1
  | int2 => some 2
  | int4 | float4 | date => some 4
  | int8 | float8 | timestamp | timestamptz => some 8
  | uuid => some 16
  | _ => none

/-- The kind of the values in a column of fixed width. -/
def kind? : ColumnType → Option Kind
  | bool => some .bool
  | int2 | int4 | int8 => some .int
  | float4 | float8 => some .float
  | date => some .date
  | timestamp | timestamptz => some .timestamp
  | uuid => some .uuid
  | _ => none

/-- Whether bytes of the right number write a value of the type: the calendar has an end. -/
def reaches : ColumnType → List UInt8 → Bool
  | date, raw => (Date.ofNumber? (Wire.ofSignedBytes raw)).isSome
  | timestamp, raw | timestamptz, raw => (Timestamp.ofMicros? (Wire.ofSignedBytes raw)).isSome
  | _, _ => true

end ColumnType

/-- The bytes of a value that nothing is converted for. -/
def Value.ownBytes? : Value → Option (List UInt8)
  | null => none
  | bool b => some [if b then 1 else 0]
  | int n => some (Wire.signedBytes 8 n.toInt)
  | float x => some (Wire.bigEndian 8 x.bits.toNat)
  | text s => some (Utf8.encode s.toList)
  | bytes bs => some bs
  | timestamp t => some (Wire.signedBytes 8 t.micros)
  | date d => some (Wire.signedBytes 4 d.number)
  | json document => some (Utf8.encode document.write.toList)
  | uuid u => some u.bytes

namespace Wire

variable {type : ColumnType} {v v' : Value} {raw : List UInt8} {width : Nat}

/-- What arrives for a value that is sent as `raw`. -/
inductive Arrival (type : ColumnType) (raw : List UInt8) : Value → Value → Prop
  /-- The value itself. -/
  | itself {v : Value} (h : type.kind? = some v.kind) (hsingle : type ≠ .float4)
      (hmoment : type.isMoment = false) : Arrival type raw v v
  /-- An integer as the nearest double. -/
  | widened {n : Int64} (h : type = .float8)
      (hnearest : (Double.ofInt n.toInt).IsNearest n.toInt) :
      Arrival type raw (.int n) (.float (Double.ofInt n.toInt))
  /-- A double rounded to single precision. -/
  | rounded {x : Double} (h : type = .float4)
      (hround : x.isFinite = true → x.toSingle.isFinite = true → x.IsRounded x.throughSingle) :
      Arrival type raw (.float x) (.float x.throughSingle)
  /-- A moment as the one of its count of microseconds. -/
  | counted {t t' : Timestamp} (h : type.isMoment = true) (hwhole : t'.IsWhole)
      (hnanos : t'.nanosSinceEpoch = t.micros * 1000) :
      Arrival type raw (.timestamp t) (.timestamp t')
  /-- A value of another kind, whose own bytes are as many as the column has. -/
  | mistaken {v v' : Value} (h : type.kind? ≠ some v.kind) (hint : type = .float8 → v.kind ≠ .int)
      (hraw : v.ownBytes? = some raw) (hwidth : type.width? = some raw.length)
      (hkind : type.kind? = some v'.kind) : Arrival type raw v v'

/-- Decoded bytes are as many as the column has, and they are a value of its kind. -/
theorem of_decodeBytes (hw : type.width? = some width) (hd : decodeBytes type raw = .ok v) :
    raw.length = width ∧ type.kind? = some v.kind := by
  cases type with
  | bool =>
    cases hw
    obtain ⟨b, rfl, rfl⟩ := decodeBytes_bool_iff.mp hd
    exact ⟨rfl, rfl⟩
  | int2 | int4 | int8 =>
    cases hw
    obtain ⟨hlength, rfl⟩ := (decodeBytes_int_iff rfl).mp hd
    exact ⟨hlength, rfl⟩
  | float4 =>
    cases hw
    obtain ⟨hlength, rfl⟩ := decodeBytes_float4_iff.mp hd
    exact ⟨hlength, rfl⟩
  | float8 =>
    cases hw
    obtain ⟨hlength, rfl⟩ := decodeBytes_float8_iff.mp hd
    exact ⟨hlength, rfl⟩
  | date =>
    cases hw
    obtain ⟨hlength, d, rfl, -⟩ := decodeBytes_date_iff.mp hd
    exact ⟨hlength, rfl⟩
  | timestamp | timestamptz =>
    cases hw
    obtain ⟨hlength, t, rfl, -⟩ := (decodeBytes_moment_iff rfl).mp hd
    exact ⟨hlength, rfl⟩
  | uuid =>
    cases hw
    obtain ⟨u, rfl, rfl⟩ := decodeBytes_uuid_iff.mp hd
    exact ⟨u.size_eq, rfl⟩
  | text | varchar | bpchar | name | unknown | bytea | json | jsonb | other => cases hw

/-- Where nothing is converted, a value is sent in its own bytes. -/
theorem encode_own (hw : type.width? = some width) (h : type.kind? ≠ some v.kind)
    (hint : type = .float8 → v.kind ≠ .int) : encode type v = .ok v.ownBytes? := by
  cases v with
  | int n =>
    cases type with
    | int2 | int4 => exact absurd rfl h
    | float8 => exact absurd rfl (hint rfl)
    | _ => rfl
  | float x =>
    cases type with
    | float4 => exact absurd rfl h
    | _ => rfl
  | json document =>
    cases type with
    | jsonb => cases hw
    | _ => rfl
  | _ => rfl

/-- A value that a column holds as it is arrives as it is. -/
theorem Holds.arrives (h : Holds type v) (he : encode type v = .ok (some raw))
    (hd : decodeBytes type raw = .ok v') : v' = v := by
  obtain ⟨bs, hbs, hback⟩ := h.returns
  obtain rfl : bs = raw := Option.some.inj (Except.ok.inj (hbs.symm.trans he))
  exact Except.ok.inj (hd.symm.trans hback)

/-- An integer that is encoded is one that its column holds. -/
theorem holds_of_encode {t : IntType} {n : Int64} (h : type.intType? = some t)
    (he : encode type (.int n) = .ok (some raw)) : Holds type (.int n) := by
  rw [encode_int h] at he
  cases hm : t.narrow n with
  | error e =>
    rw [hm] at he
    cases he
  | ok m => exact .int h (IntType.covers_of_narrow hm)

theorem arrival_of_single {x : Double} (he : encode .float4 (.float x) = .ok (some raw))
    (hd : decodeBytes .float4 raw = .ok v') : v' = .float x.throughSingle := by
  cases he
  obtain ⟨-, rfl⟩ := decodeBytes_float4_iff.mp hd
  have hlt : x.toSingle.bits.toNat < 256 ^ 4 := x.toSingle.bits.toNat_lt
  rw [ofBigEndian_bigEndian, Nat.mod_eq_of_lt hlt, UInt32.ofNat_toNat]
  rfl

theorem arrival_of_moment {t : Timestamp} (h : type.isMoment = true)
    (hd : decodeBytes type (signedBytes 8 t.micros) = .ok v') :
    ∃ t', v' = .timestamp t' ∧ t'.IsWhole ∧ t'.nanosSinceEpoch = t.micros * 1000 := by
  obtain ⟨hlow, hhigh⟩ := t.micros_bounds
  obtain ⟨-, t', rfl, ht'⟩ := (decodeBytes_moment_iff h).mp hd
  rw [ofSignedBytes_signedBytes hlow hhigh] at ht'
  obtain ⟨hnanos, hwhole⟩ := Timestamp.of_ofMicros? ht'
  exact ⟨t', rfl, hwhole, hnanos⟩

/-- A value in a column of its own kind. -/
theorem arrival_of_native (h : type.kind? = some v.kind) (he : encode type v = .ok (some raw))
    (hd : decodeBytes type raw = .ok v') : Arrival type raw v v' := by
  cases v with
  | null => cases he
  | bool b =>
    obtain rfl : type = .bool := by cases type <;> first | rfl | cases h
    obtain rfl := (Holds.bool b).arrives he hd
    exact .itself rfl nofun rfl
  | int n =>
    cases type with
    | int2 | int4 | int8 =>
      obtain rfl := (holds_of_encode rfl he).arrives he hd
      exact .itself rfl nofun rfl
    | _ => cases h
  | float x =>
    cases type with
    | float4 =>
      obtain rfl := arrival_of_single he hd
      exact .rounded rfl Double.isRounded_throughSingle
    | float8 =>
      obtain rfl := (Holds.float x).arrives he hd
      exact .itself rfl nofun rfl
    | _ => cases h
  | timestamp t =>
    have hmoment : type.isMoment = true := by cases type <;> first | rfl | cases h
    cases he
    obtain ⟨t', rfl, hwhole, hnanos⟩ := arrival_of_moment hmoment hd
    exact .counted hmoment hwhole hnanos
  | date d =>
    obtain rfl : type = .date := by cases type <;> first | rfl | cases h
    obtain rfl := (Holds.date d).arrives he hd
    exact .itself rfl nofun rfl
  | uuid u =>
    obtain rfl : type = .uuid := by cases type <;> first | rfl | cases h
    obtain rfl := (Holds.uuid u).arrives he hd
    exact .itself rfl nofun rfl
  | text | bytes | json => cases type <;> cases h

/-- What arrives in a column of fixed width, whatever was sent. -/
theorem arrival_of_decode (hw : type.width? = some width) (he : encode type v = .ok (some raw))
    (hd : decode type (some raw) = .ok v') : Arrival type raw v v' := by
  obtain ⟨hlength, hkind⟩ := of_decodeBytes hw hd
  by_cases h : type.kind? = some v.kind
  · exact arrival_of_native h he hd
  by_cases hint : type = .float8 ∧ v.kind = .int
  · obtain ⟨rfl, hv⟩ := hint
    obtain ⟨n, rfl⟩ : ∃ n, v = .int n := by
      cases v <;> first | exact ⟨_, rfl⟩ | cases hv
    -- the integer is sent as its double is
    obtain rfl := (Holds.float (Double.ofInt n.toInt)).arrives he hd
    exact .widened rfl (Double.isNearest_ofInt n)
  · have hint' : type = .float8 → v.kind ≠ .int := fun h8 hv => hint ⟨h8, hv⟩
    have hraw : v.ownBytes? = some raw := Except.ok.inj ((encode_own hw h hint').symm.trans he)
    exact .mistaken h hint' hraw (hw.trans (congrArg some hlength.symm)) hkind

/-- Bytes are decoded if they are as many as the column has and the calendar reaches as far. -/
theorem decodes_iff (hw : type.width? = some width) (raw : List UInt8) :
    (∃ v', decode type (some raw) = .ok v') ↔ raw.length = width ∧ type.reaches raw = true := by
  simp only [decode]
  constructor
  · rintro ⟨v', hd⟩
    refine ⟨(of_decodeBytes hw hd).1, ?_⟩
    cases type with
    | date =>
      obtain ⟨-, d, -, hday⟩ := decodeBytes_date_iff.mp hd
      exact Option.isSome_iff_exists.mpr ⟨d, hday⟩
    | timestamp | timestamptz =>
      obtain ⟨-, t, -, hmoment⟩ := (decodeBytes_moment_iff rfl).mp hd
      exact Option.isSome_iff_exists.mpr ⟨t, hmoment⟩
    | _ => rfl
  · rintro ⟨hlength, hreaches⟩
    cases type with
    | bool =>
      cases hw
      obtain ⟨b, rfl⟩ := List.length_eq_one_iff.mp hlength
      exact ⟨_, rfl⟩
    | int2 | int4 | int8 =>
      cases hw
      refine ⟨_, (decodeBytes_int_iff rfl).mpr ⟨?_, rfl⟩⟩
      exact hlength
    | float4 =>
      cases hw
      exact ⟨_, decodeBytes_float4_iff.mpr ⟨hlength, rfl⟩⟩
    | float8 =>
      cases hw
      exact ⟨_, decodeBytes_float8_iff.mpr ⟨hlength, rfl⟩⟩
    | date =>
      cases hw
      obtain ⟨d, hd⟩ := Option.isSome_iff_exists.mp hreaches
      exact ⟨_, decodeBytes_date_iff.mpr ⟨hlength, d, rfl, hd⟩⟩
    | timestamp | timestamptz =>
      cases hw
      obtain ⟨t, ht⟩ := Option.isSome_iff_exists.mp hreaches
      exact ⟨_, (decodeBytes_moment_iff rfl).mpr ⟨hlength, t, rfl, ht⟩⟩
    | uuid =>
      cases hw
      exact ⟨_, decodeBytes_uuid_iff.mpr ⟨⟨raw, hlength⟩, rfl, rfl⟩⟩
    | text | varchar | bpchar | name | unknown | bytea | json | jsonb | other => cases hw

/-- The whole of what a column of fixed width makes of a value. What arrives is the value, converted
as its kind and the column ask for, or it is made of the value's own bytes; and these are what is
sent where the kinds differ, and decoded if only they are as many as the column has. -/
theorem delivery (hw : type.width? = some width) (v : Value) :
    (∀ raw v', encode type v = .ok (some raw) → decode type (some raw) = .ok v' →
      Arrival type raw v v') ∧
    (type.kind? ≠ some v.kind → (type = .float8 → v.kind ≠ .int) →
      encode type v = .ok v.ownBytes? ∧
      ∀ raw, v.ownBytes? = some raw →
        ((∃ v', decode type (some raw) = .ok v') ↔
          raw.length = width ∧ type.reaches raw = true)) := by
  refine ⟨fun raw v' he hd => arrival_of_decode hw he hd, fun h hint => ?_⟩
  exact ⟨encode_own hw h hint, fun raw _ => decodes_iff hw raw⟩

/-- The double one in a column of integers. -/
theorem delivery_float_int8 :
    Arrival .int8 [0x3F, 0xF0, 0, 0, 0, 0, 0, 0] (.float ⟨0x3FF0000000000000⟩)
      (.int 4607182418800017408) :=
  (@delivery .int8 8 rfl (.float ⟨0x3FF0000000000000⟩)).1 _ _ (by decide +kernel)
    (by decide +kernel)

/-- The double one arrives as an integer that has its bits, and half a microsecond before 2000
arrives as the first moment of 2000. -/
theorem other_arrivals :
    encode .int8 (.float ⟨0x3FF0000000000000⟩) = .ok (some [0x3F, 0xF0, 0, 0, 0, 0, 0, 0]) ∧
    decode .int8 (some [0x3F, 0xF0, 0, 0, 0, 0, 0, 0]) = .ok (.int 4607182418800017408) ∧
    encode .timestamp (.timestamp ⟨⟨-1, by decide⟩, 86399, 999999500, by decide, by decide,
      by decide⟩) = .ok (some [0, 0, 0, 0, 0, 0, 0, 0]) ∧
    decode .timestamp (some [0, 0, 0, 0, 0, 0, 0, 0]) =
      .ok (.timestamp (.midnight ⟨0, by decide⟩)) := by
  decide +kernel

end Wire

end TableAccess
