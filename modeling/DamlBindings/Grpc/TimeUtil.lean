import DamlBindings.Grpc.WireAccept
import DamlBindings.Grpc.WireRoundTrip

/-!
# Days, microseconds, timestamps and durations

The conversions of `util.rs` between the wire and the host's dates and times.  Days and
microseconds are converted exactly over the whole range of the wire.  So are the durations and
every timestamp, except that the nanoseconds of a leap second are sent as they stand, past the
range of the protobuf field.
-/

namespace DamlBindings.Grpc

/-! ### Days and microseconds -/

section Days

variable {D T : Type}

/-- The date of a day number is that many days after the epoch. -/
lemma daysFromDate_of_dateFromDays [NaiveDate D] [LawfulNaiveDate D] [ExactNaiveDate D]
    {n : Int32} {d : D} (h : dateFromDays n = .ok d) : daysFromDate d = n := by
  rw [dateFromDays] at h
  split at h
  next => cases h
  next offset hoffset =>
    split at h
    next => cases h
    next d' hd =>
      cases h
      have hsum := checkedAdd_eq_some.1 hoffset
      have hsince := LawfulNaiveDate.numDaysSince_eq d NaiveDate.epoch
      rw [← ExactNaiveDate.numDaysFromCe_of_eq_some hd] at hsum
      apply Int32.toInt_inj.1
      rw [toInt_daysFromDate]
      omega

/-- A day number that leaves `i32` when it is counted from 0001-01-01 is reported. -/
lemma dateFromDays_of_overflow [NaiveDate D] [LawfulNaiveDate D] {n : Int32}
    (h : Int32.maxValue.toInt < n.toInt + epochDaysFromCe.toInt) :
    dateFromDays n =
      (.error (.failedConversion s!"date from days {n} overflowed i32") : DamlResult D) := by
  have hnone : checkedAdd n (NaiveDate.numDaysFromCe (NaiveDate.epoch : D)) = none := by
    rw [checkedAdd, LawfulNaiveDate.numDaysFromCe_epoch]
    exact if_neg fun hrange => absurd hrange.2 (not_le.2 h)
  rw [dateFromDays, hnone]

/-- Any other day number is the date that many days after 0001-01-01, where there is one. -/
lemma dateFromDays_of_sum [NaiveDate D] [LawfulNaiveDate D] {n offset : Int32}
    (h : offset.toInt = n.toInt + epochDaysFromCe.toInt) :
    dateFromDays n = (NaiveDate.fromNumDaysFromCeOpt offset : Option D).elim
      (.error (.failedConversion s!"date from days {n} out of range")) .ok := by
  have hsome : checkedAdd n (NaiveDate.numDaysFromCe (NaiveDate.epoch : D)) = some offset := by
    rw [checkedAdd_eq_some, LawfulNaiveDate.numDaysFromCe_epoch, h]
  rw [dateFromDays, hsome]
  cases hd : (NaiveDate.fromNumDaysFromCeOpt offset : Option D) with
  | none => simp only [hd, Option.elim_none]
  | some d => simp only [hd, Option.elim_some]

/-- The date of a day number is looked up at the exact sum with the epoch's, and a sum outside of
`i32` is reported.  A date is read back from its day number, a day number from its date, and the
date-time of a number of microseconds has exactly these, before the epoch too. -/
theorem days_and_micros_exact [NaiveDate D] [LawfulNaiveDate D] [ExactNaiveDate D]
    [DateTime T] [ExactDateTime T] :
    (∀ n : Int32,
      (Int32.maxValue.toInt < n.toInt + epochDaysFromCe.toInt →
        dateFromDays n =
          (.error (.failedConversion s!"date from days {n} overflowed i32") : DamlResult D)) ∧
      (n.toInt + epochDaysFromCe.toInt ≤ Int32.maxValue.toInt →
        ∃ offset : Int32, offset.toInt = n.toInt + epochDaysFromCe.toInt ∧
          dateFromDays n = (NaiveDate.fromNumDaysFromCeOpt offset : Option D).elim
            (.error (.failedConversion s!"date from days {n} out of range")) .ok)) ∧
    (∀ (n : Int32) (d : D), dateFromDays n = .ok d → daysFromDate d = n) ∧
    (∀ d : D, dateFromDays (daysFromDate d) = .ok d ∧
      (daysFromDate d).toInt = (NaiveDate.numDaysSince d NaiveDate.epoch).toInt) ∧
    ∀ (m : Int64) (t : T), datetimeFromMicros m = .ok t →
      (DateTime.timestamp t).toInt * 1000000 +
          ((DateTime.timestampSubsecNanos t).toNat / 1000 : Nat) = m.toInt ∧
        (DateTime.timestampSubsecNanos t).toNat < 1000000000 := by
  refine ⟨fun n => ⟨dateFromDays_of_overflow, fun hle => ?_⟩,
    fun n d h => daysFromDate_of_dateFromDays h,
    fun d => ⟨dateFromDays_daysFromDate d, toInt_daysFromDate d⟩, fun m t h => ?_⟩
  · have hlo := Int32.le_toInt n
    have hmax : Int32.maxValue.toInt = 2147483647 := rfl
    have hepoch : epochDaysFromCe.toInt = 719163 := rfl
    have hsum : (Int32.ofInt (n.toInt + epochDaysFromCe.toInt)).toInt =
        n.toInt + epochDaysFromCe.toInt :=
      Int32.toInt_ofInt_of_le (by omega) (by omega)
    exact ⟨_, hsum, dateFromDays_of_sum hsum⟩
  · obtain ⟨hs, hn⟩ := datetimeFromMicros_eq_ok h
    rw [hs, hn]
    omega

/-- One microsecond before the epoch, the first and the last day there is, the day after it and
the last day number, which overflows. -/
theorem days_and_micros_exact_ends :
    (∃ t : UtcInstant, datetimeFromMicros (-1) = .ok t ∧
      (DateTime.timestamp t).toInt * 1000000 +
        ((DateTime.timestampSubsecNanos t).toNat / 1000 : Nat) = -1) ∧
    (∃ d : GregorianDay, dateFromDays (-96465292) = .ok d ∧ daysFromDate d = -96465292) ∧
    daysFromDate (⟨95745399, by decide⟩ : GregorianDay) = 95026236 ∧
    (dateFromDays 95026237 : DamlResult GregorianDay) =
      .error (.failedConversion s!"date from days {(95026237 : Int32)} out of range") ∧
    (dateFromDays 2147483647 : DamlResult GregorianDay) =
      .error (.failedConversion s!"date from days {(2147483647 : Int32)} overflowed i32") := by
  obtain ⟨hsums, hdays, hdates, hmicros⟩ :=
    days_and_micros_exact (D := GregorianDay) (T := UtcInstant)
  refine ⟨⟨_, rfl, (hmicros (-1) _ rfl).1⟩, ⟨⟨-95746129, by decide⟩, ?_⟩, ?_, ?_, ?_⟩
  · have hd : dateFromDays (-96465292) = .ok (⟨-95746129, by decide⟩ : GregorianDay) := rfl
    exact ⟨hd, hdays _ _ hd⟩
  · exact Int32.toInt_inj.1 ((hdates ⟨95745399, by decide⟩).2.trans (by decide +kernel))
  · obtain ⟨offset, hoffset, heq⟩ := (hsums 95026237).2 (by decide)
    obtain rfl : offset = 95745400 := Int32.toInt_inj.1 (hoffset.trans (by decide))
    exact heq
  · exact (hsums 2147483647).1 (by decide)

end Days

/-! ### Integer conversions -/

/-- What `TryFromIntError` displays. -/
def tryFromIntError : String := "out of range integral type conversion attempted"

/-- `u32::try_from` of an `i32`. -/
def u32TryFrom (n : Int32) : Option UInt32 :=
  if 0 ≤ n.toInt then some (UInt32.ofNat n.toInt.toNat) else none

/-- `u64::try_from` of an `i64`. -/
def u64TryFrom (n : Int64) : Option UInt64 :=
  if 0 ≤ n.toInt then some (UInt64.ofNat n.toInt.toNat) else none

/-- `i32::try_from` of a `u32`. -/
def i32TryFrom (n : UInt32) : Option Int32 :=
  if (n.toNat : Int) ≤ Int32.maxValue.toInt then some (Int32.ofInt n.toNat) else none

/-- `i64::try_from` of a `u64`. -/
def i64TryFrom (n : UInt64) : Option Int64 :=
  if (n.toNat : Int) ≤ Int64.maxValue.toInt then some (Int64.ofInt n.toNat) else none

/-! Each of them answers with the integer it was given, or not at all. -/

lemma u32TryFrom_eq_some {n : Int32} {u : UInt32} :
    u32TryFrom n = some u ↔ (u.toNat : Int) = n.toInt := by
  have hlt := Int32.toInt_lt n
  have hu : 0 ≤ n.toInt → (UInt32.ofNat n.toInt.toNat).toNat = n.toInt.toNat := fun _ =>
    UInt32.toNat_ofNat_of_lt' (by simp only [UInt32.size]; omega)
  rw [u32TryFrom]
  split_ifs with hn
  · rw [Option.some.injEq, ← UInt32.toNat_inj, hu hn]
    omega
  · simp only [false_iff]
    omega

lemma u64TryFrom_eq_some {n : Int64} {u : UInt64} :
    u64TryFrom n = some u ↔ (u.toNat : Int) = n.toInt := by
  have hlt := Int64.toInt_lt n
  have hu : 0 ≤ n.toInt → (UInt64.ofNat n.toInt.toNat).toNat = n.toInt.toNat := fun _ =>
    UInt64.toNat_ofNat_of_lt' (by simp only [UInt64.size]; omega)
  rw [u64TryFrom]
  split_ifs with hn
  · rw [Option.some.injEq, ← UInt64.toNat_inj, hu hn]
    omega
  · simp only [false_iff]
    omega

lemma i32TryFrom_eq_some {u : UInt32} {n : Int32} :
    i32TryFrom u = some n ↔ n.toInt = u.toNat := by
  have hlt := Int32.toInt_lt n
  have hmax : Int32.maxValue.toInt = 2147483647 := rfl
  have hn : (u.toNat : Int) ≤ 2147483647 → (Int32.ofInt u.toNat).toInt = u.toNat := fun _ =>
    Int32.toInt_ofInt_of_le (by omega) (by omega)
  rw [i32TryFrom, hmax]
  split_ifs with hu
  · rw [Option.some.injEq, ← Int32.toInt_inj, hn hu]
    exact eq_comm
  · simp only [false_iff]
    omega

lemma i64TryFrom_eq_some {u : UInt64} {n : Int64} :
    i64TryFrom u = some n ↔ n.toInt = u.toNat := by
  have hlt := Int64.toInt_lt n
  have hmax : Int64.maxValue.toInt = 9223372036854775807 := rfl
  have hn : (u.toNat : Int) ≤ 9223372036854775807 → (Int64.ofInt u.toNat).toInt = u.toNat :=
    fun _ => Int64.toInt_ofInt_of_le (by omega) (by omega)
  rw [i64TryFrom, hmax]
  split_ifs with hu
  · rw [Option.some.injEq, ← Int64.toInt_inj, hn hu]
    exact eq_comm
  · simp only [false_iff]
    omega

/-! ### Timestamps and durations -/

namespace Proto

structure Timestamp where
  seconds : Int64
  nanos : Int32
deriving DecidableEq, Repr

structure Duration where
  seconds : Int64
  nanos : Int32
deriving DecidableEq, Repr

/-- The range of the `nanos` field of either message. -/
def NanosInRange (nanos : Int32) : Prop :=
  0 ≤ nanos.toInt ∧ nanos.toInt ≤ 999999999

end Proto

/-- `std::time::Duration`, whose nanoseconds are less than a second. -/
structure Duration where
  secs : UInt64
  nanos : UInt32
  nanos_lt : nanos.toNat < 1000000000
deriving DecidableEq

/-- `Duration::new`, with whole seconds among the nanoseconds carried over; `none` is the panic
of an overflowing carry. -/
def Duration.new (secs : UInt64) (nanos : UInt32) : Option Duration :=
  if h : nanos.toNat < 1000000000 then some ⟨secs, nanos, h⟩
  else
    let carried := secs.toNat + nanos.toNat / 1000000000
    if carried < UInt64.size then
      some ⟨UInt64.ofNat carried, UInt32.ofNat (nanos.toNat % 1000000000), by
        have hlt := Nat.mod_lt nanos.toNat (by omega : 1000000000 > 0)
        rw [UInt32.toNat_ofNat_of_lt' (by simp only [UInt32.size]; omega)]
        exact hlt⟩
    else none

section Convert

variable {T : Type} [DateTime T]

/-- `from_grpc_timestamp`. -/
def fromGrpcTimestamp (timestamp : Proto.Timestamp) : DamlResult T :=
  match u32TryFrom timestamp.nanos with
  | none => .error (.failedConversion s!"negative nanos {timestamp.nanos}")
  | some nanos =>
    match DateTime.fromTimestamp timestamp.seconds nanos with
    | none =>
      .error (.failedConversion s!"timestamp ({timestamp.seconds}, {nanos}) out of range")
    | some datetime => .ok datetime

/-- `to_grpc_timestamp`. -/
def toGrpcTimestamp (datetime : T) : DamlResult Proto.Timestamp :=
  match i32TryFrom (DateTime.timestampSubsecNanos datetime) with
  | none => .error (.failedConversion tryFromIntError)
  | some nanos => .ok ⟨DateTime.timestamp datetime, nanos⟩

/-- `from_grpc_duration`; `none` is a panic. -/
def fromGrpcDuration (duration : Proto.Duration) : Option (DamlResult Duration) :=
  match u64TryFrom duration.seconds with
  | none => some (.error (.failedConversion s!"negative seconds {duration.seconds}"))
  | some seconds =>
    match u32TryFrom duration.nanos with
    | none => some (.error (.failedConversion s!"negative nanos {duration.nanos}"))
    | some nanos => (Duration.new seconds nanos).map .ok

/-- `to_grpc_duration`. -/
def toGrpcDuration (duration : Duration) : DamlResult Proto.Duration :=
  match i64TryFrom duration.secs with
  | none => .error (.failedConversion tryFromIntError)
  | some seconds =>
    match i32TryFrom duration.nanos with
    | none => .error (.failedConversion tryFromIntError)
    | some nanos => .ok ⟨seconds, nanos⟩

lemma toGrpcTimestamp_eq_ok {t : T} {m : Proto.Timestamp} :
    toGrpcTimestamp t = .ok m ↔
      m.seconds = DateTime.timestamp t ∧
        m.nanos.toInt = (DateTime.timestampSubsecNanos t).toNat := by
  obtain ⟨seconds, nanos⟩ := m
  rw [toGrpcTimestamp, ← i32TryFrom_eq_some]
  split
  next h => simp [h]
  next n h => simp [h, eq_comm]

lemma fromGrpcTimestamp_eq_ok {t : T} {m : Proto.Timestamp} :
    fromGrpcTimestamp m = .ok t ↔
      ∃ nanos, (nanos.toNat : Int) = m.nanos.toInt ∧
        DateTime.fromTimestamp m.seconds nanos = some t := by
  simp only [← u32TryFrom_eq_some]
  rw [fromGrpcTimestamp]
  split
  next h => simp [h]
  next n h =>
    split
    next ht => simp [h, ht]
    next t' ht => simp [h, ht]

lemma toGrpcDuration_eq_ok {d : Duration} {m : Proto.Duration} :
    toGrpcDuration d = .ok m ↔
      m.seconds.toInt = d.secs.toNat ∧ m.nanos.toInt = d.nanos.toNat := by
  obtain ⟨seconds, nanos⟩ := m
  rw [toGrpcDuration, ← i32TryFrom_eq_some, ← i64TryFrom_eq_some]
  split
  next h => simp [h]
  next s h =>
    split
    next hn => simp [hn]
    next n hn => simp [h, hn]

lemma Duration.new_of_lt {secs : UInt64} {nanos : UInt32} (h : nanos.toNat < 1000000000) :
    Duration.new secs nanos = some ⟨secs, nanos, h⟩ :=
  dif_pos h

/-- Seconds that come from an `i64` leave room for the carry. -/
lemma Duration.isSome_new {secs : UInt64} (h : secs.toNat < 2 ^ 63) (nanos : UInt32) :
    (Duration.new secs nanos).isSome := by
  have hnanos := nanos.toNat_lt
  have hcarry : secs.toNat + nanos.toNat / 1000000000 < UInt64.size := by
    simp only [UInt64.size]
    omega
  rw [Duration.new]
  split
  next => rfl
  next => simp only [if_pos hcarry, Option.isSome_some]

/-- Decoding a duration never panics. -/
lemma isSome_fromGrpcDuration (m : Proto.Duration) : (fromGrpcDuration m).isSome := by
  rw [fromGrpcDuration]
  split
  next => rfl
  next seconds hs =>
    split
    next => rfl
    next nanos hn =>
      have hlt := Int64.toInt_lt m.seconds
      rw [u64TryFrom_eq_some] at hs
      rw [Option.isSome_map]
      exact Duration.isSome_new (by omega) nanos

lemma fromGrpcDuration_of_inRange {m : Proto.Duration} (hm : Proto.NanosInRange m.nanos)
    {d : Duration} : fromGrpcDuration m = some (.ok d) ↔
      (d.secs.toNat : Int) = m.seconds.toInt ∧ (d.nanos.toNat : Int) = m.nanos.toInt := by
  obtain ⟨secs, nanos, hlt⟩ := d
  rw [← u64TryFrom_eq_some, ← u32TryFrom_eq_some, fromGrpcDuration]
  split
  next h => simp [h]
  next s hs =>
    split
    next h => simp [h]
    next n hn =>
      have hn' := u32TryFrom_eq_some.1 hn
      rw [Duration.new_of_lt (by have := hm.2; omega), hs, hn]
      simp

/-! ### What survives the wire -/

/-- What `chrono` documents of the nanoseconds of a date-time: they pass a second only during a
leap second, and a date-time outside of one is what its seconds and nanoseconds make. -/
class LeapDateTime (T : Type) [DateTime T] : Prop extends ExactDateTime T where
  timestampSubsecNanos_lt (t : T) : (DateTime.timestampSubsecNanos t).toNat < 2000000000
  fromTimestamp_timestamp {t : T} : (DateTime.timestampSubsecNanos t).toNat < 1000000000 →
    DateTime.fromTimestamp (DateTime.timestamp t) (DateTime.timestampSubsecNanos t) = some t

instance : LeapDateTime UtcInstant where
  timestampSubsecNanos_lt t := by
    have h := t.inRange
    show t.nanos.toNat < 2000000000
    omega
  fromTimestamp_timestamp _ := LawfulDateTime.fromTimestamp_timestamp _

/-- A message that encodes the date-time is in range, and decodes to the date-time. -/
def TimestampSurvives (t : T) : Prop :=
  ∀ m, toGrpcTimestamp t = .ok m → Proto.NanosInRange m.nanos ∧ fromGrpcTimestamp m = .ok t

/-- A message that encodes the duration is in range, and decodes to the duration. -/
def DurationSurvives (d : Duration) : Prop :=
  ∀ m, toGrpcDuration d = .ok m → Proto.NanosInRange m.nanos ∧ fromGrpcDuration m = some (.ok d)

/-- Every date-time is encoded, in a leap second too. -/
lemma exists_toGrpcTimestamp [LeapDateTime T] (t : T) : ∃ m, toGrpcTimestamp t = .ok m := by
  have hlt := LeapDateTime.timestampSubsecNanos_lt t
  refine ⟨⟨DateTime.timestamp t, Int32.ofInt (DateTime.timestampSubsecNanos t).toNat⟩, ?_⟩
  exact toGrpcTimestamp_eq_ok.2 ⟨rfl, Int32.toInt_ofInt_of_le (by omega) (by omega)⟩

lemma timestampSurvives_iff [LeapDateTime T] {t : T} :
    TimestampSurvives t ↔ (DateTime.timestampSubsecNanos t).toNat < 1000000000 := by
  constructor
  · -- the nanoseconds are sent as they are, so they have to be in the range of the message
    intro h
    obtain ⟨m, hm⟩ := exists_toGrpcTimestamp t
    have hnanos := (toGrpcTimestamp_eq_ok.1 hm).2
    have hrange := (h m hm).1.2
    omega
  · intro hlt m hm
    obtain ⟨hseconds, hnanos⟩ := toGrpcTimestamp_eq_ok.1 hm
    refine ⟨⟨by omega, by omega⟩, fromGrpcTimestamp_eq_ok.2 ⟨_, hnanos.symm, ?_⟩⟩
    rw [hseconds]
    exact LeapDateTime.fromTimestamp_timestamp hlt

lemma durationSurvives (d : Duration) : DurationSurvives d := by
  intro m hm
  obtain ⟨hseconds, hnanos⟩ := toGrpcDuration_eq_ok.1 hm
  have hlt := d.nanos_lt
  have hrange : Proto.NanosInRange m.nanos := ⟨by omega, by omega⟩
  exact ⟨hrange, (fromGrpcDuration_of_inRange hrange).2 ⟨hseconds.symm, hnanos.symm⟩⟩

/-- A timestamp that decodes is encoded to the message it came from. -/
lemma toGrpcTimestamp_fromGrpcTimestamp [ExactDateTime T] {m : Proto.Timestamp} {t : T}
    (h : fromGrpcTimestamp m = .ok t) : toGrpcTimestamp t = .ok m := by
  obtain ⟨nanos, hnanos, ht⟩ := fromGrpcTimestamp_eq_ok.1 h
  obtain ⟨hs, hn⟩ := ExactDateTime.timestamp_fromTimestamp ht
  exact toGrpcTimestamp_eq_ok.2 ⟨hs.symm, by rw [hn, hnanos]⟩

lemma toGrpcDuration_fromGrpcDuration {m : Proto.Duration} {d : Duration}
    (hm : Proto.NanosInRange m.nanos) (h : fromGrpcDuration m = some (.ok d)) :
    toGrpcDuration d = .ok m := by
  obtain ⟨hs, hn⟩ := (fromGrpcDuration_of_inRange hm).1 h
  exact toGrpcDuration_eq_ok.2 ⟨hs.symm, hn.symm⟩

lemma fromGrpcTimestamp_of_neg {m : Proto.Timestamp} (h : m.nanos.toInt < 0) :
    fromGrpcTimestamp m = (.error (.failedConversion s!"negative nanos {m.nanos}") :
      DamlResult T) := by
  have hnone : u32TryFrom m.nanos = none := if_neg (by omega)
  rw [fromGrpcTimestamp, hnone]

lemma fromGrpcDuration_of_neg {m : Proto.Duration}
    (h : m.seconds.toInt < 0 ∨ m.nanos.toInt < 0) :
    ∃ msg, fromGrpcDuration m = some (.error (.failedConversion msg)) := by
  rw [fromGrpcDuration]
  split
  next => exact ⟨_, rfl⟩
  next seconds hs =>
    -- the seconds were converted, so it is the nanoseconds that are negative
    have hneg : m.nanos.toInt < 0 := by
      have := u64TryFrom_eq_some.1 hs
      omega
    have hnone : u32TryFrom m.nanos = none := if_neg (by omega)
    exact ⟨_, by rw [hnone]⟩

/-- A date-time survives the wire, in a message that is in range, exactly when it is not in a
leap second.  Durations always do, messages in range are encoded again as they were, and
negative ones are rejected. -/
theorem timestamps_and_durations_exact_iff [LeapDateTime T] :
    (∀ t : T, TimestampSurvives t ↔ (DateTime.timestampSubsecNanos t).toNat < 1000000000) ∧
    (∀ d : Duration, DurationSurvives d) ∧
    (∀ (m : Proto.Timestamp) (t : T), Proto.NanosInRange m.nanos →
      fromGrpcTimestamp m = .ok t → toGrpcTimestamp t = .ok m) ∧
    (∀ (m : Proto.Duration) (d : Duration), Proto.NanosInRange m.nanos →
      fromGrpcDuration m = some (.ok d) → toGrpcDuration d = .ok m) ∧
    (∀ m : Proto.Timestamp, m.nanos.toInt < 0 →
      ∃ msg, (fromGrpcTimestamp m : DamlResult T) = .error (.failedConversion msg)) ∧
    (∀ m : Proto.Duration, m.seconds.toInt < 0 ∨ m.nanos.toInt < 0 →
      ∃ msg, fromGrpcDuration m = some (.error (.failedConversion msg))) ∧
    ∀ m : Proto.Duration, (fromGrpcDuration m).isSome :=
  ⟨fun _ => timestampSurvives_iff, durationSurvives,
    fun _ _ _ h => toGrpcTimestamp_fromGrpcTimestamp h,
    fun _ _ hm h => toGrpcDuration_fromGrpcDuration hm h,
    fun _ h => ⟨_, fromGrpcTimestamp_of_neg h⟩, fun _ h => fromGrpcDuration_of_neg h,
    isSome_fromGrpcDuration⟩

/-- The last nanosecond before a leap second survives. -/
theorem timestamps_and_durations_exact_iff_before_leap :
    TimestampSurvives (⟨1483228799, 999999999, by decide⟩ : UtcInstant) :=
  (timestamps_and_durations_exact_iff.1 _).2 (by decide)

/-- Half a second into the leap second at the end of 2016 the nanoseconds sent are out of
range. -/
theorem timestamp_not_survives_in_leap :
    ¬ ∀ t : UtcInstant, TimestampSurvives t := by
  intro h
  have hrange := (h ⟨1483228799, 1500000000, by decide⟩ ⟨1483228799, 1500000000⟩ rfl).1.2
  exact absurd hrange (by decide)

end Convert

end DamlBindings.Grpc
