import Mathlib.Tactic.Lemma
import Std.Data.String.ToInt

/-!
# The decimal, date and date-time types of other crates

The bindings take `BigDecimal`, `chrono::NaiveDate` and `chrono::DateTime<Utc>` from other
crates.  They enter the model as type parameters with the functions the bindings call, and what
the bindings rely on about them is a class of laws.  At the end of the file each class has one
concrete instance, on which the model can be run: decimals without a fractional part, days of
the proleptic Gregorian calendar and instants counted from the Unix epoch.
-/

namespace DamlBindings.Grpc

/-! ### The classes -/

/-- What the bindings use of `BigDecimal`. -/
class BigDecimal (N : Type) extends Ord N, BEq N where
  toPlainString : N → String
  /-- The error is the text it displays. -/
  fromStr : String → Except String N

-- a concrete decimal type keeps its own comparisons elsewhere
attribute [instance (50)] BigDecimal.toOrd BigDecimal.toBEq

/-- Parsing the plain notation of a decimal gives back an equal decimal. -/
class LawfulBigDecimal (N : Type) [BigDecimal N] : Prop extends
    Std.TransOrd N, Std.LawfulBEqOrd N where
  fromStr_toPlainString (n : N) :
    ∃ n', BigDecimal.fromStr (BigDecimal.toPlainString n) = .ok n' ∧ n == n'

/-- What the bindings use of `chrono::NaiveDate`. -/
class NaiveDate (D : Type) extends Ord D, BEq D where
  /-- The date `NaiveDate::from_ymd_opt(1970, 1, 1)` answers with. -/
  epoch : D
  numDaysFromCe : D → Int32
  fromNumDaysFromCeOpt : Int32 → Option D
  /-- `a.signed_duration_since(b).num_days()` -/
  numDaysSince : D → D → Int64

/-- The day number of 1970-01-01, counted from 0001-01-01 as day one. -/
def epochDaysFromCe : Int32 := 719163

/-- A date is its day number; the day numbers of the dates lie in `chrono`'s range. -/
class LawfulNaiveDate (D : Type) [NaiveDate D] : Prop extends
    Std.TransOrd D, Std.LawfulBEqOrd D, LawfulBEq D where
  numDaysFromCe_epoch : NaiveDate.numDaysFromCe (NaiveDate.epoch : D) = epochDaysFromCe
  fromNumDaysFromCeOpt_numDaysFromCe (d : D) :
    NaiveDate.fromNumDaysFromCeOpt (NaiveDate.numDaysFromCe d) = some d
  numDaysFromCe_range (d : D) : -95746129 ≤ (NaiveDate.numDaysFromCe d).toInt ∧
    (NaiveDate.numDaysFromCe d).toInt ≤ 95745399
  numDaysSince_eq (a b : D) : (NaiveDate.numDaysSince a b).toInt =
    (NaiveDate.numDaysFromCe a).toInt - (NaiveDate.numDaysFromCe b).toInt

/-- What the bindings use of `chrono::DateTime<Utc>`. -/
class DateTime (T : Type) extends Ord T, BEq T where
  /-- Whole seconds since the Unix epoch. -/
  timestamp : T → Int64
  /-- The nanoseconds after the last whole second. -/
  timestampSubsecNanos : T → UInt32
  fromTimestamp : Int64 → UInt32 → Option T

/-- A date-time is its seconds and nanoseconds. -/
class LawfulDateTime (T : Type) [DateTime T] : Prop extends
    Std.TransOrd T, Std.LawfulBEqOrd T, LawfulBEq T where
  fromTimestamp_timestamp (t : T) :
    DateTime.fromTimestamp (DateTime.timestamp t) (DateTime.timestampSubsecNanos t) = some t
  timestamp_fromTimestamp {s : Int64} {n : UInt32} {t : T} :
    DateTime.fromTimestamp s n = some t →
      DateTime.timestamp t = s ∧ DateTime.timestampSubsecNanos t = n

/-- `chrono` answers with the date-time of the seconds and nanoseconds it is given. -/
class ExactDateTime (T : Type) [DateTime T] : Prop where
  timestamp_fromTimestamp {s : Int64} {n : UInt32} {t : T} :
    DateTime.fromTimestamp s n = some t →
      DateTime.timestamp t = s ∧ DateTime.timestampSubsecNanos t = n

instance (priority := low) {T : Type} [DateTime T] [LawfulDateTime T] : ExactDateTime T :=
  ⟨LawfulDateTime.timestamp_fromTimestamp⟩

/-! ### Concrete instances -/

/-- Decimals without a fractional part. -/
instance : BigDecimal Int where
  toPlainString := Int.repr
  fromStr s :=
    match s.toInt? with
    | some n => .ok n
    | none => .error "invalid digit found in string"

instance : LawfulBigDecimal Int where
  fromStr_toPlainString n := ⟨n, by
    simp only [BigDecimal.fromStr, BigDecimal.toPlainString, Int.toInt?_repr], by simp⟩

/-- A day of the proleptic Gregorian calendar, in `chrono`'s range. -/
structure GregorianDay where
  daysFromCe : Int32
  inRange : -95746129 ≤ daysFromCe.toInt ∧ daysFromCe.toInt ≤ 95745399
deriving DecidableEq

namespace GregorianDay

/-- The day with a given number, where it is in range. -/
def ofDays (n : Int32) : Option GregorianDay :=
  if h : -95746129 ≤ n.toInt ∧ n.toInt ≤ 95745399 then some ⟨n, h⟩ else none

instance : Ord GregorianDay := ⟨compareOn daysFromCe⟩

instance : Std.TransOrd GregorianDay := inferInstanceAs (Std.TransCmp (compareOn daysFromCe))

instance : Std.LawfulEqOrd GregorianDay where
  eq_of_compare {a b} h := by
    cases a
    cases b
    simpa using Std.LawfulEqOrd.eq_of_compare (α := Int32) h

instance : NaiveDate GregorianDay where
  epoch := ⟨epochDaysFromCe, by decide⟩
  numDaysFromCe := daysFromCe
  fromNumDaysFromCeOpt := ofDays
  numDaysSince a b := Int64.ofInt (a.daysFromCe.toInt - b.daysFromCe.toInt)

instance : LawfulNaiveDate GregorianDay where
  numDaysFromCe_epoch := rfl
  fromNumDaysFromCeOpt_numDaysFromCe d := by
    simp [NaiveDate.fromNumDaysFromCeOpt, NaiveDate.numDaysFromCe, ofDays, d.inRange]
  numDaysFromCe_range d := d.inRange
  numDaysSince_eq a b := by
    have ha := a.inRange
    have hb := b.inRange
    exact Int64.toInt_ofInt_of_le (by omega) (by omega)

end GregorianDay

/-- An instant: seconds since the Unix epoch and nanoseconds, in `chrono`'s range; a leap second
is nanoseconds past one second at the end of a minute. -/
structure UtcInstant where
  secs : Int64
  nanos : UInt32
  inRange : -8334601228800 ≤ secs.toInt ∧ secs.toInt ≤ 8210266876799 ∧
    (nanos.toNat < 1000000000 ∨ nanos.toNat < 2000000000 ∧ secs.toInt % 60 = 59)
deriving DecidableEq

namespace UtcInstant

/-- The instant of a number of seconds and nanoseconds, where it is in range. -/
def ofSecs (s : Int64) (n : UInt32) : Option UtcInstant :=
  if h : -8334601228800 ≤ s.toInt ∧ s.toInt ≤ 8210266876799 ∧
      (n.toNat < 1000000000 ∨ n.toNat < 2000000000 ∧ s.toInt % 60 = 59) then
    some ⟨s, n, h⟩
  else none

instance : Ord UtcInstant := ⟨compareLex (compareOn secs) (compareOn nanos)⟩

instance : Std.TransOrd UtcInstant :=
  inferInstanceAs (Std.TransCmp (compareLex (compareOn secs) (compareOn nanos)))

instance : Std.LawfulEqOrd UtcInstant where
  eq_of_compare {a b} h := by
    obtain ⟨hs, hn⟩ := compareLex_eq_eq.1 h
    cases a
    cases b
    simpa using ⟨Std.LawfulEqOrd.eq_of_compare (α := Int64) hs,
      Std.LawfulEqOrd.eq_of_compare (α := UInt32) hn⟩

instance : DateTime UtcInstant where
  timestamp := secs
  timestampSubsecNanos := nanos
  fromTimestamp := ofSecs

instance : LawfulDateTime UtcInstant where
  fromTimestamp_timestamp t := by
    have h := t.inRange
    simp only [DateTime.fromTimestamp, DateTime.timestamp, DateTime.timestampSubsecNanos, ofSecs]
    rw [dif_pos h]
  timestamp_fromTimestamp {s n t} h := by
    simp only [DateTime.fromTimestamp, ofSecs, Option.dite_none_right_eq_some,
      Option.some.injEq] at h
    obtain ⟨_, rfl⟩ := h
    exact ⟨rfl, rfl⟩

end UtcInstant

end DamlBindings.Grpc
