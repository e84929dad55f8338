import DamlBindings.Grpc.External
import DamlBindings.Grpc.ValueOrd

/-!
# Ledger values on the wire

The protobuf messages of the Ledger API that carry values, and the two conversions between them
and `DamlValue` (`data/value/values.rs`, `record.rs`, `record_field.rs`, `variant.rs`), with the
date and time conversions they use (`util.rs`).
-/

namespace DamlBindings.Grpc

/-- The errors the modelled functions return. -/
inductive DamlError where
  | unexpectedType (expected actual : String)
  | unknownField (label : String)
  | missingRequiredField
  | unexpectedVariant (expected actual : String)
  | failedConversion (msg : String)
deriving DecidableEq, Repr

abbrev DamlResult := Except DamlError

/-- `Required::req`. -/
def req {α : Type} : Option α → DamlResult α
  | some a => .ok a
  | none => .error .missingRequiredField

/-! ### Messages -/

namespace Proto

structure Identifier where
  packageId : String
  moduleName : String
  entityName : String
deriving DecidableEq, Repr

structure RecordField (V : Type) where
  label : String
  value : Option V

structure Record (V : Type) where
  recordId : Option Identifier
  fields : List (RecordField V)

structure Variant (V : Type) where
  variantId : Option Identifier
  constructor : String
  value : Option V

structure Enum where
  enumId : Option Identifier
  constructor : String

structure TextMapEntry (V : Type) where
  key : String
  value : Option V

structure GenMapEntry (V : Type) where
  key : Option V
  value : Option V

/-- The `Value` message; `unset` is a message whose `sum` is absent. -/
inductive Value where
  | unset
  | record (v : Record Value)
  | variant (v : Variant Value)
  | enum (e : Enum)
  | contractId (v : String)
  | list (elements : List Value)
  | int64 (v : Int64)
  | numeric (v : String)
  | text (v : String)
  | timestamp (v : Int64)
  | party (v : String)
  | bool (v : Bool)
  | unit
  | date (v : Int32)
  | optional (value : Option Value)
  | textMap (entries : List (TextMapEntry Value))
  | genMap (entries : List (GenMapEntry Value))

end Proto

/-! ### Dates and times -/

section Util

variable {D T : Type}

/-- `i32::checked_add`. -/
def checkedAdd (a b : Int32) : Option Int32 :=
  if Int32.minValue.toInt ≤ a.toInt + b.toInt ∧ a.toInt + b.toInt ≤ Int32.maxValue.toInt then
    some (a + b)
  else none

/-- A sum that is answered is the sum of the integers, and every sum in range is. -/
lemma checkedAdd_eq_some {a b n : Int32} :
    checkedAdd a b = some n ↔ n.toInt = a.toInt + b.toInt := by
  have hlo := Int32.le_toInt n
  have hhi := Int32.toInt_lt n
  have hmin : Int32.minValue.toInt = -2147483648 := rfl
  have hmax : Int32.maxValue.toInt = 2147483647 := rfl
  have hsum : -2147483648 ≤ a.toInt + b.toInt → a.toInt + b.toInt ≤ 2147483647 →
      (a + b).toInt = a.toInt + b.toInt := by
    intro hlo hhi
    rw [Int32.toInt_add]
    exact Int.bmod_eq_of_le (by omega) (by omega)
  rw [checkedAdd, hmin, hmax]
  split_ifs with hrange
  · rw [Option.some.injEq, ← Int32.toInt_inj, hsum hrange.1 hrange.2]
    exact eq_comm
  · simp only [false_iff]
    omega

/-- `date_from_days`. -/
def dateFromDays [NaiveDate D] (days : Int32) : DamlResult D :=
  match checkedAdd days (NaiveDate.numDaysFromCe (NaiveDate.epoch : D)) with
  | none => .error (.failedConversion s!"date from days {days} overflowed i32")
  | some offset =>
    match NaiveDate.fromNumDaysFromCeOpt offset with
    | none => .error (.failedConversion s!"date from days {days} out of range")
    | some date => .ok date

/-- `datetime_from_micros`. -/
def datetimeFromMicros [DateTime T] (micros : Int64) : DamlResult T :=
  -- `div_euclid` and `rem_euclid`, so that the nanoseconds are not negative
  let secs := Int64.ofInt (micros.toInt / 1000000)
  let nanosPart := UInt32.ofNat (micros.toInt % 1000000 * 1000).toNat
  match DateTime.fromTimestamp secs nanosPart with
  | none => .error (.failedConversion s!"datetime from micros {micros} out of range")
  | some datetime => .ok datetime

/-- `days_from_date`. -/
def daysFromDate [NaiveDate D] (date : D) : Int32 :=
  (NaiveDate.numDaysSince date NaiveDate.epoch).toInt32

end Util

/-! ### The encoder -/

def DamlIdentifier.toIdentifier (id : DamlIdentifier) : Proto.Identifier :=
  ⟨id.packageRef, id.moduleName, id.entityName⟩

def DamlIdentifier.ofIdentifier (id : Proto.Identifier) : DamlIdentifier :=
  ⟨id.packageId, id.moduleName, id.entityName⟩

def DamlEnum.toEnum (e : DamlEnum) : Proto.Enum :=
  ⟨e.enumId.map DamlIdentifier.toIdentifier, e.constructor⟩

def DamlEnum.ofEnum (e : Proto.Enum) : DamlEnum :=
  ⟨e.enumId.map DamlIdentifier.ofIdentifier, e.constructor⟩

namespace DamlValue

variable {N D T : Type} [BigDecimal N] [NaiveDate D] [DateTime T]

mutual

/-- `From<DamlValue> for Value`. -/
def toValue : DamlValue N D T → Proto.Value
  | .record ⟨id, fs⟩ => .record ⟨id.map DamlIdentifier.toIdentifier, toRecordFields fs⟩
  | .variant ⟨id, c, v⟩ => .variant ⟨id.map DamlIdentifier.toIdentifier, c, some (toValue v)⟩
  | .enum e => .enum e.toEnum
  | .contractId c => .contractId c.contractId
  | .list vs => .list (toValues vs)
  | .int64 i => .int64 i
  | .numeric n => .numeric (BigDecimal.toPlainString n)
  | .text s => .text s
  | .timestamp t => .timestamp (DateTime.timestamp t)
  | .party p => .party p.party
  | .bool b => .bool b
  | .unit => .unit
  | .date d => .date (daysFromDate d)
  | .optional (some v) => .optional (some (toValue v))
  | .optional none => .optional none
  | .textMap m => .textMap (toTextMapEntries m)
  | .genMap m => .genMap (toGenMapEntries m)
termination_by structural v => v

def toRecordFields : List (DamlRecordField (DamlValue N D T)) →
    List (Proto.RecordField Proto.Value)
  | [] => []
  | ⟨l, v⟩ :: fs => ⟨l.getD "", some (toValue v)⟩ :: toRecordFields fs
termination_by structural fs => fs

def toValues : List (DamlValue N D T) → List Proto.Value
  | [] => []
  | v :: vs => toValue v :: toValues vs
termination_by structural vs => vs

def toTextMapEntries : List (String × DamlValue N D T) → List (Proto.TextMapEntry Proto.Value)
  | [] => []
  | (k, v) :: m => ⟨k, some (toValue v)⟩ :: toTextMapEntries m
termination_by structural m => m

def toGenMapEntries : List (DamlValue N D T × DamlValue N D T) →
    List (Proto.GenMapEntry Proto.Value)
  | [] => []
  | (k, v) :: m => ⟨some (toValue k), some (toValue v)⟩ :: toGenMapEntries m
termination_by structural m => m

end

/-! ### The decoder -/

mutual

/-- `TryFrom<Value> for DamlValue`. -/
def tryFrom : Proto.Value → DamlResult (DamlValue N D T)
  | .unset => .error .missingRequiredField
  | .record ⟨id, fs⟩ => do
    return .record ⟨id.map DamlIdentifier.ofIdentifier, ← tryFromRecordFields fs⟩
  | .variant ⟨_, _, none⟩ => .error .missingRequiredField
  | .variant ⟨id, c, some v⟩ => do
    return .variant ⟨id.map DamlIdentifier.ofIdentifier, c, ← tryFrom v⟩
  | .enum e => .ok (.enum (DamlEnum.ofEnum e))
  | .contractId c => .ok (.contractId ⟨c⟩)
  | .list vs => do return .list (← tryFromValues vs)
  | .int64 i => .ok (.int64 i)
  | .numeric s =>
    match BigDecimal.fromStr s with
    | .ok n => .ok (.numeric n)
    | .error e => .error (.failedConversion e)
  | .text s => .ok (.text s)
  | .timestamp i => do return .timestamp (← datetimeFromMicros i)
  | .party p => .ok (.party ⟨p⟩)
  | .bool b => .ok (.bool b)
  | .unit => .ok .unit
  | .date i => do return .date (← dateFromDays i)
  | .optional none => .ok (.optional none)
  | .optional (some v) => do return .optional (some (← tryFrom v))
  | .textMap es => do return .textMap (AssocMap.ofList (← tryFromTextMapEntries es))
  | .genMap es => do return .genMap (AssocMap.ofListSorted cmp (← tryFromGenMapEntries es))
termination_by structural v => v

/-- `TryFrom<RecordField>` for each field; an empty label is an absent one. -/
def tryFromRecordFields : List (Proto.RecordField Proto.Value) →
    DamlResult (List (DamlRecordField (DamlValue N D T)))
  | [] => .ok []
  | ⟨_, none⟩ :: _ => .error .missingRequiredField
  | ⟨l, some v⟩ :: fs => do
    let value ← tryFrom v
    return ⟨if l.isEmpty then none else some l, value⟩ :: (← tryFromRecordFields fs)
termination_by structural fs => fs

def tryFromValues : List Proto.Value → DamlResult (List (DamlValue N D T))
  | [] => .ok []
  | v :: vs => do return (← tryFrom v) :: (← tryFromValues vs)
termination_by structural vs => vs

def tryFromTextMapEntries : List (Proto.TextMapEntry Proto.Value) →
    DamlResult (List (String × DamlValue N D T))
  | [] => .ok []
  | ⟨_, none⟩ :: _ => .error .missingRequiredField
  | ⟨k, some v⟩ :: es => do
    let value ← tryFrom v
    return (k, value) :: (← tryFromTextMapEntries es)
termination_by structural es => es

def tryFromGenMapEntries : List (Proto.GenMapEntry Proto.Value) →
    DamlResult (List (DamlValue N D T × DamlValue N D T))
  | [] => .ok []
  | ⟨none, _⟩ :: _ => .error .missingRequiredField
  | ⟨some k, none⟩ :: _ => do
    -- the key is decoded before the value is missed
    let _ : DamlValue N D T ← tryFrom k
    .error .missingRequiredField
  | ⟨some k, some v⟩ :: es => do
    let key ← tryFrom k
    let value ← tryFrom v
    return (key, value) :: (← tryFromGenMapEntries es)
termination_by structural es => es

end

end DamlValue

end DamlBindings.Grpc
