import DamlBindings.Grpc.TimeUtil
import DamlBindings.Grpc.WireRoundTrip

/-!
# Commands

The commands of the Ledger API (`data/command`, `data/commands.rs`) with the messages they are sent
as, and the factory that assembles a submission (`command_factory.rs`).  The command inspection of a
participant reads the commands of a submission back.
-/

namespace DamlBindings.Grpc

variable {N D T : Type}

/-! ### Messages -/

namespace Proto

structure CreateCommand where
  templateId : Option Identifier
  createArguments : Option (Record Value)

structure ExerciseCommand where
  templateId : Option Identifier
  contractId : String
  choice : String
  choiceArgument : Option Value

structure ExerciseByKeyCommand where
  templateId : Option Identifier
  contractKey : Option Value
  choice : String
  choiceArgument : Option Value

structure CreateAndExerciseCommand where
  templateId : Option Identifier
  createArguments : Option (Record Value)
  choice : String
  choiceArgument : Option Value

/-- The `Command` message; `unset` is a message whose `command` is absent. -/
inductive Command where
  | unset
  | create (c : CreateCommand)
  | exercise (c : ExerciseCommand)
  | exerciseByKey (c : ExerciseByKeyCommand)
  | createAndExercise (c : CreateAndExerciseCommand)

inductive DeduplicationPeriod where
  | deduplicationDuration (d : Duration)
  | deduplicationOffset (offset : Int64)

structure DisclosedContract where
  templateId : Option Identifier
  contractId : String
  createdEventBlob : List UInt8
  synchronizerId : String

structure PrefetchContractKey where
  templateId : Option Identifier
  contractKey : Option Value
  limit : Option UInt32

structure Commands where
  workflowId : String
  userId : String
  commandId : String
  commands : List Command
  deduplicationPeriod : Option DeduplicationPeriod
  minLedgerTimeAbs : Option Timestamp
  minLedgerTimeRel : Option Duration
  actAs : List String
  readAs : List String
  submissionId : String
  disclosedContracts : List DisclosedContract
  synchronizerId : String
  packageIdSelectionPreference : List String
  prefetchContractKeys : List PrefetchContractKey
  tapsMaxPasses : Option UInt32

end Proto

/-! ### Commands -/

structure DamlCreateCommand (N D T : Type) where
  templateId : DamlIdentifier
  createArguments : DamlRecord (DamlValue N D T)

structure DamlExerciseCommand (N D T : Type) where
  templateId : DamlIdentifier
  contractId : String
  choice : String
  choiceArgument : DamlValue N D T

structure DamlExerciseByKeyCommand (N D T : Type) where
  templateId : DamlIdentifier
  contractKey : DamlValue N D T
  choice : String
  choiceArgument : DamlValue N D T

structure DamlCreateAndExerciseCommand (N D T : Type) where
  templateId : DamlIdentifier
  createArguments : DamlRecord (DamlValue N D T)
  choice : String
  choiceArgument : DamlValue N D T

/-- A Daml ledger command. -/
inductive DamlCommand (N D T : Type) where
  | create (c : DamlCreateCommand N D T)
  | exercise (c : DamlExerciseCommand N D T)
  | exerciseByKey (c : DamlExerciseByKeyCommand N D T)
  | createAndExercise (c : DamlCreateAndExerciseCommand N D T)

inductive DamlMinLedgerTime (T : Type) where
  | absolute (t : T)
  | relative (d : Duration)

inductive DamlCommandsDeduplicationPeriod where
  | deduplicationOffset (offset : Int64)
  | deduplicationDuration (d : Duration)

structure DamlDisclosedContract where
  templateId : Option DamlIdentifier
  contractId : String
  createdEventBlob : List UInt8
  synchronizerId : String

structure DamlPrefetchContractKey (N D T : Type) where
  templateId : DamlIdentifier
  contractKey : DamlValue N D T
  limit : Option UInt32

/-- A composite command, which the participant processes atomically. -/
structure DamlCommands (N D T : Type) where
  workflowId : String
  userId : String
  commandId : String
  submissionId : String
  actAs : List String
  readAs : List String
  commands : List (DamlCommand N D T)
  deduplicationPeriod : Option DamlCommandsDeduplicationPeriod
  minLedgerTime : Option (DamlMinLedgerTime T)
  disclosedContracts : List DamlDisclosedContract
  synchronizerId : String
  packageIdSelectionPreference : List String
  prefetchContractKeys : List (DamlPrefetchContractKey N D T)
  tapsMaxPasses : Option UInt32

/-- `DamlCommands::new` -/
def DamlCommands.new (userId commandId : String) (actAs : List String)
    (commands : List (DamlCommand N D T)) : DamlCommands N D T where
  workflowId := ""
  userId := userId
  commandId := commandId
  submissionId := ""
  actAs := actAs
  readAs := []
  commands := commands
  deduplicationPeriod := none
  minLedgerTime := none
  disclosedContracts := []
  synchronizerId := ""
  packageIdSelectionPreference := []
  prefetchContractKeys := []
  tapsMaxPasses := none

structure DamlCommandFactory (T : Type) where
  workflowId : String
  userId : String
  actAs : List String
  readAs : List String
  deduplicationPeriod : Option DamlCommandsDeduplicationPeriod
  minLedgerTime : Option (DamlMinLedgerTime T)

namespace DamlCommandFactory

variable (factory : DamlCommandFactory T)

/-- `make_commands`, where `newV4` is the fresh identifier that is drawn if none is given. -/
def makeCommands (newV4 : String) (commands : List (DamlCommand N D T))
    (commandId : Option String) : DamlCommands N D T :=
  { DamlCommands.new factory.userId (commandId.getD newV4) factory.actAs commands with
    workflowId := factory.workflowId
    readAs := factory.readAs
    deduplicationPeriod := factory.deduplicationPeriod
    minLedgerTime := factory.minLedgerTime }

/-- `make_command` -/
def makeCommand (newV4 : String) (command : DamlCommand N D T) : DamlCommands N D T :=
  factory.makeCommands newV4 [command] none

end DamlCommandFactory

/-! ### Conversions -/

section Convert

variable [BigDecimal N] [NaiveDate D] [DateTime T]

/-- `From<DamlRecord> for Record` -/
def DamlRecord.toRecord (r : DamlRecord (DamlValue N D T)) : Proto.Record Proto.Value :=
  ⟨r.recordId.map DamlIdentifier.toIdentifier, DamlValue.toRecordFields r.fields⟩

/-- `TryFrom<Record> for DamlRecord` -/
def DamlRecord.tryFrom (r : Proto.Record Proto.Value) :
    DamlResult (DamlRecord (DamlValue N D T)) := do
  let fields ← DamlValue.tryFromRecordFields r.fields
  return ⟨r.recordId.map DamlIdentifier.ofIdentifier, fields⟩

/-- `From<DamlCommand> for Command` -/
def DamlCommand.toCommand : DamlCommand N D T → Proto.Command
  | .create c => .create ⟨some c.templateId.toIdentifier, some c.createArguments.toRecord⟩
  | .exercise c => .exercise
    ⟨some c.templateId.toIdentifier, c.contractId, c.choice, some c.choiceArgument.toValue⟩
  | .exerciseByKey c => .exerciseByKey
    ⟨some c.templateId.toIdentifier, some c.contractKey.toValue, c.choice,
      some c.choiceArgument.toValue⟩
  | .createAndExercise c => .createAndExercise
    ⟨some c.templateId.toIdentifier, some c.createArguments.toRecord, c.choice,
      some c.choiceArgument.toValue⟩

/-- `TryFrom<Command> for DamlCommand` -/
def DamlCommand.tryFrom : Proto.Command → DamlResult (DamlCommand N D T)
  | .unset => .error .missingRequiredField
  | .create c => do
    let templateId := DamlIdentifier.ofIdentifier (← req c.templateId)
    return .create ⟨templateId, ← DamlRecord.tryFrom (← req c.createArguments)⟩
  | .exercise c => do
    let templateId := DamlIdentifier.ofIdentifier (← req c.templateId)
    return .exercise
      ⟨templateId, c.contractId, c.choice, ← DamlValue.tryFrom (← req c.choiceArgument)⟩
  | .exerciseByKey c => do
    let templateId := DamlIdentifier.ofIdentifier (← req c.templateId)
    let contractKey ← DamlValue.tryFrom (← req c.contractKey)
    return .exerciseByKey
      ⟨templateId, contractKey, c.choice, ← DamlValue.tryFrom (← req c.choiceArgument)⟩
  | .createAndExercise c => do
    let templateId := DamlIdentifier.ofIdentifier (← req c.templateId)
    let createArguments ← DamlRecord.tryFrom (← req c.createArguments)
    return .createAndExercise
      ⟨templateId, createArguments, c.choice, ← DamlValue.tryFrom (← req c.choiceArgument)⟩

/-- `TryFrom<DamlCommandsDeduplicationPeriod> for DeduplicationPeriod` -/
def DamlCommandsDeduplicationPeriod.toDeduplicationPeriod :
    DamlCommandsDeduplicationPeriod → DamlResult Proto.DeduplicationPeriod
  | .deduplicationOffset offset => .ok (.deduplicationOffset offset)
  | .deduplicationDuration d => do return .deduplicationDuration (← toGrpcDuration d)

/-- `From<DamlDisclosedContract> for DisclosedContract` -/
def DamlDisclosedContract.toDisclosedContract (d : DamlDisclosedContract) :
    Proto.DisclosedContract :=
  ⟨d.templateId.map DamlIdentifier.toIdentifier, d.contractId, d.createdEventBlob, d.synchronizerId⟩

/-- `TryFrom<DamlPrefetchContractKey> for PrefetchContractKey`, which does not fail. -/
def DamlPrefetchContractKey.toPrefetchContractKey (p : DamlPrefetchContractKey N D T) :
    DamlResult Proto.PrefetchContractKey :=
  .ok ⟨some p.templateId.toIdentifier, some p.contractKey.toValue, p.limit⟩

namespace DamlCommands

/-- The `min_ledger_time_abs` of a message. -/
def minLedgerTimeAbs (d : DamlCommands N D T) : DamlResult (Option Proto.Timestamp) :=
  match d.minLedgerTime with
  | some (.absolute ts) => some <$> toGrpcTimestamp ts
  | _ => .ok none

/-- The `min_ledger_time_rel` of a message. -/
def minLedgerTimeRel (d : DamlCommands N D T) : DamlResult (Option Proto.Duration) :=
  match d.minLedgerTime with
  | some (.relative dur) => some <$> toGrpcDuration dur
  | _ => .ok none

/-- `TryFrom<DamlCommands> for Commands` -/
def toCommands (d : DamlCommands N D T) : DamlResult Proto.Commands := do
  let minLedgerTimeAbs ← d.minLedgerTimeAbs
  let minLedgerTimeRel ← d.minLedgerTimeRel
  let deduplicationPeriod ← d.deduplicationPeriod.mapM
    DamlCommandsDeduplicationPeriod.toDeduplicationPeriod
  let prefetchContractKeys ← d.prefetchContractKeys.mapM
    DamlPrefetchContractKey.toPrefetchContractKey
  return {
    workflowId := d.workflowId
    userId := d.userId
    commandId := d.commandId
    submissionId := d.submissionId
    actAs := d.actAs
    readAs := d.readAs
    commands := d.commands.map DamlCommand.toCommand
    minLedgerTimeAbs := minLedgerTimeAbs
    minLedgerTimeRel := minLedgerTimeRel
    deduplicationPeriod := deduplicationPeriod
    disclosedContracts := d.disclosedContracts.map DamlDisclosedContract.toDisclosedContract
    synchronizerId := d.synchronizerId
    packageIdSelectionPreference := d.packageIdSelectionPreference
    prefetchContractKeys := prefetchContractKeys
    tapsMaxPasses := d.tapsMaxPasses }

end DamlCommands

/-! ### What is sent of a value -/

lemma DamlRecord.toValue_eq (r : DamlRecord (DamlValue N D T)) :
    (DamlValue.record r).toValue = .record r.toRecord := by
  cases r
  rfl

lemma DamlRecord.tryFrom_eq_ok {m : Proto.Record Proto.Value} {r : DamlRecord (DamlValue N D T)} :
    tryFrom m = .ok r ↔ DamlValue.tryFrom (.record m) = .ok (.record r) := by
  rw [tryFrom, DamlValue.tryFrom]
  simp only [Except.bind_eq_ok, Except.pure_eq_ok, DamlValue.record.injEq]

lemma DamlRecord.tryFrom_toRecord {r r' : DamlRecord (DamlValue N D T)} :
    tryFrom r.toRecord = .ok r' ↔
      DamlValue.tryFrom (DamlValue.record r).toValue = .ok (.record r') := by
  rw [DamlRecord.toValue_eq, DamlRecord.tryFrom_eq_ok]

/-- A value survives the wire if what is decoded is equal to it. -/
def DamlValue.Survives (v : DamlValue N D T) : Prop :=
  ∃ w, tryFrom v.toValue = .ok w ∧ v.beq w

lemma DamlValue.survives_iff [LawfulBigDecimal N] [LawfulNaiveDate D] [LawfulDateTime T]
    {v : DamlValue N D T} (hv : v.Valid) (hl : ∀ l ∈ v.labels, l ≠ some "") :
    v.Survives ↔ v.TimestampsExact := by
  constructor
  · rintro ⟨w, hw, hbeq⟩
    exact (wireWeight_tryFrom hv hw).2 (wireWeight_eq_of_beq hv hbeq).symm
  · intro ht
    obtain ⟨w, hw, hbeq, -⟩ := tryFrom_toValue_of_exact v hv hl ht
    exact ⟨w, hw, hbeq⟩

/-- A record survives as a value exactly if it survives as the arguments of a command. -/
lemma DamlRecord.survives_iff {r : DamlRecord (DamlValue N D T)} :
    (DamlValue.record r).Survives ↔
      ∃ r', tryFrom r.toRecord = .ok r' ∧ (DamlValue.record r).beq (.record r') := by
  constructor
  · rintro ⟨w, hw, hbeq⟩
    cases w with
    | record r' => exact ⟨r', DamlRecord.tryFrom_toRecord.2 hw, hbeq⟩
    | _ => simp [DamlValue.beq] at hbeq
  · rintro ⟨r', hr', hbeq⟩
    exact ⟨.record r', DamlRecord.tryFrom_toRecord.1 hr', hbeq⟩

/-! ### What is sent of a command -/

namespace DamlCommand

/-- The values in a command. -/
def payload : DamlCommand N D T → List (DamlValue N D T)
  | .create c => [.record c.createArguments]
  | .exercise c => [c.choiceArgument]
  | .exerciseByKey c => [c.contractKey, c.choiceArgument]
  | .createAndExercise c => [.record c.createArguments, c.choiceArgument]

/-- `PartialEq` -/
def beq : DamlCommand N D T → DamlCommand N D T → Bool
  | .create a, .create b =>
    a.templateId == b.templateId &&
      (DamlValue.record a.createArguments).beq (.record b.createArguments)
  | .exercise a, .exercise b =>
    a.templateId == b.templateId && a.contractId == b.contractId && a.choice == b.choice &&
      a.choiceArgument.beq b.choiceArgument
  | .exerciseByKey a, .exerciseByKey b =>
    a.templateId == b.templateId && a.contractKey.beq b.contractKey && a.choice == b.choice &&
      a.choiceArgument.beq b.choiceArgument
  | .createAndExercise a, .createAndExercise b =>
    a.templateId == b.templateId &&
      (DamlValue.record a.createArguments).beq (.record b.createArguments) &&
        a.choice == b.choice && a.choiceArgument.beq b.choiceArgument
  | _, _ => false

/-- A command is read back as an equal one if its values are. -/
lemma exists_tryFrom_iff (c : DamlCommand N D T) :
    (∃ c', tryFrom c.toCommand = .ok c' ∧ c.beq c') ↔ ∀ v ∈ c.payload, v.Survives := by
  cases c with
  | create c =>
    simp only [toCommand, tryFrom, req, payload, List.forall_mem_singleton,
      DamlRecord.survives_iff, Except.bind_eq_ok, Except.pure_eq_ok, Except.ok.injEq]
    constructor
    · rintro ⟨_, ⟨_, rfl, _, rfl, r', hr', rfl⟩, hbeq⟩
      simp only [beq, Bool.and_eq_true] at hbeq
      exact ⟨r', hr', hbeq.2⟩
    · rintro ⟨r', hr', hbeq⟩
      exact ⟨_, ⟨_, rfl, _, rfl, r', hr', rfl⟩, by simp [beq, hbeq]⟩
  | exercise c =>
    simp only [toCommand, tryFrom, req, payload, List.forall_mem_singleton, DamlValue.Survives,
      Except.bind_eq_ok, Except.pure_eq_ok, Except.ok.injEq]
    constructor
    · rintro ⟨_, ⟨_, rfl, _, rfl, w, hw, rfl⟩, hbeq⟩
      simp only [beq, Bool.and_eq_true] at hbeq
      exact ⟨w, hw, hbeq.2⟩
    · rintro ⟨w, hw, hbeq⟩
      exact ⟨_, ⟨_, rfl, _, rfl, w, hw, rfl⟩, by simp [beq, hbeq]⟩
  | exerciseByKey c =>
    simp only [toCommand, tryFrom, req, payload, List.forall_mem_cons, DamlValue.Survives,
      Except.bind_eq_ok, Except.pure_eq_ok, Except.ok.injEq]
    constructor
    · rintro ⟨_, ⟨_, rfl, _, rfl, k, hk, _, rfl, w, hw, rfl⟩, hbeq⟩
      simp only [beq, Bool.and_eq_true] at hbeq
      exact ⟨⟨k, hk, hbeq.1.1.2⟩, ⟨w, hw, hbeq.2⟩, by simp⟩
    · rintro ⟨⟨k, hk, hbeqk⟩, ⟨w, hw, hbeq⟩, -⟩
      exact ⟨_, ⟨_, rfl, _, rfl, k, hk, _, rfl, w, hw, rfl⟩, by simp [beq, hbeqk, hbeq]⟩
  | createAndExercise c =>
    simp only [toCommand, tryFrom, req, payload, List.forall_mem_cons, DamlRecord.survives_iff,
      Except.bind_eq_ok, Except.pure_eq_ok, Except.ok.injEq]
    rw [DamlValue.Survives]
    constructor
    · rintro ⟨_, ⟨_, rfl, _, rfl, r', hr', _, rfl, w, hw, rfl⟩, hbeq⟩
      simp only [beq, Bool.and_eq_true] at hbeq
      exact ⟨⟨r', hr', hbeq.1.1.2⟩, ⟨w, hw, hbeq.2⟩, by simp⟩
    · rintro ⟨⟨r', hr', hbeqr⟩, ⟨w, hw, hbeq⟩, -⟩
      exact ⟨_, ⟨_, rfl, _, rfl, r', hr', _, rfl, w, hw, rfl⟩, by simp [beq, hbeqr, hbeq]⟩

end DamlCommand

/-! ### Submissions -/

namespace DamlCommands

/-- The seconds of the durations of a submission fit into a message. -/
structure DurationsFit (d : DamlCommands N D T) : Prop where
  minLedgerTime : ∀ dur, d.minLedgerTime = some (.relative dur) → dur.secs.toNat < 2 ^ 63
  deduplicationPeriod : ∀ dur, d.deduplicationPeriod = some (.deduplicationDuration dur) →
    dur.secs.toNat < 2 ^ 63

omit [DateTime T] in
lemma exists_toGrpcDuration_iff {d : Duration} :
    (∃ m, toGrpcDuration d = .ok m) ↔ d.secs.toNat < 2 ^ 63 := by
  constructor
  · rintro ⟨m, hm⟩
    have hseconds := (toGrpcDuration_eq_ok.1 hm).1
    have hlt := Int64.toInt_lt m.seconds
    omega
  · intro hlt
    have hnanos := d.nanos_lt
    refine ⟨⟨Int64.ofInt d.secs.toNat, Int32.ofInt d.nanos.toNat⟩, toGrpcDuration_eq_ok.2 ⟨?_, ?_⟩⟩
    · exact Int64.toInt_ofInt_of_le (by omega) (by omega)
    · exact Int32.toInt_ofInt_of_le (by omega) (by omega)

/-- A minimal ledger time in the message of a submission. -/
structure TimesSent (minLedgerTime : Option (DamlMinLedgerTime T)) (m : Proto.Commands) : Prop where
  absolute : ∀ ts, minLedgerTime = some (.absolute ts) →
    ∃ t, toGrpcTimestamp ts = .ok t ∧ m.minLedgerTimeAbs = some t ∧ m.minLedgerTimeRel = none
  relative : ∀ dur, minLedgerTime = some (.relative dur) →
    ∃ t, toGrpcDuration dur = .ok t ∧ m.minLedgerTimeRel = some t ∧ m.minLedgerTimeAbs = none
  unset : minLedgerTime = none → m.minLedgerTimeAbs = none ∧ m.minLedgerTimeRel = none

lemma mapM_toPrefetchContractKey (ps : List (DamlPrefetchContractKey N D T)) :
    ps.mapM DamlPrefetchContractKey.toPrefetchContractKey = .ok (ps.map fun p =>
      ⟨some p.templateId.toIdentifier, some p.contractKey.toValue, p.limit⟩) := by
  rw [Except.mapM_eq_ok, List.forall₂_map_right_iff]
  exact List.forall₂_same.2 fun p _ => rfl

omit [BigDecimal N] [NaiveDate D] in
lemma minLedgerTimeAbs_eq_ok {d : DamlCommands N D T} {r : Option Proto.Timestamp} :
    d.minLedgerTimeAbs = .ok r ↔
      (∃ ts t, d.minLedgerTime = some (.absolute ts) ∧ toGrpcTimestamp ts = .ok t ∧ some t = r) ∨
        (∀ ts, d.minLedgerTime ≠ some (.absolute ts)) ∧ none = r := by
  unfold minLedgerTimeAbs
  rcases d.minLedgerTime with _ | (ts | dur) <;> simp

omit [BigDecimal N] [NaiveDate D] [DateTime T] in
lemma minLedgerTimeRel_eq_ok {d : DamlCommands N D T} {r : Option Proto.Duration} :
    d.minLedgerTimeRel = .ok r ↔
      (∃ dur t, d.minLedgerTime = some (.relative dur) ∧ toGrpcDuration dur = .ok t ∧
        some t = r) ∨ (∀ dur, d.minLedgerTime ≠ some (.relative dur)) ∧ none = r := by
  unfold minLedgerTimeRel
  rcases d.minLedgerTime with _ | (ts | dur) <;> simp

/-- The message of a submission: its commands in their order, and at most one of the two minimal
ledger times. -/
lemma toCommands_ok {d : DamlCommands N D T} {m : Proto.Commands} (h : d.toCommands = .ok m) :
    m.commands = d.commands.map DamlCommand.toCommand ∧ TimesSent d.minLedgerTime m := by
  simp only [toCommands, mapM_toPrefetchContractKey, Except.bind_eq_ok, Except.pure_eq_ok] at h
  obtain ⟨abs, habs, rel, hrel, period, -, _, -, rfl⟩ := h
  refine ⟨rfl, ?_⟩
  rw [minLedgerTimeAbs_eq_ok] at habs
  rw [minLedgerTimeRel_eq_ok] at hrel
  constructor
  all_goals grind

/-- The other fields of the message that the factory of a submission fills in. -/
lemma fields_of_toCommands {d : DamlCommands N D T} {m : Proto.Commands}
    (h : d.toCommands = .ok m) :
    m.commandId = d.commandId ∧ m.actAs = d.actAs ∧ m.readAs = d.readAs ∧
      m.workflowId = d.workflowId ∧ m.userId = d.userId ∧
      d.deduplicationPeriod.mapM DamlCommandsDeduplicationPeriod.toDeduplicationPeriod =
        .ok m.deduplicationPeriod := by
  simp only [toCommands, Except.bind_eq_ok, Except.pure_eq_ok] at h
  obtain ⟨_, -, _, -, period, hperiod, _, -, rfl⟩ := h
  exact ⟨rfl, rfl, rfl, rfl, rfl, hperiod⟩

omit [BigDecimal N] [NaiveDate D] in
lemma exists_minLedgerTimeAbs [LeapDateTime T] (d : DamlCommands N D T) :
    ∃ r, d.minLedgerTimeAbs = .ok r := by
  unfold minLedgerTimeAbs
  rcases d.minLedgerTime with _ | (ts | dur)
  · exact ⟨none, rfl⟩
  · obtain ⟨t, ht⟩ := exists_toGrpcTimestamp ts
    exact ⟨some t, Except.map_eq_ok.2 ⟨t, ht, rfl⟩⟩
  · exact ⟨none, rfl⟩

omit [BigDecimal N] [NaiveDate D] [DateTime T] in
lemma exists_minLedgerTimeRel_iff {d : DamlCommands N D T} :
    (∃ r, d.minLedgerTimeRel = .ok r) ↔
      ∀ dur, d.minLedgerTime = some (.relative dur) → dur.secs.toNat < 2 ^ 63 := by
  unfold minLedgerTimeRel
  rcases d.minLedgerTime with _ | (ts | dur)
  · simp
  · simp
  · simp [exists_toGrpcDuration_iff]

omit [BigDecimal N] [NaiveDate D] [DateTime T] in
lemma exists_toDeduplicationPeriod_iff {d : DamlCommands N D T} :
    (∃ r, d.deduplicationPeriod.mapM DamlCommandsDeduplicationPeriod.toDeduplicationPeriod
        = .ok r) ↔
      ∀ dur, d.deduplicationPeriod = some (.deduplicationDuration dur) →
        dur.secs.toNat < 2 ^ 63 := by
  rw [Except.exists_optionMapM_iff]
  constructor
  · intro h dur hdur
    obtain ⟨_, hb⟩ := h _ hdur
    obtain ⟨m, hm, -⟩ := Except.bind_eq_ok.1 hb
    exact exists_toGrpcDuration_iff.1 ⟨m, hm⟩
  · intro h period hperiod
    rcases period with offset | dur
    · exact ⟨.deduplicationOffset offset, rfl⟩
    · obtain ⟨m, hm⟩ := exists_toGrpcDuration_iff.2 (h dur hperiod)
      exact ⟨.deduplicationDuration m, Except.bind_eq_ok.2 ⟨m, hm, rfl⟩⟩

/-- Only a duration can keep a submission from being sent. -/
lemma exists_toCommands_iff [LeapDateTime T] {d : DamlCommands N D T} :
    (∃ m, d.toCommands = .ok m) ↔ d.DurationsFit := by
  simp only [toCommands, mapM_toPrefetchContractKey, Except.bind_eq_ok, Except.pure_eq_ok]
  constructor
  · rintro ⟨m, abs, -, rel, hrel, period, hperiod, -⟩
    exact ⟨exists_minLedgerTimeRel_iff.1 ⟨rel, hrel⟩,
      exists_toDeduplicationPeriod_iff.1 ⟨period, hperiod⟩⟩
  · rintro ⟨hmin, hdedup⟩
    obtain ⟨abs, habs⟩ := exists_minLedgerTimeAbs d
    obtain ⟨rel, hrel⟩ := exists_minLedgerTimeRel_iff.2 hmin
    obtain ⟨period, hperiod⟩ := exists_toDeduplicationPeriod_iff.2 hdedup
    exact ⟨_, abs, habs, rel, hrel, period, hperiod, _, rfl, rfl⟩

/-- A submission is sent exactly if its durations fit.  It then has at most one minimal ledger time,
and its commands are read back, in their order, as equal ones exactly if all timestamps in them
survive the wire. -/
theorem toCommands_inspected_iff [LawfulBigDecimal N] [LawfulNaiveDate D] [LawfulDateTime T]
    [LeapDateTime T] (d : DamlCommands N D T)
    (hval : ∀ c ∈ d.commands, ∀ v ∈ c.payload, v.Valid ∧ ∀ l ∈ v.labels, l ≠ some "") :
    ((∃ m, d.toCommands = .ok m) ↔ d.DurationsFit) ∧ ∀ m, d.toCommands = .ok m →
      TimesSent d.minLedgerTime m ∧
      ((∃ cs, m.commands.mapM DamlCommand.tryFrom = .ok cs ∧
          List.Forall₂ (fun c c' => DamlCommand.beq c c' = true) d.commands cs) ↔
        ∀ c ∈ d.commands, ∀ v ∈ c.payload, v.TimestampsExact) := by
  refine ⟨exists_toCommands_iff, fun m hm => ?_⟩
  obtain ⟨hcommands, htimes⟩ := toCommands_ok hm
  refine ⟨htimes, ?_⟩
  simp only [hcommands, Except.mapM_eq_ok, List.forall₂_map_left_iff]
  rw [List.exists_forall₂_and_iff]
  refine forall₂_congr fun c hc => ?_
  rw [DamlCommand.exists_tryFrom_iff]
  exact forall₂_congr fun v hv => DamlValue.survives_iff (hval c hc v hv).1 (hval c hc v hv).2

end DamlCommands

end Convert

/-- A choice that is exercised one microsecond before the epoch is read back as it was sent. -/
theorem DamlCommands.inspected_rate :
    let c : DamlCommand Int GregorianDay UtcInstant := .exercise
      ⟨⟨"pkg", "Oracle", "Rate"⟩, "00ab", "Publish", .timestamp ⟨-1, 999999000, by decide⟩⟩
    let d := { DamlCommands.new "user" "c-1" ["alice"] [c] with
      minLedgerTime := some (.relative ⟨5, 0, by decide⟩) }
    ∃ m cs, d.toCommands = .ok m ∧ TimesSent d.minLedgerTime m ∧
      m.commands.mapM DamlCommand.tryFrom = .ok cs ∧
      List.Forall₂ (fun c c' => DamlCommand.beq c c' = true) d.commands cs := by
  intro c d
  have hval : ∀ c ∈ d.commands, ∀ v ∈ c.payload, v.Valid ∧ ∀ l ∈ v.labels, l ≠ some "" := by
    simp only [d, c, DamlCommands.new, List.forall_mem_singleton, DamlCommand.payload]
    exact ⟨.timestamp _, by simp [DamlValue.labels, DamlValue.subvalues]⟩
  obtain ⟨hsent, hm⟩ := toCommands_inspected_iff d hval
  obtain ⟨m, hok⟩ := hsent.2 ⟨by rintro _ ⟨⟩; decide, by simp [d, DamlCommands.new]⟩
  obtain ⟨htimes, hback⟩ := hm m hok
  obtain ⟨cs, hcs, hall⟩ := hback.2 (by
    simp only [d, c, DamlCommands.new, List.forall_mem_singleton, DamlCommand.payload,
      DamlValue.TimestampsExact, DamlValue.timestamps_timestamp]
    decide)
  exact ⟨m, cs, hok, htimes, hcs, hall⟩

end DamlBindings.Grpc
