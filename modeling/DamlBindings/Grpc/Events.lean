import DamlBindings.Grpc.Commands

/-!
# Transactions

The events of a transaction (`data/event`, `data/transaction.rs`) are decoded from the messages of
the participant.  A transaction decodes exactly if everything that the decoder asks for is there in
every event, and the events that it has are then those of the message, in their order.
-/

namespace DamlBindings.Grpc

variable {N D T : Type}

/-! ### Messages -/

namespace Proto

/-- A message of any type, which is not looked into. -/
structure Any where
  typeUrl : String
  value : List UInt8

structure Status where
  code : Int32
  message : String
  details : List Any

structure InterfaceView where
  interfaceId : Option Identifier
  viewStatus : Option Status
  viewValue : Option (Record Value)
  implementationPackageId : String

structure CreatedEvent where
  offset : Int64
  nodeId : Int32
  contractId : String
  templateId : Option Identifier
  contractKey : Option Value
  contractKeyHash : List UInt8
  createArguments : Option (Record Value)
  createdEventBlob : List UInt8
  interfaceViews : List InterfaceView
  witnessParties : List String
  signatories : List String
  observers : List String
  createdAt : Option Timestamp
  packageName : String
  acsDelta : Bool
  representativePackageId : String

structure ArchivedEvent where
  offset : Int64
  nodeId : Int32
  contractId : String
  templateId : Option Identifier
  witnessParties : List String
  packageName : String
  implementedInterfaces : List Identifier

structure ExercisedEvent where
  offset : Int64
  nodeId : Int32
  contractId : String
  templateId : Option Identifier
  interfaceId : Option Identifier
  choice : String
  choiceArgument : Option Value
  actingParties : List String
  consuming : Bool
  witnessParties : List String
  lastDescendantNodeId : Int32
  exerciseResult : Option Value
  packageName : String
  implementedInterfaces : List Identifier
  acsDelta : Bool

/-- The `Event` message; `unset` is a message whose `event` is absent. -/
inductive Event where
  | unset
  | created (e : CreatedEvent)
  | archived (e : ArchivedEvent)
  | exercised (e : ExercisedEvent)

structure Transaction where
  updateId : String
  commandId : String
  workflowId : String
  effectiveAt : Option Timestamp
  events : List Event
  offset : Int64
  synchronizerId : String
  recordTime : Option Timestamp
  externalTransactionHash : Option (List UInt8)
  paidTrafficCost : Option Int64

end Proto

/-! ### Events -/

/-- A position on the ledger. -/
structure DamlLedgerOffset where
  value : Int64
deriving DecidableEq, Repr

structure DamlStatus where
  code : Int32
  message : String
  details : List Proto.Any

structure DamlInterfaceView (N D T : Type) where
  interfaceId : DamlIdentifier
  viewStatus : DamlStatus
  viewValue : Option (DamlRecord (DamlValue N D T))
  implementationPackageId : String

structure DamlCreatedEvent (N D T : Type) where
  offset : DamlLedgerOffset
  nodeId : Int32
  contractId : String
  templateId : DamlIdentifier
  contractKey : Option (DamlValue N D T)
  contractKeyHash : List UInt8
  createArguments : DamlRecord (DamlValue N D T)
  createdEventBlob : List UInt8
  interfaceViews : List (DamlInterfaceView N D T)
  witnessParties : List String
  signatories : List String
  observers : List String
  createdAt : T
  packageName : String
  acsDelta : Bool
  representativePackageId : String

structure DamlArchivedEvent where
  offset : DamlLedgerOffset
  nodeId : Int32
  contractId : String
  templateId : DamlIdentifier
  witnessParties : List String
  packageName : String
  implementedInterfaces : List DamlIdentifier

structure DamlExercisedEvent (N D T : Type) where
  offset : DamlLedgerOffset
  nodeId : Int32
  contractId : String
  templateId : DamlIdentifier
  interfaceId : Option DamlIdentifier
  choice : String
  choiceArgument : DamlValue N D T
  actingParties : List String
  consuming : Bool
  witnessParties : List String
  lastDescendantNodeId : Int32
  exerciseResult : Option (DamlValue N D T)
  packageName : String
  implementedInterfaces : List DamlIdentifier
  acsDelta : Bool

inductive DamlEvent (N D T : Type) where
  | created (e : DamlCreatedEvent N D T)
  | archived (e : DamlArchivedEvent)
  | exercised (e : DamlExercisedEvent N D T)

structure DamlTransaction (N D T : Type) where
  updateId : String
  commandId : String
  workflowId : String
  effectiveAt : T
  events : List (DamlEvent N D T)
  offset : DamlLedgerOffset
  synchronizerId : String
  recordTime : T
  externalTransactionHash : Option (List UInt8)
  paidTrafficCost : Option Int64

namespace DamlEvent

/-- `variant_name` -/
def variantName : DamlEvent N D T → String
  | created _ => "Created"
  | archived _ => "Archived"
  | exercised _ => "Exercised"

/-- `address` -/
def address : DamlEvent N D T → DamlLedgerOffset × Int32
  | created e => (e.offset, e.nodeId)
  | archived e => (e.offset, e.nodeId)
  | exercised e => (e.offset, e.nodeId)

/-- `make_unexpected_type_error` -/
def makeUnexpectedTypeError (e : DamlEvent N D T) (expected : String) : DamlError :=
  .unexpectedType expected e.variantName

/-- `try_created` -/
def tryCreated : DamlEvent N D T → DamlResult (DamlCreatedEvent N D T)
  | created e => .ok e
  | e => .error (e.makeUnexpectedTypeError "Created")

end DamlEvent

/-! ### Decoding -/

section Decode

variable [BigDecimal N] [NaiveDate D] [DateTime T]

/-- `From<Status> for DamlStatus` -/
def DamlStatus.ofStatus (status : Proto.Status) : DamlStatus :=
  ⟨status.code, status.message, status.details⟩

/-- `TryFrom<InterfaceView> for DamlInterfaceView` -/
def DamlInterfaceView.tryFrom (v : Proto.InterfaceView) :
    DamlResult (DamlInterfaceView N D T) := do
  let interfaceId := DamlIdentifier.ofIdentifier (← req v.interfaceId)
  let viewStatus := DamlStatus.ofStatus (← req v.viewStatus)
  let viewValue ← v.viewValue.mapM DamlRecord.tryFrom
  return ⟨interfaceId, viewStatus, viewValue, v.implementationPackageId⟩

/-- `TryFrom<CreatedEvent> for DamlCreatedEvent` -/
def DamlCreatedEvent.tryFrom (e : Proto.CreatedEvent) :
    DamlResult (DamlCreatedEvent N D T) := do
  let templateId := DamlIdentifier.ofIdentifier (← req e.templateId)
  let contractKey ← e.contractKey.mapM DamlValue.tryFrom
  let createArguments ← DamlRecord.tryFrom (← req e.createArguments)
  let interfaceViews ← e.interfaceViews.mapM DamlInterfaceView.tryFrom
  let createdAt ← fromGrpcTimestamp (← req e.createdAt)
  return {
    offset := ⟨e.offset⟩
    nodeId := e.nodeId
    contractId := e.contractId
    templateId := templateId
    contractKey := contractKey
    contractKeyHash := e.contractKeyHash
    createArguments := createArguments
    createdEventBlob := e.createdEventBlob
    interfaceViews := interfaceViews
    witnessParties := e.witnessParties
    signatories := e.signatories
    observers := e.observers
    createdAt := createdAt
    packageName := e.packageName
    acsDelta := e.acsDelta
    representativePackageId := e.representativePackageId }

/-- `TryFrom<ArchivedEvent> for DamlArchivedEvent` -/
def DamlArchivedEvent.tryFrom (e : Proto.ArchivedEvent) : DamlResult DamlArchivedEvent := do
  let templateId := DamlIdentifier.ofIdentifier (← req e.templateId)
  return {
    offset := ⟨e.offset⟩
    nodeId := e.nodeId
    contractId := e.contractId
    templateId := templateId
    witnessParties := e.witnessParties
    packageName := e.packageName
    implementedInterfaces := e.implementedInterfaces.map DamlIdentifier.ofIdentifier }

/-- `TryFrom<ExercisedEvent> for DamlExercisedEvent` -/
def DamlExercisedEvent.tryFrom (e : Proto.ExercisedEvent) :
    DamlResult (DamlExercisedEvent N D T) := do
  let templateId := DamlIdentifier.ofIdentifier (← req e.templateId)
  let choiceArgument ← DamlValue.tryFrom (← req e.choiceArgument)
  let exerciseResult ← e.exerciseResult.mapM DamlValue.tryFrom
  return {
    offset := ⟨e.offset⟩
    nodeId := e.nodeId
    contractId := e.contractId
    templateId := templateId
    interfaceId := e.interfaceId.map DamlIdentifier.ofIdentifier
    choice := e.choice
    choiceArgument := choiceArgument
    actingParties := e.actingParties
    consuming := e.consuming
    witnessParties := e.witnessParties
    lastDescendantNodeId := e.lastDescendantNodeId
    exerciseResult := exerciseResult
    packageName := e.packageName
    implementedInterfaces := e.implementedInterfaces.map DamlIdentifier.ofIdentifier
    acsDelta := e.acsDelta }

/-- `TryFrom<Event> for DamlEvent` -/
def DamlEvent.tryFrom : Proto.Event → DamlResult (DamlEvent N D T)
  | .unset => .error .missingRequiredField
  | .created e => .created <$> DamlCreatedEvent.tryFrom e
  | .archived e => .archived <$> DamlArchivedEvent.tryFrom e
  | .exercised e => .exercised <$> DamlExercisedEvent.tryFrom e

/-- `TryFrom<Transaction> for DamlTransaction` -/
def DamlTransaction.tryFrom (tx : Proto.Transaction) : DamlResult (DamlTransaction N D T) := do
  let effectiveAt ← fromGrpcTimestamp (← req tx.effectiveAt)
  let events ← tx.events.mapM DamlEvent.tryFrom
  let recordTime ← fromGrpcTimestamp (← req tx.recordTime)
  return {
    updateId := tx.updateId
    commandId := tx.commandId
    workflowId := tx.workflowId
    effectiveAt := effectiveAt
    events := events
    offset := ⟨tx.offset⟩
    synchronizerId := tx.synchronizerId
    recordTime := recordTime
    externalTransactionHash := tx.externalTransactionHash
    paidTrafficCost := tx.paidTrafficCost }

end Decode

/-! ### Which transactions decode -/

namespace Proto

variable (N D T : Type) [BigDecimal N] [NaiveDate D] [DateTime T]

/-- Some date-time is sent as this timestamp. -/
def Timestamp.InRange (m : Timestamp) : Prop := ∃ t : T, toGrpcTimestamp t = .ok m

/-- The record is well formed as a value. -/
def Record.WellFormed (r : Record Value) : Prop := Value.WellFormed N D T (.record r)

structure InterfaceView.WellFormed (v : InterfaceView) : Prop where
  interfaceId : v.interfaceId.isSome
  viewStatus : v.viewStatus.isSome
  viewValue : ∀ r ∈ v.viewValue, r.WellFormed N D T

structure CreatedEvent.WellFormed (e : CreatedEvent) : Prop where
  templateId : e.templateId.isSome
  contractKey : ∀ v ∈ e.contractKey, v.WellFormed N D T
  createArguments : ∃ r ∈ e.createArguments, r.WellFormed N D T
  interfaceViews : ∀ v ∈ e.interfaceViews, v.WellFormed N D T
  createdAt : ∃ t ∈ e.createdAt, t.InRange T

structure ExercisedEvent.WellFormed (e : ExercisedEvent) : Prop where
  templateId : e.templateId.isSome
  choiceArgument : ∃ v ∈ e.choiceArgument, v.WellFormed N D T
  exerciseResult : ∀ v ∈ e.exerciseResult, v.WellFormed N D T

/-- Everything the decoder asks for is there in the event. -/
def Event.WellFormed : Event → Prop
  | .unset => False
  | .created e => e.WellFormed N D T
  | .archived e => e.templateId.isSome
  | .exercised e => e.WellFormed N D T

structure Transaction.WellFormed (tx : Transaction) : Prop where
  effectiveAt : ∃ t ∈ tx.effectiveAt, t.InRange T
  events : ∀ e ∈ tx.events, e.WellFormed N D T
  recordTime : ∃ t ∈ tx.recordTime, t.InRange T

end Proto

section Accept

variable [BigDecimal N] [NaiveDate D] [DateTime T]

lemma req_eq_ok {α : Type} {o : Option α} {a : α} : req o = .ok a ↔ o = some a := by
  cases o <;> simp [req]

variable [LawfulNaiveDate D] [ExactNaiveDate D] [LawfulDateTime T]

omit [LawfulNaiveDate D] [ExactNaiveDate D] [BigDecimal N] [NaiveDate D] in
lemma exists_fromGrpcTimestamp_iff {m : Proto.Timestamp} :
    (∃ t : T, fromGrpcTimestamp m = .ok t) ↔ m.InRange T := by
  constructor
  · rintro ⟨t, ht⟩
    exact ⟨t, toGrpcTimestamp_fromGrpcTimestamp ht⟩
  · rintro ⟨t, ht⟩
    obtain ⟨hseconds, hnanos⟩ := toGrpcTimestamp_eq_ok.1 ht
    refine ⟨t, fromGrpcTimestamp_eq_ok.2 ⟨_, hnanos.symm, ?_⟩⟩
    rw [hseconds]
    exact LawfulDateTime.fromTimestamp_timestamp t

lemma DamlRecord.exists_tryFrom_iff {r : Proto.Record Proto.Value} :
    (∃ r' : DamlRecord (DamlValue N D T), tryFrom r = .ok r') ↔ r.WellFormed N D T := by
  rw [Proto.Record.WellFormed, ← DamlValue.exists_tryFrom]
  simp only [DamlRecord.tryFrom, DamlValue.tryFrom, Except.bind_eq_ok, Except.pure_eq_ok]
  constructor
  · rintro ⟨_, fs, hfs, rfl⟩
    exact ⟨_, fs, hfs, rfl⟩
  · rintro ⟨_, fs, hfs, rfl⟩
    exact ⟨_, fs, hfs, rfl⟩

lemma DamlInterfaceView.exists_tryFrom_iff {v : Proto.InterfaceView} :
    (∃ w : DamlInterfaceView N D T, tryFrom v = .ok w) ↔ v.WellFormed N D T := by
  have hview : (∃ r, v.viewValue.mapM DamlRecord.tryFrom
      = (.ok r : DamlResult (Option (DamlRecord (DamlValue N D T))))) ↔
        ∀ r ∈ v.viewValue, r.WellFormed N D T := by
    simp only [Except.exists_optionMapM_iff, DamlRecord.exists_tryFrom_iff]
  simp only [tryFrom, Except.bind_eq_ok, Except.pure_eq_ok, req_eq_ok]
  constructor
  · rintro ⟨_, id, hid, status, hstatus, r, hr, -⟩
    exact ⟨by simp [hid], by simp [hstatus], hview.1 ⟨r, hr⟩⟩
  · rintro ⟨hid, hstatus, hr⟩
    obtain ⟨id, hid⟩ := Option.isSome_iff_exists.1 hid
    obtain ⟨status, hstatus⟩ := Option.isSome_iff_exists.1 hstatus
    obtain ⟨r, hr⟩ := hview.2 hr
    exact ⟨_, id, hid, status, hstatus, r, hr, rfl⟩

lemma DamlCreatedEvent.exists_tryFrom_iff {e : Proto.CreatedEvent} :
    (∃ d : DamlCreatedEvent N D T, tryFrom e = .ok d) ↔ e.WellFormed N D T := by
  have hkey : (∃ k, e.contractKey.mapM DamlValue.tryFrom
      = (.ok k : DamlResult (Option (DamlValue N D T)))) ↔
        ∀ v ∈ e.contractKey, v.WellFormed N D T := by
    simp only [Except.exists_optionMapM_iff, DamlValue.exists_tryFrom]
  have hviews : (∃ ws, e.interfaceViews.mapM DamlInterfaceView.tryFrom
      = (.ok ws : DamlResult (List (DamlInterfaceView N D T)))) ↔
        ∀ v ∈ e.interfaceViews, v.WellFormed N D T := by
    simp only [Except.mapM_eq_ok, List.exists_forall₂_iff, DamlInterfaceView.exists_tryFrom_iff]
  simp only [tryFrom, Except.bind_eq_ok, Except.pure_eq_ok, req_eq_ok]
  constructor
  · rintro ⟨_, id, hid, k, hk, args, hargs, r, hr, ws, hws, createdAt, hcreatedAt, t, ht, -⟩
    exact ⟨by simp [hid], hkey.1 ⟨k, hk⟩, ⟨args, hargs, DamlRecord.exists_tryFrom_iff.1 ⟨r, hr⟩⟩,
      hviews.1 ⟨ws, hws⟩, ⟨createdAt, hcreatedAt, exists_fromGrpcTimestamp_iff.1 ⟨t, ht⟩⟩⟩
  · rintro ⟨hid, hk, ⟨args, hargs, hr⟩, hws, ⟨createdAt, hcreatedAt, ht⟩⟩
    obtain ⟨id, hid⟩ := Option.isSome_iff_exists.1 hid
    obtain ⟨k, hk⟩ := hkey.2 hk
    obtain ⟨r, hr⟩ := DamlRecord.exists_tryFrom_iff.2 hr
    obtain ⟨ws, hws⟩ := hviews.2 hws
    obtain ⟨t, ht⟩ := exists_fromGrpcTimestamp_iff.2 ht
    exact ⟨_, id, hid, k, hk, args, hargs, r, hr, ws, hws, createdAt, hcreatedAt, t, ht, rfl⟩

lemma DamlExercisedEvent.exists_tryFrom_iff {e : Proto.ExercisedEvent} :
    (∃ d : DamlExercisedEvent N D T, tryFrom e = .ok d) ↔ e.WellFormed N D T := by
  have hresult : (∃ r, e.exerciseResult.mapM DamlValue.tryFrom
      = (.ok r : DamlResult (Option (DamlValue N D T)))) ↔
        ∀ v ∈ e.exerciseResult, v.WellFormed N D T := by
    simp only [Except.exists_optionMapM_iff, DamlValue.exists_tryFrom]
  simp only [tryFrom, Except.bind_eq_ok, Except.pure_eq_ok, req_eq_ok]
  constructor
  · rintro ⟨_, id, hid, arg, harg, v, hv, r, hr, -⟩
    exact ⟨by simp [hid], ⟨arg, harg, (DamlValue.exists_tryFrom arg).1 ⟨v, hv⟩⟩, hresult.1 ⟨r, hr⟩⟩
  · rintro ⟨hid, ⟨arg, harg, hv⟩, hr⟩
    obtain ⟨id, hid⟩ := Option.isSome_iff_exists.1 hid
    obtain ⟨v, hv⟩ := (DamlValue.exists_tryFrom arg).2 hv
    obtain ⟨r, hr⟩ := hresult.2 hr
    exact ⟨_, id, hid, arg, harg, v, hv, r, hr, rfl⟩

lemma DamlEvent.exists_tryFrom_iff {e : Proto.Event} :
    (∃ d : DamlEvent N D T, tryFrom e = .ok d) ↔ e.WellFormed N D T := by
  cases e with
  | unset => exact iff_of_false (fun ⟨_, h⟩ => by cases h) id
  | created e =>
    rw [Proto.Event.WellFormed, ← DamlCreatedEvent.exists_tryFrom_iff]
    simp [tryFrom]
  | archived e =>
    rw [Proto.Event.WellFormed, Option.isSome_iff_exists]
    simp [tryFrom, DamlArchivedEvent.tryFrom, req_eq_ok]
  | exercised e =>
    rw [Proto.Event.WellFormed, ← DamlExercisedEvent.exists_tryFrom_iff]
    simp [tryFrom]

lemma DamlTransaction.exists_tryFrom_iff {m : Proto.Transaction} :
    (∃ tx : DamlTransaction N D T, tryFrom m = .ok tx) ↔ m.WellFormed N D T := by
  have hevents : (∃ ds, m.events.mapM DamlEvent.tryFrom
      = (.ok ds : DamlResult (List (DamlEvent N D T)))) ↔
        ∀ e ∈ m.events, e.WellFormed N D T := by
    simp only [Except.mapM_eq_ok, List.exists_forall₂_iff, DamlEvent.exists_tryFrom_iff]
  simp only [tryFrom, Except.bind_eq_ok, Except.pure_eq_ok, req_eq_ok]
  constructor
  · rintro ⟨_, effectiveAt, heffective, t, ht, ds, hds, recordTime, hrecord, u, hu, -⟩
    exact ⟨⟨effectiveAt, heffective, exists_fromGrpcTimestamp_iff.1 ⟨t, ht⟩⟩, hevents.1 ⟨ds, hds⟩,
      ⟨recordTime, hrecord, exists_fromGrpcTimestamp_iff.1 ⟨u, hu⟩⟩⟩
  · rintro ⟨⟨effectiveAt, heffective, ht⟩, hds, ⟨recordTime, hrecord, hu⟩⟩
    obtain ⟨t, ht⟩ := exists_fromGrpcTimestamp_iff.2 ht
    obtain ⟨ds, hds⟩ := hevents.2 hds
    obtain ⟨u, hu⟩ := exists_fromGrpcTimestamp_iff.2 hu
    exact ⟨_, effectiveAt, heffective, t, ht, ds, hds, recordTime, hrecord, u, hu, rfl⟩

end Accept

/-! ### What a transaction says -/

section Says

variable [BigDecimal N] [NaiveDate D] [DateTime T]

/-- The view of an interface is the one of its message: of the same interface, with the same status
and value. -/
structure InterfaceViewOf (v : Proto.InterfaceView) (w : DamlInterfaceView N D T) : Prop where
  interfaceId : v.interfaceId.map DamlIdentifier.ofIdentifier = some w.interfaceId
  viewStatus : v.viewStatus.map DamlStatus.ofStatus = some w.viewStatus
  viewValue : Option.Rel (fun r s => DamlRecord.tryFrom r = .ok s) v.viewValue w.viewValue
  implementationPackageId : w.implementationPackageId = v.implementationPackageId

/-- The contract that an event creates is the one of its message, with its key, its arguments and
its views. -/
structure CreatedEventOf (e : Proto.CreatedEvent) (d : DamlCreatedEvent N D T) : Prop where
  offset : d.offset = ⟨e.offset⟩
  nodeId : d.nodeId = e.nodeId
  contractId : d.contractId = e.contractId
  templateId : e.templateId.map DamlIdentifier.ofIdentifier = some d.templateId
  contractKey : Option.Rel (fun v w => DamlValue.tryFrom v = .ok w) e.contractKey d.contractKey
  contractKeyHash : d.contractKeyHash = e.contractKeyHash
  createArguments : ∃ r ∈ e.createArguments, DamlRecord.tryFrom r = .ok d.createArguments
  interfaceViews : List.Forall₂ InterfaceViewOf e.interfaceViews d.interfaceViews
  witnessParties : d.witnessParties = e.witnessParties
  signatories : d.signatories = e.signatories
  observers : d.observers = e.observers
  createdAt : ∃ m ∈ e.createdAt, fromGrpcTimestamp m = .ok d.createdAt
  packageName : d.packageName = e.packageName

/-- The contract that is archived is the one of the message. -/
structure ArchivedEventOf (e : Proto.ArchivedEvent) (d : DamlArchivedEvent) : Prop where
  offset : d.offset = ⟨e.offset⟩
  nodeId : d.nodeId = e.nodeId
  contractId : d.contractId = e.contractId
  templateId : e.templateId.map DamlIdentifier.ofIdentifier = some d.templateId
  witnessParties : d.witnessParties = e.witnessParties
  packageName : d.packageName = e.packageName

/-- The choice that is exercised is the one of the message, with its argument and its result. -/
structure ExercisedEventOf (e : Proto.ExercisedEvent) (d : DamlExercisedEvent N D T) : Prop where
  offset : d.offset = ⟨e.offset⟩
  nodeId : d.nodeId = e.nodeId
  contractId : d.contractId = e.contractId
  templateId : e.templateId.map DamlIdentifier.ofIdentifier = some d.templateId
  interfaceId : d.interfaceId = e.interfaceId.map DamlIdentifier.ofIdentifier
  choice : d.choice = e.choice
  choiceArgument : ∃ v ∈ e.choiceArgument, DamlValue.tryFrom v = .ok d.choiceArgument
  actingParties : d.actingParties = e.actingParties
  consuming : d.consuming = e.consuming
  witnessParties : d.witnessParties = e.witnessParties
  exerciseResult :
    Option.Rel (fun v w => DamlValue.tryFrom v = .ok w) e.exerciseResult d.exerciseResult
  packageName : d.packageName = e.packageName

/-- What an event says of the message that it is decoded from: the kind, the position, the contract
and the values are those of the message. -/
inductive EventOf : Proto.Event → DamlEvent N D T → Prop
  | created {e : Proto.CreatedEvent} {d : DamlCreatedEvent N D T} :
      CreatedEventOf e d → EventOf (.created e) (.created d)
  | archived {e : Proto.ArchivedEvent} {d : DamlArchivedEvent} :
      ArchivedEventOf e d → EventOf (.archived e) (.archived d)
  | exercised {e : Proto.ExercisedEvent} {d : DamlExercisedEvent N D T} :
      ExercisedEventOf e d → EventOf (.exercised e) (.exercised d)

lemma interfaceViewOf_of_tryFrom {v : Proto.InterfaceView} {w : DamlInterfaceView N D T}
    (h : DamlInterfaceView.tryFrom v = .ok w) : InterfaceViewOf v w := by
  simp only [DamlInterfaceView.tryFrom, Except.bind_eq_ok, Except.pure_eq_ok, req_eq_ok] at h
  obtain ⟨id, hid, status, hstatus, value, hvalue, rfl⟩ := h
  exact ⟨by rw [hid]; rfl, by rw [hstatus]; rfl, Except.optionMapM_eq_ok.1 hvalue, rfl⟩

lemma createdEventOf_of_tryFrom {e : Proto.CreatedEvent} {d : DamlCreatedEvent N D T}
    (h : DamlCreatedEvent.tryFrom e = .ok d) : CreatedEventOf e d := by
  simp only [DamlCreatedEvent.tryFrom, Except.bind_eq_ok, Except.pure_eq_ok, req_eq_ok] at h
  obtain ⟨id, hid, key, hkey, r, hr, args, hargs, views, hviews, m, hm, t, ht, rfl⟩ := h
  have hviewsOf := (Except.mapM_eq_ok.1 hviews).imp fun _ _ => interfaceViewOf_of_tryFrom
  exact ⟨rfl, rfl, rfl, by rw [hid]; rfl, Except.optionMapM_eq_ok.1 hkey, rfl, ⟨r, hr, hargs⟩,
    hviewsOf, rfl, rfl, rfl, ⟨m, hm, ht⟩, rfl⟩

lemma archivedEventOf_of_tryFrom {e : Proto.ArchivedEvent} {d : DamlArchivedEvent}
    (h : DamlArchivedEvent.tryFrom e = .ok d) : ArchivedEventOf e d := by
  simp only [DamlArchivedEvent.tryFrom, Except.bind_eq_ok, Except.pure_eq_ok, req_eq_ok] at h
  obtain ⟨id, hid, rfl⟩ := h
  exact ⟨rfl, rfl, rfl, by rw [hid]; rfl, rfl, rfl⟩

lemma exercisedEventOf_of_tryFrom {e : Proto.ExercisedEvent} {d : DamlExercisedEvent N D T}
    (h : DamlExercisedEvent.tryFrom e = .ok d) : ExercisedEventOf e d := by
  simp only [DamlExercisedEvent.tryFrom, Except.bind_eq_ok, Except.pure_eq_ok, req_eq_ok] at h
  obtain ⟨id, hid, v, hv, arg, harg, result, hresult, rfl⟩ := h
  exact ⟨rfl, rfl, rfl, by rw [hid]; rfl, rfl, rfl, ⟨v, hv, harg⟩, rfl, rfl, rfl,
    Except.optionMapM_eq_ok.1 hresult, rfl⟩

lemma eventOf_of_tryFrom {e : Proto.Event} {d : DamlEvent N D T}
    (h : DamlEvent.tryFrom e = .ok d) : EventOf e d := by
  cases e with
  | unset => cases h
  | created e =>
    obtain ⟨d, hd, rfl⟩ := Except.map_eq_ok.1 h
    exact .created (createdEventOf_of_tryFrom hd)
  | archived e =>
    obtain ⟨d, hd, rfl⟩ := Except.map_eq_ok.1 h
    exact .archived (archivedEventOf_of_tryFrom hd)
  | exercised e =>
    obtain ⟨d, hd, rfl⟩ := Except.map_eq_ok.1 h
    exact .exercised (exercisedEventOf_of_tryFrom hd)

lemma events_of_tryFrom {m : Proto.Transaction} {tx : DamlTransaction N D T}
    (h : DamlTransaction.tryFrom m = .ok tx) : List.Forall₂ EventOf m.events tx.events := by
  simp only [DamlTransaction.tryFrom, Except.bind_eq_ok, Except.pure_eq_ok] at h
  obtain ⟨_, -, _, -, ds, hds, _, -, _, -, rfl⟩ := h
  exact (Except.mapM_eq_ok.1 hds).imp fun _ _ => eventOf_of_tryFrom

/-- A transaction decodes exactly if everything the decoder asks for is there in it and in every one
of its events.  Its events are then those of the message, one by one and in their order. -/
theorem transaction_decodes_iff [LawfulNaiveDate D] [ExactNaiveDate D] [LawfulDateTime T]
    (m : Proto.Transaction) :
    ((∃ tx : DamlTransaction N D T, DamlTransaction.tryFrom m = .ok tx) ↔ m.WellFormed N D T) ∧
      ∀ tx : DamlTransaction N D T, DamlTransaction.tryFrom m = .ok tx →
        List.Forall₂ EventOf m.events tx.events :=
  ⟨DamlTransaction.exists_tryFrom_iff, fun _ => events_of_tryFrom⟩

end Says

/-- The transaction of a created contract, which names a party and a moment. -/
def Proto.Transaction.ofPublished : Proto.Transaction where
  updateId := "u-1"
  commandId := "c-1"
  workflowId := ""
  effectiveAt := some ⟨0, 0⟩
  events := [.created {
    offset := 7
    nodeId := 0
    contractId := "00ab"
    templateId := some ⟨"pkg", "Oracle", "Rate"⟩
    contractKey := none
    contractKeyHash := []
    createArguments := some ⟨none, [⟨"party", some (.party "alice")⟩, ⟨"at", some (.timestamp 5)⟩]⟩
    createdEventBlob := []
    interfaceViews := []
    witnessParties := ["alice"]
    signatories := ["alice"]
    observers := []
    createdAt := some ⟨-1, 999999000⟩
    packageName := "oracle"
    acsDelta := true
    representativePackageId := "pkg" }]
  offset := 7
  synchronizerId := "global"
  recordTime := some ⟨0, 0⟩
  externalTransactionHash := none
  paidTrafficCost := none

lemma Proto.Transaction.wellFormed_ofPublished :
    Proto.Transaction.ofPublished.WellFormed Int GregorianDay UtcInstant := by
  have hzero : Proto.Timestamp.InRange UtcInstant ⟨0, 0⟩ := ⟨⟨0, 0, by decide⟩, rfl⟩
  refine ⟨⟨_, rfl, hzero⟩, List.forall_mem_singleton.2 ?_, ⟨_, rfl, hzero⟩⟩
  refine ⟨rfl, by simp, ⟨_, rfl, ?_⟩, by simp, ⟨_, rfl, ⟨-1, 999999000, by decide⟩, rfl⟩⟩
  refine .record (by simp) ?_
  simp only [List.forall_mem_cons, Option.mem_some_iff, forall_eq']
  exact ⟨.party "alice", .timestamp ⟨⟨0, 5000, by decide⟩, by decide⟩, by simp⟩

/-- The transaction decodes, and no longer does if an event without contents is added to it. -/
theorem transaction_decodes_published :
    let m := Proto.Transaction.ofPublished
    (∃ tx : DamlTransaction Int GregorianDay UtcInstant, DamlTransaction.tryFrom m = .ok tx ∧
        List.Forall₂ EventOf m.events tx.events) ∧
      ¬ ∃ tx : DamlTransaction Int GregorianDay UtcInstant,
        DamlTransaction.tryFrom { m with events := m.events ++ [.unset] } = .ok tx := by
  intro m
  obtain ⟨tx, htx⟩ := (transaction_decodes_iff m).1.2 Proto.Transaction.wellFormed_ofPublished
  refine ⟨⟨tx, htx, (transaction_decodes_iff m).2 tx htx⟩, fun hunset => ?_⟩
  have h := ((transaction_decodes_iff _).1.1 hunset).events .unset (by simp)
  exact h

end DamlBindings.Grpc
