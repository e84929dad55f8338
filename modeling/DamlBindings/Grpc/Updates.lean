import DamlBindings.Grpc.Accessors
import DamlBindings.Grpc.Events

/-!
# Updates

The updates that a participant publishes (`data/update.rs`, `data/reassignment.rs`,
`data/topology.rs`) are read one by one off a stream, or from a page of them
(`service/daml_update_service.rs`).  A page fails with any update of it that does not decode; a
stream goes on after it.  The main result compares the two, for the same updates.
-/

namespace DamlBindings.Grpc

variable {N D T : Type}

/-! ### Messages -/

namespace Proto

structure UnassignedEvent where
  reassignmentId : String
  contractId : String
  templateId : Option Identifier
  source : String
  target : String
  submitter : String
  reassignmentCounter : UInt64
  assignmentExclusivity : Option Timestamp
  witnessParties : List String
  packageName : String
  offset : Int64
  nodeId : Int32

structure AssignedEvent where
  source : String
  target : String
  reassignmentId : String
  submitter : String
  reassignmentCounter : UInt64
  createdEvent : Option CreatedEvent

/-- The `ReassignmentEvent` message; `unset` is a message whose `event` is absent. -/
inductive ReassignmentEvent where
  | unset
  | unassigned (e : UnassignedEvent)
  | assigned (e : AssignedEvent)

structure Reassignment where
  updateId : String
  commandId : String
  workflowId : String
  offset : Int64
  events : List ReassignmentEvent
  recordTime : Option Timestamp
  synchronizerId : String
  paidTrafficCost : Option Int64

/-- The messages of an authorization with a permission. -/
structure ParticipantAuthorization where
  partyId : String
  participantId : String
  participantPermission : Int32

abbrev ParticipantAuthorizationAdded := ParticipantAuthorization
abbrev ParticipantAuthorizationChanged := ParticipantAuthorization
abbrev ParticipantAuthorizationOnboarding := ParticipantAuthorization

structure ParticipantAuthorizationRevoked where
  partyId : String
  participantId : String

/-- The `TopologyEvent` message; `unset` is a message whose `event` is absent. -/
inductive TopologyEvent where
  | unset
  | participantAuthorizationAdded (e : ParticipantAuthorizationAdded)
  | participantAuthorizationChanged (e : ParticipantAuthorizationChanged)
  | participantAuthorizationRevoked (e : ParticipantAuthorizationRevoked)
  | participantAuthorizationOnboarding (e : ParticipantAuthorizationOnboarding)

structure TopologyTransaction where
  updateId : String
  offset : Int64
  synchronizerId : String
  recordTime : Option Timestamp
  events : List TopologyEvent

structure SynchronizerTime where
  synchronizerId : String
  recordTime : Option Timestamp

structure OffsetCheckpoint where
  offset : Int64
  synchronizerTimes : List SynchronizerTime

/-- The `GetUpdateResponse` message; `unset` is a message whose `update` is absent. -/
inductive GetUpdateResponse where
  | unset
  | transaction (t : Transaction)
  | reassignment (r : Reassignment)
  | topologyTransaction (t : TopologyTransaction)

/-- The `GetUpdatesResponse` message, an element of the stream. -/
inductive GetUpdatesResponse where
  | unset
  | transaction (t : Transaction)
  | reassignment (r : Reassignment)
  | topologyTransaction (t : TopologyTransaction)
  | offsetCheckpoint (c : OffsetCheckpoint)

structure GetUpdatesPageResponse where
  updates : List GetUpdateResponse
  lowestPageOffsetExclusive : Int64
  highestPageOffsetInclusive : Int64
  nextPageToken : Option (List UInt8)

end Proto

/-! ### Updates -/

structure DamlUnassignedEvent (T : Type) where
  reassignmentId : String
  contractId : String
  templateId : DamlIdentifier
  source : String
  target : String
  submitter : String
  reassignmentCounter : UInt64
  assignmentExclusivity : Option T
  witnessParties : List String
  packageName : String
  offset : DamlLedgerOffset
  nodeId : Int32

structure DamlAssignedEvent (N D T : Type) where
  source : String
  target : String
  reassignmentId : String
  submitter : String
  reassignmentCounter : UInt64
  createdEvent : DamlCreatedEvent N D T

inductive DamlReassignmentEvent (N D T : Type) where
  | unassigned (e : DamlUnassignedEvent T)
  | assigned (e : DamlAssignedEvent N D T)

structure DamlReassignment (N D T : Type) where
  updateId : String
  commandId : String
  workflowId : String
  offset : DamlLedgerOffset
  events : List (DamlReassignmentEvent N D T)
  recordTime : T
  synchronizerId : String
  paidTrafficCost : Option Int64

inductive DamlParticipantPermission where
  | unspecified
  | submission
  | confirmation
  | observation
deriving DecidableEq, Repr

/-- An authorization with a permission. -/
structure DamlParticipantAuthorization where
  partyId : String
  participantId : String
  permission : DamlParticipantPermission

abbrev DamlParticipantAuthorizationAdded := DamlParticipantAuthorization
abbrev DamlParticipantAuthorizationChanged := DamlParticipantAuthorization
abbrev DamlParticipantAuthorizationOnboarding := DamlParticipantAuthorization

structure DamlParticipantAuthorizationRevoked where
  partyId : String
  participantId : String

inductive DamlTopologyEvent where
  | participantAuthorizationAdded (e : DamlParticipantAuthorizationAdded)
  | participantAuthorizationChanged (e : DamlParticipantAuthorizationChanged)
  | participantAuthorizationRevoked (e : DamlParticipantAuthorizationRevoked)
  | participantAuthorizationOnboarding (e : DamlParticipantAuthorizationOnboarding)

structure DamlTopologyTransaction (T : Type) where
  updateId : String
  offset : DamlLedgerOffset
  synchronizerId : String
  recordTime : T
  events : List DamlTopologyEvent

structure DamlSynchronizerTime (T : Type) where
  synchronizerId : String
  recordTime : T

/-- A mark of how far a stream is, which is no update. -/
structure DamlOffsetCheckpoint (T : Type) where
  offset : DamlLedgerOffset
  synchronizerTimes : List (DamlSynchronizerTime T)

inductive DamlUpdate (N D T : Type) where
  | transaction (t : DamlTransaction N D T)
  | reassignment (r : DamlReassignment N D T)
  | topologyTransaction (t : DamlTopologyTransaction T)

inductive DamlUpdateResponse (N D T : Type) where
  | update (u : DamlUpdate N D T)
  | offsetCheckpoint (c : DamlOffsetCheckpoint T)

structure DamlUpdatesPage (N D T : Type) where
  updates : List (DamlUpdate N D T)
  lowestPageOffsetExclusive : DamlLedgerOffset
  highestPageOffsetInclusive : DamlLedgerOffset
  nextPageToken : Option (List UInt8)

/-! ### Decoding -/

/-- `ParticipantPermission::try_from` and `From<ParticipantPermission> for
DamlParticipantPermission` -/
def DamlParticipantPermission.ofNumber (p : Int32) : Option DamlParticipantPermission :=
  if p = 0 then some .unspecified
  else if p = 1 then some .submission
  else if p = 2 then some .confirmation
  else if p = 3 then some .observation
  else none

/-- `TryFrom<ParticipantAuthorizationAdded> for DamlParticipantAuthorizationAdded`, and those of
the changes and onboardings -/
def DamlParticipantAuthorization.tryFrom (e : Proto.ParticipantAuthorization) :
    DamlResult DamlParticipantAuthorization := do
  let permission ← req (DamlParticipantPermission.ofNumber e.participantPermission)
  return ⟨e.partyId, e.participantId, permission⟩

/-- `TryFrom<TopologyEvent> for DamlTopologyEvent` -/
def DamlTopologyEvent.tryFrom : Proto.TopologyEvent → DamlResult DamlTopologyEvent
  | .unset => .error .missingRequiredField
  | .participantAuthorizationAdded e =>
    .participantAuthorizationAdded <$> DamlParticipantAuthorization.tryFrom e
  | .participantAuthorizationChanged e =>
    .participantAuthorizationChanged <$> DamlParticipantAuthorization.tryFrom e
  | .participantAuthorizationRevoked e =>
    .ok (.participantAuthorizationRevoked ⟨e.partyId, e.participantId⟩)
  | .participantAuthorizationOnboarding e =>
    .participantAuthorizationOnboarding <$> DamlParticipantAuthorization.tryFrom e

section Decode

variable [DateTime T]

/-- `TryFrom<TopologyTransaction> for DamlTopologyTransaction` -/
def DamlTopologyTransaction.tryFrom (t : Proto.TopologyTransaction) :
    DamlResult (DamlTopologyTransaction T) := do
  let recordTime ← fromGrpcTimestamp (← req t.recordTime)
  let events ← t.events.mapM DamlTopologyEvent.tryFrom
  return ⟨t.updateId, ⟨t.offset⟩, t.synchronizerId, recordTime, events⟩

/-- `TryFrom<SynchronizerTime> for DamlSynchronizerTime` -/
def DamlSynchronizerTime.tryFrom (s : Proto.SynchronizerTime) :
    DamlResult (DamlSynchronizerTime T) := do
  let recordTime ← fromGrpcTimestamp (← req s.recordTime)
  return ⟨s.synchronizerId, recordTime⟩

/-- `TryFrom<OffsetCheckpoint> for DamlOffsetCheckpoint` -/
def DamlOffsetCheckpoint.tryFrom (c : Proto.OffsetCheckpoint) :
    DamlResult (DamlOffsetCheckpoint T) := do
  let synchronizerTimes ← c.synchronizerTimes.mapM DamlSynchronizerTime.tryFrom
  return ⟨⟨c.offset⟩, synchronizerTimes⟩

/-- `TryFrom<UnassignedEvent> for DamlUnassignedEvent` -/
def DamlUnassignedEvent.tryFrom (e : Proto.UnassignedEvent) :
    DamlResult (DamlUnassignedEvent T) := do
  let templateId := DamlIdentifier.ofIdentifier (← req e.templateId)
  let assignmentExclusivity ← e.assignmentExclusivity.mapM fromGrpcTimestamp
  return {
    reassignmentId := e.reassignmentId
    contractId := e.contractId
    templateId := templateId
    source := e.source
    target := e.target
    submitter := e.submitter
    reassignmentCounter := e.reassignmentCounter
    assignmentExclusivity := assignmentExclusivity
    witnessParties := e.witnessParties
    packageName := e.packageName
    offset := ⟨e.offset⟩
    nodeId := e.nodeId }

variable [BigDecimal N] [NaiveDate D]

/-- `TryFrom<AssignedEvent> for DamlAssignedEvent` -/
def DamlAssignedEvent.tryFrom (e : Proto.AssignedEvent) :
    DamlResult (DamlAssignedEvent N D T) := do
  let createdEvent ← DamlCreatedEvent.tryFrom (← req e.createdEvent)
  return ⟨e.source, e.target, e.reassignmentId, e.submitter, e.reassignmentCounter, createdEvent⟩

/-- `TryFrom<ReassignmentEvent> for DamlReassignmentEvent` -/
def DamlReassignmentEvent.tryFrom :
    Proto.ReassignmentEvent → DamlResult (DamlReassignmentEvent N D T)
  | .unset => .error .missingRequiredField
  | .unassigned e => .unassigned <$> DamlUnassignedEvent.tryFrom e
  | .assigned e => .assigned <$> DamlAssignedEvent.tryFrom e

/-- `TryFrom<Reassignment> for DamlReassignment` -/
def DamlReassignment.tryFrom (r : Proto.Reassignment) : DamlResult (DamlReassignment N D T) := do
  let events ← r.events.mapM DamlReassignmentEvent.tryFrom
  let recordTime ← fromGrpcTimestamp (← req r.recordTime)
  return {
    updateId := r.updateId
    commandId := r.commandId
    workflowId := r.workflowId
    offset := ⟨r.offset⟩
    events := events
    recordTime := recordTime
    synchronizerId := r.synchronizerId
    paidTrafficCost := r.paidTrafficCost }

/-- `TryFrom<GetUpdateResponse> for DamlUpdate` -/
def DamlUpdate.tryFrom : Proto.GetUpdateResponse → DamlResult (DamlUpdate N D T)
  | .unset => .error .missingRequiredField
  | .transaction t => .transaction <$> DamlTransaction.tryFrom t
  | .reassignment r => .reassignment <$> DamlReassignment.tryFrom r
  | .topologyTransaction t => .topologyTransaction <$> DamlTopologyTransaction.tryFrom t

/-- `TryFrom<GetUpdatesResponse> for DamlUpdateResponse` -/
def DamlUpdateResponse.tryFrom :
    Proto.GetUpdatesResponse → DamlResult (DamlUpdateResponse N D T)
  | .unset => .error .missingRequiredField
  | .transaction t => (fun t => .update (.transaction t)) <$> DamlTransaction.tryFrom t
  | .reassignment r => (fun r => .update (.reassignment r)) <$> DamlReassignment.tryFrom r
  | .topologyTransaction t =>
    (fun t => .update (.topologyTransaction t)) <$> DamlTopologyTransaction.tryFrom t
  | .offsetCheckpoint c => .offsetCheckpoint <$> DamlOffsetCheckpoint.tryFrom c

/-! ### Reading -/

/-- An element of the stream of `get_updates`: the stream itself may have failed there. -/
def readUpdate (item : Except Status Proto.GetUpdatesResponse) :
    LedgerResult (DamlUpdateResponse N D T) :=
  match item with
  | .ok response => (DamlUpdateResponse.tryFrom response).lift
  | .error e => .error (.ofStatus e)

/-- What `get_updates` gives for what has come in so far. -/
def getUpdates (items : List (Except Status Proto.GetUpdatesResponse)) :
    List (LedgerResult (DamlUpdateResponse N D T)) :=
  items.map readUpdate

/-- The page that `get_updates_page` makes of a response. -/
def readUpdatesPage (response : Proto.GetUpdatesPageResponse) :
    LedgerResult (DamlUpdatesPage N D T) := do
  let updates ← (response.updates.mapM DamlUpdate.tryFrom).lift
  return ⟨updates, ⟨response.lowestPageOffsetExclusive⟩, ⟨response.highestPageOffsetInclusive⟩,
    response.nextPageToken⟩

end Decode

/-! ### Which updates decode -/

namespace Proto

/-- There is such a permission. -/
def ParticipantAuthorization.WellFormed (e : ParticipantAuthorization) : Prop :=
  e.participantPermission ∈ [0, 1, 2, 3]

def TopologyEvent.WellFormed : TopologyEvent → Prop
  | .unset => False
  | .participantAuthorizationAdded e => e.WellFormed
  | .participantAuthorizationChanged e => e.WellFormed
  | .participantAuthorizationRevoked _ => True
  | .participantAuthorizationOnboarding e => e.WellFormed

section Times

variable (T : Type) [DateTime T]

structure TopologyTransaction.WellFormed (t : TopologyTransaction) : Prop where
  recordTime : ∃ m ∈ t.recordTime, m.InRange T
  events : ∀ e ∈ t.events, e.WellFormed

def OffsetCheckpoint.WellFormed (c : OffsetCheckpoint) : Prop :=
  ∀ s ∈ c.synchronizerTimes, ∃ m ∈ s.recordTime, m.InRange T

structure UnassignedEvent.WellFormed (e : UnassignedEvent) : Prop where
  templateId : e.templateId.isSome
  assignmentExclusivity : ∀ m ∈ e.assignmentExclusivity, m.InRange T

end Times

section Values

variable (N D T : Type) [BigDecimal N] [NaiveDate D] [DateTime T]

def ReassignmentEvent.WellFormed : ReassignmentEvent → Prop
  | .unset => False
  | .unassigned e => e.WellFormed T
  | .assigned e => ∃ c ∈ e.createdEvent, c.WellFormed N D T

structure Reassignment.WellFormed (r : Reassignment) : Prop where
  events : ∀ e ∈ r.events, e.WellFormed N D T
  recordTime : ∃ m ∈ r.recordTime, m.InRange T

/-- Everything the decoder asks for is there in the update. -/
def GetUpdateResponse.WellFormed : GetUpdateResponse → Prop
  | .unset => False
  | .transaction t => t.WellFormed N D T
  | .reassignment r => r.WellFormed N D T
  | .topologyTransaction t => t.WellFormed T

/-- The same for an element of the stream. -/
def GetUpdatesResponse.WellFormed : GetUpdatesResponse → Prop
  | .unset => False
  | .transaction t => t.WellFormed N D T
  | .reassignment r => r.WellFormed N D T
  | .topologyTransaction t => t.WellFormed T
  | .offsetCheckpoint c => c.WellFormed T

end Values

/-- The update that an element of the stream has, if it has one. -/
def GetUpdatesResponse.update? : GetUpdatesResponse → Option GetUpdateResponse
  | .transaction t => some (.transaction t)
  | .reassignment r => some (.reassignment r)
  | .topologyTransaction t => some (.topologyTransaction t)
  | .unset | .offsetCheckpoint _ => none

end Proto

section Accept

lemma DamlParticipantAuthorization.exists_tryFrom_iff {e : Proto.ParticipantAuthorization} :
    (∃ d, tryFrom e = .ok d) ↔ e.WellFormed := by
  have hnumber : (∃ p, DamlParticipantPermission.ofNumber e.participantPermission = some p) ↔
      e.WellFormed := by
    rw [Proto.ParticipantAuthorization.WellFormed, DamlParticipantPermission.ofNumber]
    split_ifs with h0 h1 h2 h3 <;> simp_all
  rw [← hnumber]
  simp only [tryFrom, Except.bind_eq_ok, Except.pure_eq_ok, req_eq_ok]
  constructor
  · rintro ⟨_, p, hp, -⟩
    exact ⟨p, hp⟩
  · rintro ⟨p, hp⟩
    exact ⟨_, p, hp, rfl⟩

lemma DamlTopologyEvent.exists_tryFrom_iff {e : Proto.TopologyEvent} :
    (∃ d, tryFrom e = .ok d) ↔ e.WellFormed := by
  cases e with
  | unset => exact iff_of_false (fun ⟨_, h⟩ => by cases h) id
  | participantAuthorizationRevoked e => exact iff_of_true ⟨_, rfl⟩ trivial
  | participantAuthorizationAdded e
  | participantAuthorizationChanged e
  | participantAuthorizationOnboarding e =>
    rw [Proto.TopologyEvent.WellFormed, ← DamlParticipantAuthorization.exists_tryFrom_iff]
    simp [tryFrom]

variable [DateTime T] [LawfulDateTime T]

/-- A time that has to be there. -/
lemma exists_req_fromGrpcTimestamp_iff {o : Option Proto.Timestamp} :
    (∃ m, req o = .ok m ∧ ∃ t : T, fromGrpcTimestamp m = .ok t) ↔ ∃ m ∈ o, m.InRange T := by
  simp only [req_eq_ok, exists_fromGrpcTimestamp_iff, Option.mem_def]

lemma DamlTopologyTransaction.exists_tryFrom_iff {m : Proto.TopologyTransaction} :
    (∃ t : DamlTopologyTransaction T, tryFrom m = .ok t) ↔ m.WellFormed T := by
  have hevents : (∃ ds, m.events.mapM DamlTopologyEvent.tryFrom = .ok ds) ↔
      ∀ e ∈ m.events, e.WellFormed := by
    simp only [Except.mapM_eq_ok, List.exists_forall₂_iff, DamlTopologyEvent.exists_tryFrom_iff]
  simp only [tryFrom, Except.bind_eq_ok, Except.pure_eq_ok]
  constructor
  · rintro ⟨_, time, htime, t, ht, ds, hds, -⟩
    exact ⟨exists_req_fromGrpcTimestamp_iff.1 ⟨time, htime, t, ht⟩, hevents.1 ⟨ds, hds⟩⟩
  · rintro ⟨htime, hds⟩
    obtain ⟨time, htime, t, ht⟩ := (exists_req_fromGrpcTimestamp_iff (T := T)).2 htime
    obtain ⟨ds, hds⟩ := hevents.2 hds
    exact ⟨_, time, htime, t, ht, ds, hds, rfl⟩

lemma DamlOffsetCheckpoint.exists_tryFrom_iff {m : Proto.OffsetCheckpoint} :
    (∃ c : DamlOffsetCheckpoint T, tryFrom m = .ok c) ↔ m.WellFormed T := by
  have htime : ∀ s : Proto.SynchronizerTime, (∃ d : DamlSynchronizerTime T,
      DamlSynchronizerTime.tryFrom s = .ok d) ↔ ∃ m ∈ s.recordTime, m.InRange T := by
    intro s
    rw [← exists_req_fromGrpcTimestamp_iff]
    simp only [DamlSynchronizerTime.tryFrom, Except.bind_eq_ok, Except.pure_eq_ok]
    constructor
    · rintro ⟨_, time, htime, t, ht, -⟩
      exact ⟨time, htime, t, ht⟩
    · rintro ⟨time, htime, t, ht⟩
      exact ⟨_, time, htime, t, ht, rfl⟩
  rw [Proto.OffsetCheckpoint.WellFormed]
  simp only [← htime, ← List.exists_forall₂_iff, ← Except.mapM_eq_ok, tryFrom, Except.bind_eq_ok,
    Except.pure_eq_ok]
  constructor
  · rintro ⟨_, ts, hts, -⟩
    exact ⟨ts, hts⟩
  · rintro ⟨ts, hts⟩
    exact ⟨_, ts, hts, rfl⟩

lemma DamlUnassignedEvent.exists_tryFrom_iff {e : Proto.UnassignedEvent} :
    (∃ d : DamlUnassignedEvent T, tryFrom e = .ok d) ↔ e.WellFormed T := by
  have hexclusivity : (∃ o, e.assignmentExclusivity.mapM fromGrpcTimestamp
      = (.ok o : DamlResult (Option T))) ↔ ∀ m ∈ e.assignmentExclusivity, m.InRange T := by
    simp only [Except.exists_optionMapM_iff, exists_fromGrpcTimestamp_iff]
  simp only [tryFrom, Except.bind_eq_ok, Except.pure_eq_ok, req_eq_ok]
  constructor
  · rintro ⟨_, id, hid, o, ho, -⟩
    exact ⟨by simp [hid], hexclusivity.1 ⟨o, ho⟩⟩
  · rintro ⟨hid, ho⟩
    obtain ⟨id, hid⟩ := Option.isSome_iff_exists.1 hid
    obtain ⟨o, ho⟩ := hexclusivity.2 ho
    exact ⟨_, id, hid, o, ho, rfl⟩

variable [BigDecimal N] [NaiveDate D] [LawfulNaiveDate D] [ExactNaiveDate D]

lemma DamlReassignmentEvent.exists_tryFrom_iff {e : Proto.ReassignmentEvent} :
    (∃ d : DamlReassignmentEvent N D T, tryFrom e = .ok d) ↔ e.WellFormed N D T := by
  cases e with
  | unset => exact iff_of_false (fun ⟨_, h⟩ => by cases h) id
  | unassigned e =>
    rw [Proto.ReassignmentEvent.WellFormed, ← DamlUnassignedEvent.exists_tryFrom_iff]
    simp [tryFrom]
  | assigned e =>
    rw [Proto.ReassignmentEvent.WellFormed]
    simp only [← DamlCreatedEvent.exists_tryFrom_iff, tryFrom, DamlAssignedEvent.tryFrom,
      Except.map_eq_ok, Except.bind_eq_ok, Except.pure_eq_ok, req_eq_ok, Option.mem_def]
    constructor
    · rintro ⟨_, _, ⟨c, hc, created, hcreated, -⟩, -⟩
      exact ⟨c, hc, created, hcreated⟩
    · rintro ⟨c, hc, created, hcreated⟩
      exact ⟨_, _, ⟨c, hc, created, hcreated, rfl⟩, rfl⟩

lemma DamlReassignment.exists_tryFrom_iff {m : Proto.Reassignment} :
    (∃ r : DamlReassignment N D T, tryFrom m = .ok r) ↔ m.WellFormed N D T := by
  have hevents : (∃ ds, m.events.mapM DamlReassignmentEvent.tryFrom
      = (.ok ds : DamlResult (List (DamlReassignmentEvent N D T)))) ↔
        ∀ e ∈ m.events, e.WellFormed N D T := by
    simp only [Except.mapM_eq_ok, List.exists_forall₂_iff,
      DamlReassignmentEvent.exists_tryFrom_iff]
  simp only [tryFrom, Except.bind_eq_ok, Except.pure_eq_ok]
  constructor
  · rintro ⟨_, ds, hds, time, htime, t, ht, -⟩
    exact ⟨hevents.1 ⟨ds, hds⟩, exists_req_fromGrpcTimestamp_iff.1 ⟨time, htime, t, ht⟩⟩
  · rintro ⟨hds, htime⟩
    obtain ⟨ds, hds⟩ := hevents.2 hds
    obtain ⟨time, htime, t, ht⟩ := (exists_req_fromGrpcTimestamp_iff (T := T)).2 htime
    exact ⟨_, ds, hds, time, htime, t, ht, rfl⟩

lemma DamlUpdate.exists_tryFrom_iff {m : Proto.GetUpdateResponse} :
    (∃ u : DamlUpdate N D T, tryFrom m = .ok u) ↔ m.WellFormed N D T := by
  cases m with
  | unset => exact iff_of_false (fun ⟨_, h⟩ => by cases h) id
  | transaction t =>
    rw [Proto.GetUpdateResponse.WellFormed, ← DamlTransaction.exists_tryFrom_iff]
    simp [tryFrom]
  | reassignment r =>
    rw [Proto.GetUpdateResponse.WellFormed, ← DamlReassignment.exists_tryFrom_iff]
    simp [tryFrom]
  | topologyTransaction t =>
    rw [Proto.GetUpdateResponse.WellFormed, ← DamlTopologyTransaction.exists_tryFrom_iff]
    simp [tryFrom]

lemma DamlUpdateResponse.exists_tryFrom_iff {m : Proto.GetUpdatesResponse} :
    (∃ r : DamlUpdateResponse N D T, tryFrom m = .ok r) ↔ m.WellFormed N D T := by
  cases m with
  | unset => exact iff_of_false (fun ⟨_, h⟩ => by cases h) id
  | transaction t =>
    rw [Proto.GetUpdatesResponse.WellFormed, ← DamlTransaction.exists_tryFrom_iff]
    simp [tryFrom]
  | reassignment r =>
    rw [Proto.GetUpdatesResponse.WellFormed, ← DamlReassignment.exists_tryFrom_iff]
    simp [tryFrom]
  | topologyTransaction t =>
    rw [Proto.GetUpdatesResponse.WellFormed, ← DamlTopologyTransaction.exists_tryFrom_iff]
    simp [tryFrom]
  | offsetCheckpoint c =>
    rw [Proto.GetUpdatesResponse.WellFormed, ← DamlOffsetCheckpoint.exists_tryFrom_iff]
    simp [tryFrom]

end Accept

/-! ### What an update says -/

section Says

/-- What an authorization says of its message. -/
structure AuthorizationOf (e : Proto.ParticipantAuthorization) (d : DamlParticipantAuthorization) :
    Prop where
  partyId : d.partyId = e.partyId
  participantId : d.participantId = e.participantId
  permission : DamlParticipantPermission.ofNumber e.participantPermission = some d.permission

/-- A topology event is of the same kind as its message, and about the same party and
participant. -/
inductive TopologyEventOf : Proto.TopologyEvent → DamlTopologyEvent → Prop
  | added {e : Proto.ParticipantAuthorizationAdded} {d : DamlParticipantAuthorizationAdded} :
      AuthorizationOf e d →
      TopologyEventOf (.participantAuthorizationAdded e) (.participantAuthorizationAdded d)
  | changed {e : Proto.ParticipantAuthorizationChanged} {d : DamlParticipantAuthorizationChanged} :
      AuthorizationOf e d →
      TopologyEventOf (.participantAuthorizationChanged e) (.participantAuthorizationChanged d)
  | revoked (e : Proto.ParticipantAuthorizationRevoked) :
      TopologyEventOf (.participantAuthorizationRevoked e)
        (.participantAuthorizationRevoked ⟨e.partyId, e.participantId⟩)
  | onboarding {e : Proto.ParticipantAuthorizationOnboarding}
      {d : DamlParticipantAuthorizationOnboarding} : AuthorizationOf e d →
      TopologyEventOf (.participantAuthorizationOnboarding e)
        (.participantAuthorizationOnboarding d)

lemma topologyEventOf_of_tryFrom {e : Proto.TopologyEvent} {d : DamlTopologyEvent}
    (h : DamlTopologyEvent.tryFrom e = .ok d) : TopologyEventOf e d := by
  have hauthorization : ∀ {m : Proto.ParticipantAuthorization} {a : DamlParticipantAuthorization},
      DamlParticipantAuthorization.tryFrom m = .ok a → AuthorizationOf m a := by
    intro m a ha
    simp only [DamlParticipantAuthorization.tryFrom, Except.bind_eq_ok, Except.pure_eq_ok,
      req_eq_ok] at ha
    obtain ⟨p, hp, rfl⟩ := ha
    exact ⟨rfl, rfl, hp⟩
  cases e with
  | unset => cases h
  | participantAuthorizationAdded e =>
    obtain ⟨a, ha, rfl⟩ := Except.map_eq_ok.1 h
    exact .added (hauthorization ha)
  | participantAuthorizationChanged e =>
    obtain ⟨a, ha, rfl⟩ := Except.map_eq_ok.1 h
    exact .changed (hauthorization ha)
  | participantAuthorizationRevoked e =>
    cases h
    exact .revoked e
  | participantAuthorizationOnboarding e =>
    obtain ⟨a, ha, rfl⟩ := Except.map_eq_ok.1 h
    exact .onboarding (hauthorization ha)

variable [BigDecimal N] [NaiveDate D] [DateTime T]

/-- The half of a reassignment is the one of its message, with the same identifier and counter; an
assigned contract is the one of the event in it. -/
inductive ReassignmentEventOf : Proto.ReassignmentEvent → DamlReassignmentEvent N D T → Prop
  | unassigned {e : Proto.UnassignedEvent} {d : DamlUnassignedEvent T} :
      d.reassignmentId = e.reassignmentId → d.reassignmentCounter = e.reassignmentCounter →
      d.contractId = e.contractId →
      e.templateId.map DamlIdentifier.ofIdentifier = some d.templateId →
      d.source = e.source → d.target = e.target → d.offset = ⟨e.offset⟩ → d.nodeId = e.nodeId →
      Option.Rel (fun m t => fromGrpcTimestamp m = .ok t) e.assignmentExclusivity
        d.assignmentExclusivity →
      ReassignmentEventOf (.unassigned e) (.unassigned d)
  | assigned {e : Proto.AssignedEvent} {d : DamlAssignedEvent N D T} {c : Proto.CreatedEvent} :
      d.reassignmentId = e.reassignmentId → d.reassignmentCounter = e.reassignmentCounter →
      d.source = e.source → d.target = e.target → e.createdEvent = some c →
      CreatedEventOf c d.createdEvent →
      ReassignmentEventOf (.assigned e) (.assigned d)

lemma reassignmentEventOf_of_tryFrom {e : Proto.ReassignmentEvent}
    {d : DamlReassignmentEvent N D T} (h : DamlReassignmentEvent.tryFrom e = .ok d) :
    ReassignmentEventOf e d := by
  cases e with
  | unset => cases h
  | unassigned e =>
    simp only [DamlReassignmentEvent.tryFrom, DamlUnassignedEvent.tryFrom, Except.map_eq_ok,
      Except.bind_eq_ok, Except.pure_eq_ok, req_eq_ok] at h
    obtain ⟨_, ⟨id, hid, o, ho, rfl⟩, rfl⟩ := h
    exact .unassigned rfl rfl rfl (by rw [hid]; rfl) rfl rfl rfl rfl (Except.optionMapM_eq_ok.1 ho)
  | assigned e =>
    simp only [DamlReassignmentEvent.tryFrom, DamlAssignedEvent.tryFrom, Except.map_eq_ok,
      Except.bind_eq_ok, Except.pure_eq_ok, req_eq_ok] at h
    obtain ⟨_, ⟨c, hc, created, hcreated, rfl⟩, rfl⟩ := h
    exact .assigned rfl rfl rfl rfl hc (createdEventOf_of_tryFrom hcreated)

/-- An update is of the same kind as its message, at the same offset, and has its events one by one
and in their order. -/
inductive UpdateOf : Proto.GetUpdateResponse → DamlUpdate N D T → Prop
  | transaction {m : Proto.Transaction} {d : DamlTransaction N D T} :
      d.updateId = m.updateId → d.offset = ⟨m.offset⟩ → List.Forall₂ EventOf m.events d.events →
      UpdateOf (.transaction m) (.transaction d)
  | reassignment {m : Proto.Reassignment} {d : DamlReassignment N D T} :
      d.updateId = m.updateId → d.offset = ⟨m.offset⟩ →
      List.Forall₂ ReassignmentEventOf m.events d.events →
      UpdateOf (.reassignment m) (.reassignment d)
  | topologyTransaction {m : Proto.TopologyTransaction} {d : DamlTopologyTransaction T} :
      d.updateId = m.updateId → d.offset = ⟨m.offset⟩ →
      List.Forall₂ TopologyEventOf m.events d.events →
      UpdateOf (.topologyTransaction m) (.topologyTransaction d)

lemma updateOf_of_tryFrom {m : Proto.GetUpdateResponse} {u : DamlUpdate N D T}
    (h : DamlUpdate.tryFrom m = .ok u) : UpdateOf m u := by
  cases m with
  | unset => cases h
  | transaction m =>
    obtain ⟨d, hd, rfl⟩ := Except.map_eq_ok.1 h
    have hevents := events_of_tryFrom hd
    simp only [DamlTransaction.tryFrom, Except.bind_eq_ok, Except.pure_eq_ok] at hd
    obtain ⟨_, -, _, -, ds, -, _, -, _, -, rfl⟩ := hd
    exact .transaction rfl rfl hevents
  | reassignment m =>
    obtain ⟨d, hd, rfl⟩ := Except.map_eq_ok.1 h
    simp only [DamlReassignment.tryFrom, Except.bind_eq_ok, Except.pure_eq_ok] at hd
    obtain ⟨ds, hds, _, -, _, -, rfl⟩ := hd
    exact .reassignment rfl rfl
      ((Except.mapM_eq_ok.1 hds).imp fun _ _ => reassignmentEventOf_of_tryFrom)
  | topologyTransaction m =>
    obtain ⟨d, hd, rfl⟩ := Except.map_eq_ok.1 h
    simp only [DamlTopologyTransaction.tryFrom, Except.bind_eq_ok, Except.pure_eq_ok] at hd
    obtain ⟨_, -, _, -, ds, hds, rfl⟩ := hd
    exact .topologyTransaction rfl rfl
      ((Except.mapM_eq_ok.1 hds).imp fun _ _ => topologyEventOf_of_tryFrom)

/-! ### The stream and the page -/

/-- The updates that have come in on a stream. -/
def sentUpdates (items : List (Except Status Proto.GetUpdatesResponse)) :
    List Proto.GetUpdateResponse :=
  items.filterMap fun item => item.toOption.bind Proto.GetUpdatesResponse.update?

/-- The updates that a stream has given. -/
def updatesOf (read : List (LedgerResult (DamlUpdateResponse N D T))) : List (DamlUpdate N D T) :=
  read.filterMap fun
    | .ok (.update u) => some u
    | _ => none

/-- An update is decoded on a stream as it is in a page. -/
lemma DamlUpdateResponse.tryFrom_eq_map_update {m : Proto.GetUpdatesResponse}
    {u : Proto.GetUpdateResponse} (h : m.update? = some u) :
    (tryFrom m : DamlResult (DamlUpdateResponse N D T)) = .update <$> DamlUpdate.tryFrom u := by
  cases m with
  | unset => cases h
  | transaction t =>
    cases h
    rw [tryFrom, DamlUpdate.tryFrom, Functor.map_map]
  | reassignment r =>
    cases h
    rw [tryFrom, DamlUpdate.tryFrom, Functor.map_map]
  | topologyTransaction t =>
    cases h
    rw [tryFrom, DamlUpdate.tryFrom, Functor.map_map]
  | offsetCheckpoint c => cases h

/-- A message without an update is not read as one. -/
lemma DamlUpdateResponse.tryFrom_ne_update {m : Proto.GetUpdatesResponse} (h : m.update? = none)
    (u : DamlUpdate N D T) : tryFrom m ≠ .ok (.update u) := by
  intro hu
  cases m with
  | unset => cases hu
  | transaction t => cases h
  | reassignment r => cases h
  | topologyTransaction t => cases h
  | offsetCheckpoint c =>
    obtain ⟨_, -, hc⟩ := Except.map_eq_ok.1 hu
    cases hc

/-- A stream gives what the updates on it decode to, one for one, and leaves out the others. -/
lemma updatesOf_getUpdates (items : List (Except Status Proto.GetUpdatesResponse)) :
    updatesOf (getUpdates items) =
      (sentUpdates items).filterMap fun m =>
        (DamlUpdate.tryFrom m : DamlResult (DamlUpdate N D T)).toOption := by
  rw [updatesOf, getUpdates, sentUpdates, List.filterMap_map, List.filterMap_filterMap]
  refine List.filterMap_congr fun item _ => ?_
  rcases item with e | m
  · rfl
  · rcases hupdate : m.update? with - | u
    · have hne := DamlUpdateResponse.tryFrom_ne_update (N := N) (D := D) (T := T) hupdate
      rcases hread : (DamlUpdateResponse.tryFrom m : DamlResult (DamlUpdateResponse N D T))
        with e | (u | c)
      · simp [readUpdate, hread, hupdate, Except.toOption]
      · exact absurd hread (hne u)
      · simp [readUpdate, hread, hupdate, Except.toOption]
    · have hread := DamlUpdateResponse.tryFrom_eq_map_update (N := N) (D := D) (T := T) hupdate
      rcases hdecode : (DamlUpdate.tryFrom u : DamlResult (DamlUpdate N D T)) with e | d <;>
        simp [readUpdate, hread, hupdate, hdecode, Functor.map, Except.map, Except.toOption]

lemma readUpdatesPage_eq_ok {response : Proto.GetUpdatesPageResponse}
    {page : DamlUpdatesPage N D T} : readUpdatesPage response = .ok page ↔
      response.updates.mapM DamlUpdate.tryFrom = .ok page.updates ∧
        page = ⟨page.updates, ⟨response.lowestPageOffsetExclusive⟩,
          ⟨response.highestPageOffsetInclusive⟩, response.nextPageToken⟩ := by
  simp only [readUpdatesPage, DamlResult.lift, Except.bind_eq_ok, Except.mapError_eq_ok,
    Except.pure_eq_ok]
  constructor
  · rintro ⟨us, hus, rfl⟩
    exact ⟨hus, rfl⟩
  · rintro ⟨hus, hpage⟩
    exact ⟨_, hus, hpage.symm⟩

variable [LawfulNaiveDate D] [ExactNaiveDate D] [LawfulDateTime T]

lemma exists_readUpdate_iff {item : Except Status Proto.GetUpdatesResponse} :
    (∃ r : DamlUpdateResponse N D T, readUpdate item = .ok r) ↔
      ∃ m, item = .ok m ∧ m.WellFormed N D T := by
  rcases item with e | m
  · simp [readUpdate]
  · simp only [readUpdate, DamlResult.lift, Except.mapError_eq_ok, Except.ok.injEq,
      exists_eq_left', DamlUpdateResponse.exists_tryFrom_iff]

/-- Whatever comes in on a stream of updates: each element of it can be read exactly if it came in
and everything the decoder asks for is there in it, and the updates that are read are those of the
elements that can be, one for one and in their order, whatever is between them.  A page of the same
updates can be read exactly if all of them can, and then it has the updates of the stream. -/
theorem updates_streamed_iff (items : List (Except Status Proto.GetUpdatesResponse)) :
    List.Forall₂ (fun item read => (∃ r : DamlUpdateResponse N D T, read = .ok r) ↔
        ∃ m, item = .ok m ∧ m.WellFormed N D T) items (getUpdates items) ∧
      (open scoped Classical in
        List.Forall₂ UpdateOf ((sentUpdates items).filter fun m => m.WellFormed N D T)
          (updatesOf (getUpdates items : List (LedgerResult (DamlUpdateResponse N D T))))) ∧
      ∀ response : Proto.GetUpdatesPageResponse, response.updates = sentUpdates items →
        ((∃ page : DamlUpdatesPage N D T, readUpdatesPage response = .ok page) ↔
          ∀ m ∈ response.updates, m.WellFormed N D T) ∧
        ∀ page : DamlUpdatesPage N D T, readUpdatesPage response = .ok page →
          page.updates = updatesOf (getUpdates items) := by
  refine ⟨?_, ?_, fun response hresponse => ⟨?_, fun page hpage => ?_⟩⟩
  · rw [getUpdates, List.forall₂_map_right_iff, List.forall₂_same]
    exact fun item _ => exists_readUpdate_iff
  · rw [updatesOf_getUpdates]
    refine List.forall₂_filter_filterMap (fun m _ => ?_) fun m _ u hu => ?_
    · rw [Bool.eq_iff_iff]
      simp only [decide_eq_true_eq, Option.isSome_iff_exists, Except.toOption_eq_some,
        DamlUpdate.exists_tryFrom_iff]
    · exact updateOf_of_tryFrom (Except.toOption_eq_some.1 hu)
  · simp only [← DamlUpdate.exists_tryFrom_iff, ← List.exists_forall₂_iff, ← Except.mapM_eq_ok,
      readUpdatesPage_eq_ok]
    constructor
    · rintro ⟨page, hus, -⟩
      exact ⟨_, hus⟩
    · rintro ⟨us, hus⟩
      exact ⟨⟨us, _, _, _⟩, hus, rfl⟩
  · rw [updatesOf_getUpdates, ← hresponse]
    exact (Except.filterMap_toOption_of_mapM (readUpdatesPage_eq_ok.1 hpage).1).symm

end Says

/-- What comes in: a transaction with an event without contents, a failure, and a transaction that
decodes. -/
def brokenStream : List (Except Status Proto.GetUpdatesResponse) :=
  [.ok (.transaction { Proto.Transaction.ofPublished with events := [.unset] }),
    .error ⟨.unavailable, "connection reset"⟩, .ok (.transaction .ofPublished)]

/-- The stream gives the update behind the failures, and the page of the two updates fails. -/
theorem updates_streamed_broken :
    (∃ u : DamlUpdate Int GregorianDay UtcInstant, updatesOf (getUpdates brokenStream) = [u] ∧
        UpdateOf (.transaction .ofPublished) u) ∧
      ¬ ∃ page : DamlUpdatesPage Int GregorianDay UtcInstant,
        readUpdatesPage ⟨sentUpdates brokenStream, 0, 7, none⟩ = .ok page := by
  classical
  obtain ⟨-, hupdates, hpage⟩ :=
    @updates_streamed_iff Int GregorianDay UtcInstant _ _ _ _ _ _ brokenStream
  have hwf : (Proto.GetUpdateResponse.transaction .ofPublished).WellFormed Int GregorianDay
      UtcInstant := Proto.Transaction.wellFormed_ofPublished
  have hbroken : ¬ (Proto.GetUpdateResponse.transaction
      { Proto.Transaction.ofPublished with events := [.unset] }).WellFormed Int GregorianDay
        UtcInstant :=
    fun h => h.events .unset (List.mem_singleton_self _)
  have hsent : sentUpdates brokenStream = [.transaction
      { Proto.Transaction.ofPublished with events := [.unset] }, .transaction .ofPublished] := rfl
  constructor
  · rw [hsent, List.filter_cons_of_neg (by simpa using hbroken),
      List.filter_cons_of_pos (by simpa using hwf), List.filter_nil] at hupdates
    obtain ⟨u, us, hu, hnil, hlist⟩ := List.forall₂_cons_left_iff.1 hupdates
    rw [List.forall₂_nil_left_iff.1 hnil] at hlist
    exact ⟨u, hlist, hu⟩
  · intro hex
    have hall := (hpage ⟨sentUpdates brokenStream, 0, 7, none⟩ rfl).1.1 hex
    rw [hsent] at hall
    exact hbroken (hall _ List.mem_cons_self)

end DamlBindings.Grpc
