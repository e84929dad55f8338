import DamlBindings.Grpc.Accessors
import DamlBindings.Grpc.Events
import DamlBindings.Lib.Exchange

/-!
# Executing commands

The simple executor (`executor.rs`) submits the commands of a call and reads the transaction that
comes back.  Its participant is anything that answers requests.  Whatever the participant does, a
session of calls is the participant being given one request for each call that can be sent, in the
order of the calls and none of them twice, and the parties, the user and the token of the requests
are those that the builder was given last.
-/

namespace DamlBindings.Grpc

open Exchange (exchange serve session)

variable {N D T σ : Type}

/-! ### Formats -/

namespace Proto

structure WildcardFilter where
  includeCreatedEventBlob : Bool

structure InterfaceFilter where
  interfaceId : Option Identifier
  includeInterfaceView : Bool
  includeCreatedEventBlob : Bool

structure TemplateFilter where
  templateId : Option Identifier
  includeCreatedEventBlob : Bool

/-- The `CumulativeFilter` message; `unset` is a message without a filter. -/
inductive CumulativeFilter where
  | unset
  | wildcardFilter (f : WildcardFilter)
  | interfaceFilter (f : InterfaceFilter)
  | templateFilter (f : TemplateFilter)

structure Filters where
  cumulative : List CumulativeFilter

structure EventFormat where
  filtersByParty : List (String × Filters)
  filtersForAnyParty : Option Filters
  verbose : Bool

structure TransactionFormat where
  eventFormat : Option EventFormat
  transactionShape : Int32

structure SubmitAndWaitForTransactionRequest where
  commands : Option Commands
  transactionFormat : Option TransactionFormat

structure SubmitAndWaitForTransactionResponse where
  transaction : Option Transaction

end Proto

structure DamlWildcardFilter where
  includeCreatedEventBlob : Bool

structure DamlInterfaceFilter where
  interfaceId : DamlIdentifier
  includeInterfaceView : Bool
  includeCreatedEventBlob : Bool

structure DamlTemplateFilter where
  templateId : DamlIdentifier
  includeCreatedEventBlob : Bool

inductive DamlCumulativeFilter where
  | wildcard (f : DamlWildcardFilter)
  | interface (f : DamlInterfaceFilter)
  | template (f : DamlTemplateFilter)

/-- Filters, of which one has to match; no filters at all stand for a wildcard. -/
structure DamlFilters where
  cumulative : List DamlCumulativeFilter

inductive DamlTransactionShape where
  | acsDelta
  | ledgerEffects

structure DamlEventFormat where
  filtersByParty : List (String × DamlFilters)
  filtersForAnyParty : Option DamlFilters
  verbose : Bool

structure DamlTransactionFormat where
  eventFormat : DamlEventFormat
  transactionShape : DamlTransactionShape

/-- `From<DamlCumulativeFilter> for CumulativeFilter` -/
def DamlCumulativeFilter.toCumulativeFilter : DamlCumulativeFilter → Proto.CumulativeFilter
  | wildcard f => .wildcardFilter ⟨f.includeCreatedEventBlob⟩
  | interface f => .interfaceFilter
    ⟨some f.interfaceId.toIdentifier, f.includeInterfaceView, f.includeCreatedEventBlob⟩
  | template f => .templateFilter ⟨some f.templateId.toIdentifier, f.includeCreatedEventBlob⟩

/-- `From<DamlFilters> for Filters` -/
def DamlFilters.toFilters (f : DamlFilters) : Proto.Filters :=
  ⟨f.cumulative.map DamlCumulativeFilter.toCumulativeFilter⟩

/-- `From<DamlTransactionShape> for TransactionShape`, as a number -/
def DamlTransactionShape.toTransactionShape : DamlTransactionShape → Int32
  | acsDelta => 1
  | ledgerEffects => 2

/-- `From<DamlEventFormat> for EventFormat` -/
def DamlEventFormat.toEventFormat (f : DamlEventFormat) : Proto.EventFormat :=
  ⟨AssocMap.mapValues DamlFilters.toFilters f.filtersByParty,
    f.filtersForAnyParty.map DamlFilters.toFilters, f.verbose⟩

/-- `From<DamlTransactionFormat> for TransactionFormat` -/
def DamlTransactionFormat.toTransactionFormat (f : DamlTransactionFormat) :
    Proto.TransactionFormat :=
  ⟨some f.eventFormat.toEventFormat, f.transactionShape.toTransactionShape⟩

/-! ### The command service -/

/-- A request with the metadata that says who sends it. -/
structure Request (α : Type) where
  payload : α
  authorization : Option String

/-- A participant answers the requests that it is sent, and changes. -/
abbrev Participant (σ : Type) :=
  Request Proto.SubmitAndWaitForTransactionRequest → σ →
    Except Status Proto.SubmitAndWaitForTransactionResponse × σ

/-- A connection to a participant, with the token of its configuration. -/
structure DamlGrpcClient (σ : Type) where
  authToken : Option String
  channel : Participant σ

structure DamlCommandService (σ : Type) where
  channel : Participant σ
  authToken : Option String

/-- `command_service` -/
def DamlGrpcClient.commandService (client : DamlGrpcClient σ) : DamlCommandService σ :=
  ⟨client.channel, client.authToken⟩

/-- `with_token` -/
def DamlCommandService.withToken (service : DamlCommandService σ) (authToken : String) :
    DamlCommandService σ :=
  { service with authToken := some authToken }

section Service

variable [BigDecimal N] [NaiveDate D] [DateTime T]

-- which texts are metadata (`MetadataValue::from_str`)
variable (fromStr : String → Except String String)

/-- `make_request` -/
def makeRequest {α : Type} (payload : α) : Option String → LedgerResult (Request α)
  | none => .ok ⟨payload, none⟩
  | some token => do
    let token ← (fromStr s!"Bearer {token}").mapError .other
    return ⟨payload, some token⟩

/-- `submit_and_wait_for_transaction` of the command service -/
def DamlCommandService.submitAndWaitForTransaction (service : DamlCommandService σ)
    (commands : DamlCommands N D T) (transactionFormat : Option DamlTransactionFormat) :
    ExceptT LedgerError (StateM σ) (DamlTransaction N D T) := do
  let commands ← commands.toCommands.lift
  let payload : Proto.SubmitAndWaitForTransactionRequest :=
    ⟨some commands, transactionFormat.map DamlTransactionFormat.toTransactionFormat⟩
  let request ← makeRequest fromStr payload service.authToken
  let response ← ExceptT.mk fun s =>
    ((service.channel request s).1.mapError .ofStatus, (service.channel request s).2)
  let transaction ← (req response.transaction).lift
  (DamlTransaction.tryFrom transaction).lift

/-! ### The executor -/

structure DamlSimpleExecutor (σ T : Type) where
  ledgerClient : DamlGrpcClient σ
  commandFactory : DamlCommandFactory T
  authToken : Option String

namespace DamlSimpleExecutor

variable (executor : DamlSimpleExecutor σ T)

def actAs : List String := executor.commandFactory.actAs

def readAs : List String := executor.commandFactory.readAs

/-- `client` -/
def client : DamlCommandService σ :=
  match executor.authToken with
  | some token => executor.ledgerClient.commandService.withToken token
  | none => executor.ledgerClient.commandService

/-- The format that asks for every effect that the parties of the executor see. -/
def effectsFormat : DamlTransactionFormat :=
  let wildcard : DamlFilters := ⟨[]⟩
  let filtersByParty := executor.actAs.foldl (fun m party => AssocMap.insert party wildcard m) []
  let filtersByParty :=
    executor.readAs.foldl (fun m party => AssocMap.insert party wildcard m) filtersByParty
  ⟨⟨filtersByParty, none, true⟩, .ledgerEffects⟩

/-- `submit_and_wait_for_transaction`, where `newV4` is the fresh identifier of the command. -/
def submitAndWaitForTransaction (newV4 : String) (command : DamlCommand N D T) :
    ExceptT LedgerError (StateM σ) (DamlTransaction N D T) :=
  let commands := executor.commandFactory.makeCommand newV4 command
  executor.client.submitAndWaitForTransaction fromStr commands none

/-- `submit_and_wait_for_transaction_with_effects` -/
def submitAndWaitForTransactionWithEffects (newV4 : String) (command : DamlCommand N D T) :
    ExceptT LedgerError (StateM σ) (DamlTransaction N D T) :=
  let commands := executor.commandFactory.makeCommand newV4 command
  executor.client.submitAndWaitForTransaction fromStr commands (some executor.effectsFormat)

/-- The event of a transaction that a create command is answered with. -/
def firstCreated (tx : DamlTransaction N D T) : LedgerResult (DamlCreatedEvent N D T) :=
  match tx.events with
  | [] => .error (.other "execute_create: transaction had no events")
  | event :: _ => event.tryCreated.lift

/-- The value of a transaction that an exercise command is answered with. -/
def firstResult (tx : DamlTransaction N D T) : LedgerResult (DamlValue N D T) :=
  (req (tx.events.findSome? fun
    | .exercised ex => ex.exerciseResult
    | _ => none)).lift

/-- `execute_create` -/
def executeCreate (newV4 : String) (createCommand : DamlCreateCommand N D T) :
    ExceptT LedgerError (StateM σ) (DamlCreatedEvent N D T) := do
  let tx ← executor.submitAndWaitForTransaction fromStr newV4 (.create createCommand)
  firstCreated tx

/-- `execute_exercise` -/
def executeExercise (newV4 : String) (exerciseCommand : DamlExerciseCommand N D T) :
    ExceptT LedgerError (StateM σ) (DamlValue N D T) := do
  let tx ← executor.submitAndWaitForTransactionWithEffects fromStr newV4 (.exercise exerciseCommand)
  firstResult tx

end DamlSimpleExecutor

/-! ### The builder -/

structure DamlSimpleExecutorBuilder (σ T : Type) where
  ledgerClient : DamlGrpcClient σ
  actAs : Option (List String)
  readAs : Option (List String)
  workflowId : Option String
  userId : Option String
  deduplicationPeriod : Option DamlCommandsDeduplicationPeriod
  minLedgerTime : Option (DamlMinLedgerTime T)
  authToken : Option String

/-- A setter of the builder, with what it sets. -/
inductive Setting (T : Type) where
  | workflowId (workflowId : String)
  | actAs (actAs : String)
  | actAsAll (actAsAll : List String)
  | readAs (readAs : String)
  | readAsAll (readAsAll : List String)
  | userId (userId : String)
  | deduplicationPeriod (deduplicationPeriod : DamlCommandsDeduplicationPeriod)
  | minLedgerTime (minLedgerTime : DamlMinLedgerTime T)
  | authToken (authToken : String)

namespace DamlSimpleExecutorBuilder

/-- `new` -/
def new (ledgerClient : DamlGrpcClient σ) : DamlSimpleExecutorBuilder σ T :=
  ⟨ledgerClient, none, none, none, none, none, none, none⟩

variable (builder : DamlSimpleExecutorBuilder σ T)

/-- The builder after a setter. -/
def set : Setting T → DamlSimpleExecutorBuilder σ T
  | .workflowId workflowId => { builder with workflowId := some workflowId }
  | .actAs actAs => { builder with actAs := some [actAs] }
  | .actAsAll actAsAll => { builder with actAs := some actAsAll }
  | .readAs readAs => { builder with readAs := some [readAs] }
  | .readAsAll readAsAll => { builder with readAs := some readAsAll }
  | .userId userId => { builder with userId := some userId }
  | .deduplicationPeriod period => { builder with deduplicationPeriod := some period }
  | .minLedgerTime time => { builder with minLedgerTime := some time }
  | .authToken authToken => { builder with authToken := some authToken }

/-- `has_parties` -/
def hasParties : Bool :=
  match builder.actAs, builder.readAs with
  | none, none => false
  | some actAs, none => !actAs.isEmpty
  | none, some readAs => !readAs.isEmpty
  | some actAs, some readAs => !actAs.isEmpty || !readAs.isEmpty

/-- `build` -/
def build : LedgerResult (DamlSimpleExecutor σ T) :=
  if builder.hasParties then
    .ok {
      ledgerClient := builder.ledgerClient
      commandFactory := {
        workflowId := builder.workflowId.getD "default-workflow"
        userId := builder.userId.getD "default-user"
        actAs := builder.actAs.getD []
        readAs := builder.readAs.getD []
        deduplicationPeriod := builder.deduplicationPeriod
        minLedgerTime := builder.minLedgerTime }
      authToken := builder.authToken }
  else .error .insufficientParties

end DamlSimpleExecutorBuilder

/-! ### Calls -/

/-- The calls of `CommandExecutor`. -/
inductive Call (N D T : Type) where
  | executeForTransaction (command : DamlCommand N D T)
  | executeForTransactionWithEffects (command : DamlCommand N D T)
  | executeCreate (createCommand : DamlCreateCommand N D T)
  | executeExercise (exerciseCommand : DamlExerciseCommand N D T)

/-- What a call returns. -/
inductive Answer (N D T : Type) where
  | transaction (tx : DamlTransaction N D T)
  | createdEvent (e : DamlCreatedEvent N D T)
  | value (v : DamlValue N D T)

namespace Call

/-- A call of the executor, where `newV4` is the identifier that is drawn for its command. -/
def run (executor : DamlSimpleExecutor σ T) (newV4 : String) :
    Call N D T → ExceptT LedgerError (StateM σ) (Answer N D T)
  | executeForTransaction command =>
    Answer.transaction <$> executor.submitAndWaitForTransaction fromStr newV4 command
  | executeForTransactionWithEffects command =>
    .transaction <$> executor.submitAndWaitForTransactionWithEffects fromStr newV4 command
  | executeCreate createCommand =>
    .createdEvent <$> executor.executeCreate fromStr newV4 createCommand
  | executeExercise exerciseCommand =>
    .value <$> executor.executeExercise fromStr newV4 exerciseCommand

/-- The command that a call submits. -/
def command : Call N D T → DamlCommand N D T
  | executeForTransaction command => command
  | executeForTransactionWithEffects command => command
  | executeCreate createCommand => .create createCommand
  | executeExercise exerciseCommand => .exercise exerciseCommand

/-- The format that a call asks for. -/
def format (executor : DamlSimpleExecutor σ T) : Call N D T → Option DamlTransactionFormat
  | executeForTransaction _ => none
  | executeForTransactionWithEffects _ => some executor.effectsFormat
  | executeCreate _ => none
  | executeExercise _ => some executor.effectsFormat

/-- The request of a call, if there is nothing that keeps it from being sent. -/
def request (executor : DamlSimpleExecutor σ T) (call : String × Call N D T) :
    LedgerResult (Request Proto.SubmitAndWaitForTransactionRequest) := do
  let commands ← (executor.commandFactory.makeCommand call.1 call.2.command).toCommands.lift
  makeRequest fromStr ⟨some commands, (call.2.format executor).map
    DamlTransactionFormat.toTransactionFormat⟩ executor.client.authToken

/-- What a call reads in the transaction of its response. -/
def read : Call N D T → DamlTransaction N D T → LedgerResult (Answer N D T)
  | executeForTransaction _, tx => .ok (.transaction tx)
  | executeForTransactionWithEffects _, tx => .ok (.transaction tx)
  | executeCreate _, tx => .createdEvent <$> DamlSimpleExecutor.firstCreated tx
  | executeExercise _, tx => .value <$> DamlSimpleExecutor.firstResult tx

/-- What a call makes of the response to its request. -/
def answer (call : String × Call N D T)
    (response : Except Status Proto.SubmitAndWaitForTransactionResponse) :
    LedgerResult (Answer N D T) := do
  let response ← response.mapError .ofStatus
  let transaction ← (req response.transaction).lift
  let tx ← (DamlTransaction.tryFrom transaction).lift
  call.2.read tx

end Call

lemma run_bind {α β : Type} (x : ExceptT LedgerError (StateM σ) α)
    (f : α → ExceptT LedgerError (StateM σ) β) (s : σ) :
    (x >>= f).run s = match x.run s with
      | (.ok a, s') => (f a).run s'
      | (.error e, s') => (.error e, s') := by
  show ExceptT.bindCont f (x.run s).1 (x.run s).2 = _
  rcases x.run s with ⟨e | a, s'⟩ <;> rfl

lemma run_lift {α : Type} (x : LedgerResult α) (s : σ) :
    (liftM x : ExceptT LedgerError (StateM σ) α).run s = (x, s) := rfl

/-- A submission that reads the transaction of its response amounts to one exchange, if its request
can be made, and to none otherwise. -/
lemma submitAndWaitForTransaction_run {α : Type} (service : DamlCommandService σ)
    (commands : DamlCommands N D T) (format : Option DamlTransactionFormat)
    (read : DamlTransaction N D T → LedgerResult α) (s : σ) :
    (do let tx ← service.submitAndWaitForTransaction fromStr commands format; read tx :
        ExceptT LedgerError (StateM σ) α).run s =
      exchange
        (fun _ => do
          let commands ← commands.toCommands.lift
          makeRequest fromStr ⟨some commands, format.map DamlTransactionFormat.toTransactionFormat⟩
            service.authToken)
        (fun _ response => do
          let response ← response.mapError .ofStatus
          let transaction ← (req response.transaction).lift
          let tx ← (DamlTransaction.tryFrom transaction).lift
          read tx)
        service.channel () s := by
  have hok : ∀ {β γ : Type} (b : β) (f : β → LedgerResult γ),
      ((.ok b : LedgerResult β) >>= f) = f b := fun _ _ => rfl
  unfold DamlCommandService.submitAndWaitForTransaction exchange
  simp only [bind_assoc, run_bind, run_lift]
  rcases commands.toCommands.lift with e | m
  · rfl
  · simp only [hok]
    rcases makeRequest fromStr (Proto.SubmitAndWaitForTransactionRequest.mk (some m)
        (format.map DamlTransactionFormat.toTransactionFormat)) service.authToken with e | r
    · rfl
    · simp only [ExceptT.run_mk]
      rcases service.channel r s with ⟨e | response, s'⟩
      · rfl
      · simp only [Except.mapError, hok]
        rcases (req response.transaction).lift with e | transaction
        · rfl
        · simp only [hok]
          rcases (DamlTransaction.tryFrom transaction : DamlResult (DamlTransaction N D T)).lift
            with e | tx
          · rfl
          · rfl

lemma run_map {α β γ : Type} (x : ExceptT LedgerError (StateM σ) α) (f : α → LedgerResult β)
    (g : β → γ) (s : σ) :
    (g <$> (do let a ← x; f a) : ExceptT LedgerError (StateM σ) γ).run s =
      (do let a ← x; (g <$> f a : LedgerResult γ)).run s := by
  rw [map_bind, run_bind, run_bind]
  rcases x.run s with ⟨e | a, s'⟩
  · rfl
  · show (g <$> (liftM (f a) : ExceptT LedgerError (StateM σ) β)).run s' =
      (liftM (g <$> f a) : ExceptT LedgerError (StateM σ) γ).run s'
    rcases f a with e | b <;> rfl

lemma run_map_ok {α β : Type} (x : ExceptT LedgerError (StateM σ) α) (g : α → β) (s : σ) :
    (g <$> x).run s = (do let a ← x; (.ok (g a) : LedgerResult β)).run s := by
  rw [← bind_pure_comp]
  rfl

/-- A call amounts to one exchange with the participant, if its request can be made, and to none
otherwise. -/
lemma run_eq_exchange (executor : DamlSimpleExecutor σ T) (call : String × Call N D T) (s : σ) :
    (call.2.run fromStr executor call.1).run s =
      exchange (Call.request fromStr executor) Call.answer executor.client.channel call s := by
  obtain ⟨newV4, call⟩ := call
  have hsubmit := fun {α : Type} format (read : DamlTransaction N D T → LedgerResult α) =>
    submitAndWaitForTransaction_run fromStr executor.client
      (executor.commandFactory.makeCommand newV4 call.command) format read s
  cases call with
  | executeForTransaction command =>
    exact (run_map_ok _ _ s).trans (hsubmit none _)
  | executeForTransactionWithEffects command =>
    exact (run_map_ok _ _ s).trans (hsubmit (some executor.effectsFormat) _)
  | executeCreate createCommand =>
    exact (run_map _ DamlSimpleExecutor.firstCreated _ s).trans (hsubmit none _)
  | executeExercise exerciseCommand =>
    exact (run_map _ DamlSimpleExecutor.firstResult _ s).trans
      (hsubmit (some executor.effectsFormat) _)

end Service

/-! ### What the setters amount to -/

namespace Setting

def actAs? : Setting T → Option (List String)
  | .actAs party => some [party]
  | .actAsAll parties => some parties
  | _ => none

def readAs? : Setting T → Option (List String)
  | .readAs party => some [party]
  | .readAsAll parties => some parties
  | _ => none

def workflowId? : Setting T → Option String
  | .workflowId id => some id
  | _ => none

def userId? : Setting T → Option String
  | .userId id => some id
  | _ => none

def deduplicationPeriod? : Setting T → Option DamlCommandsDeduplicationPeriod
  | .deduplicationPeriod period => some period
  | _ => none

def minLedgerTime? : Setting T → Option (DamlMinLedgerTime T)
  | .minLedgerTime time => some time
  | _ => none

def authToken? : Setting T → Option String
  | .authToken token => some token
  | _ => none

/-- What is set last. -/
def last {α : Type} (get : Setting T → Option α) (settings : List (Setting T)) : Option α :=
  (settings.filterMap get).getLast?

lemma last_concat {α : Type} (get : Setting T → Option α) (settings : List (Setting T))
    (x : Setting T) : last get (settings ++ [x]) = (get x).or (last get settings) := by
  rw [last, last, List.filterMap_append, List.getLast?_append]
  rcases hx : get x with _ | a <;> simp [hx]

end Setting

namespace DamlSimpleExecutorBuilder

/-- Of every setter the last call counts. -/
lemma foldl_set_new (client : DamlGrpcClient σ) (settings : List (Setting T)) :
    settings.foldl set (new client) = {
      ledgerClient := client
      actAs := Setting.last Setting.actAs? settings
      readAs := Setting.last Setting.readAs? settings
      workflowId := Setting.last Setting.workflowId? settings
      userId := Setting.last Setting.userId? settings
      deduplicationPeriod := Setting.last Setting.deduplicationPeriod? settings
      minLedgerTime := Setting.last Setting.minLedgerTime? settings
      authToken := Setting.last Setting.authToken? settings } := by
  induction settings using List.reverseRecOn with
  | nil => rfl
  | append_singleton settings x ih =>
    rw [List.foldl_append, ih, List.foldl_cons, List.foldl_nil]
    simp only [Setting.last_concat]
    cases x <;> rfl

lemma hasParties_iff (builder : DamlSimpleExecutorBuilder σ T) :
    builder.hasParties = true ↔ builder.actAs.getD [] ≠ [] ∨ builder.readAs.getD [] ≠ [] := by
  rw [hasParties]
  rcases builder.actAs with _ | actAs <;> rcases builder.readAs with _ | readAs <;> simp

end DamlSimpleExecutorBuilder

/-! ### What is sent -/

/-- The token of the requests. -/
def tokenOf (client : DamlGrpcClient σ) (settings : List (Setting T)) : Option String :=
  (Setting.last Setting.authToken? settings).or client.authToken

/-- What keeps no call from being sent: the durations fit, and the token is metadata. -/
structure Sendable (fromStr : String → Except String String) (client : DamlGrpcClient σ)
    (settings : List (Setting T)) : Prop where
  minLedgerTime : ∀ dur, Setting.last Setting.minLedgerTime? settings = some (.relative dur) →
    dur.secs.toNat < 2 ^ 63
  deduplicationPeriod : ∀ dur, Setting.last Setting.deduplicationPeriod? settings =
    some (.deduplicationDuration dur) → dur.secs.toNat < 2 ^ 63
  token : ∀ token ∈ tokenOf client settings, ∃ text, fromStr s!"Bearer {token}" = .ok text

/-- The format asks for the effects that any of the parties sees, and has a filter for each of them
that lets everything through. -/
structure AsksForEffects (parties : List String) (f : Proto.TransactionFormat) : Prop where
  eventFormat : ∃ e ∈ f.eventFormat, (AssocMap.keys e.filtersByParty).Nodup ∧
    (∀ p, p ∈ AssocMap.keys e.filtersByParty ↔ p ∈ parties) ∧
    (∀ filter ∈ e.filtersByParty, filter.2.cumulative = []) ∧ e.filtersForAnyParty = none ∧
    e.verbose = true
  transactionShape : f.transactionShape = 2

section Sent

variable [BigDecimal N] [NaiveDate D] [DateTime T]

/-- The request of a call: it has the command of the call and nothing else to do, under the
identifier that was drawn for it, for the parties, the user and the workflow that were set last. -/
structure Sent (fromStr : String → Except String String) (client : DamlGrpcClient σ)
    (settings : List (Setting T)) (call : String × Call N D T)
    (r : Request Proto.SubmitAndWaitForTransactionRequest) : Prop where
  commands : ∃ m ∈ r.payload.commands, m.commands = [call.2.command.toCommand] ∧
    m.commandId = call.1 ∧
    m.actAs = (Setting.last Setting.actAs? settings).getD [] ∧
    m.readAs = (Setting.last Setting.readAs? settings).getD [] ∧
    m.workflowId = (Setting.last Setting.workflowId? settings).getD "default-workflow" ∧
    m.userId = (Setting.last Setting.userId? settings).getD "default-user" ∧
    (Setting.last Setting.deduplicationPeriod? settings).mapM
      DamlCommandsDeduplicationPeriod.toDeduplicationPeriod = .ok m.deduplicationPeriod ∧
    DamlCommands.TimesSent (Setting.last Setting.minLedgerTime? settings) m
  authorization : Option.Rel (fun token text => fromStr s!"Bearer {token}" = .ok text)
    (tokenOf client settings) r.authorization
  format : match call.2 with
    | .executeForTransaction _ | .executeCreate _ => r.payload.transactionFormat = none
    | .executeForTransactionWithEffects _ | .executeExercise _ =>
      ∃ f ∈ r.payload.transactionFormat, AsksForEffects
        ((Setting.last Setting.actAs? settings).getD [] ++
          (Setting.last Setting.readAs? settings).getD []) f

/-- The executor that the settings build. -/
def executorOf (client : DamlGrpcClient σ) (settings : List (Setting T)) :
    DamlSimpleExecutor σ T where
  ledgerClient := client
  commandFactory := {
    workflowId := (Setting.last Setting.workflowId? settings).getD "default-workflow"
    userId := (Setting.last Setting.userId? settings).getD "default-user"
    actAs := (Setting.last Setting.actAs? settings).getD []
    readAs := (Setting.last Setting.readAs? settings).getD []
    deduplicationPeriod := Setting.last Setting.deduplicationPeriod? settings
    minLedgerTime := Setting.last Setting.minLedgerTime? settings }
  authToken := Setting.last Setting.authToken? settings

omit [BigDecimal N] [NaiveDate D] [DateTime T] in
lemma build_eq_ok_iff {client : DamlGrpcClient σ} {settings : List (Setting T)}
    {executor : DamlSimpleExecutor σ T} :
    (settings.foldl DamlSimpleExecutorBuilder.set (.new client)).build = .ok executor ↔
      ((Setting.last Setting.actAs? settings).getD [] ≠ [] ∨
        (Setting.last Setting.readAs? settings).getD [] ≠ []) ∧
        executor = executorOf client settings := by
  rw [DamlSimpleExecutorBuilder.build]
  split
  next h =>
    rw [DamlSimpleExecutorBuilder.hasParties_iff] at h
    rw [DamlSimpleExecutorBuilder.foldl_set_new] at h ⊢
    rw [Except.ok.injEq]
    exact ⟨fun he => ⟨h, he.symm⟩, fun he => he.2.symm⟩
  next h =>
    rw [DamlSimpleExecutorBuilder.hasParties_iff, DamlSimpleExecutorBuilder.foldl_set_new] at h
    simp [h]

omit [BigDecimal N] [NaiveDate D] [DateTime T] in
lemma authToken_executorOf (client : DamlGrpcClient σ) (settings : List (Setting T)) :
    (executorOf client settings).client.authToken = tokenOf client settings := by
  rw [DamlSimpleExecutor.client, executorOf, tokenOf]
  rcases Setting.last Setting.authToken? settings with _ | token <;> rfl

omit [BigDecimal N] [NaiveDate D] [DateTime T] in
lemma channel_executorOf (client : DamlGrpcClient σ) (settings : List (Setting T)) :
    (executorOf client settings).client.channel = client.channel := by
  rw [DamlSimpleExecutor.client, executorOf]
  rcases Setting.last Setting.authToken? settings with _ | token <;> rfl

omit [BigDecimal N] [NaiveDate D] [DateTime T] in
lemma asksForEffects_effectsFormat (executor : DamlSimpleExecutor σ T) :
    AsksForEffects (executor.actAs ++ executor.readAs)
      executor.effectsFormat.toTransactionFormat := by
  have hfilters : executor.effectsFormat.eventFormat.filtersByParty =
      AssocMap.ofList
        ((executor.actAs ++ executor.readAs).map fun p => (p, DamlFilters.mk [])) := by
    rw [AssocMap.ofList, List.foldl_map, List.foldl_append]
    rfl
  refine ⟨⟨_, rfl, ?_, fun p => ?_, fun filter hfilter => ?_, rfl, rfl⟩, rfl⟩
  · rw [DamlEventFormat.toEventFormat, AssocMap.keys_mapValues, hfilters]
    exact AssocMap.nodup_keys_ofList _
  · rw [DamlEventFormat.toEventFormat, AssocMap.keys_mapValues, hfilters, AssocMap.mem_keys_ofList]
    simp [AssocMap.keys]
  · simp only [DamlEventFormat.toEventFormat, AssocMap.mapValues, hfilters] at hfilter
    obtain ⟨⟨p, f⟩, hmem, rfl⟩ := List.mem_map.1 hfilter
    obtain ⟨_, -, heq⟩ := List.mem_map.1 (AssocMap.mem_of_mem_ofList hmem)
    cases heq
    rfl

variable (fromStr : String → Except String String)

omit [BigDecimal N] [NaiveDate D] [DateTime T] in
lemma lift_eq_ok {α : Type} {x : DamlResult α} {a : α} : x.lift = .ok a ↔ x = .ok a := by
  rcases x with e | b <;> simp

omit [BigDecimal N] [NaiveDate D] [DateTime T] in
lemma makeRequest_eq_ok {α : Type} {payload : α} {authToken : Option String} {r : Request α} :
    makeRequest fromStr payload authToken = .ok r ↔ r.payload = payload ∧
      Option.Rel (fun token text => fromStr s!"Bearer {token}" = .ok text) authToken
        r.authorization := by
  obtain ⟨rpayload, authorization⟩ := r
  rcases authToken with _ | token
  · rw [makeRequest, Except.ok.injEq]
    rcases authorization with _ | text <;> simp [eq_comm]
  · rw [makeRequest]
    rcases hstr : fromStr s!"Bearer {token}" with e | text
    · rcases authorization with _ | text <;> simp [hstr, Except.mapError, bind, Except.bind]
    · rcases authorization with _ | text' <;>
        simp [hstr, Except.mapError, bind, Except.bind, pure, Except.pure, eq_comm]

/-- The commands of a request. -/
lemma request_eq_ok {executor : DamlSimpleExecutor σ T} {call : String × Call N D T}
    {r : Request Proto.SubmitAndWaitForTransactionRequest} :
    Call.request fromStr executor call = .ok r ↔
      ∃ m, (executor.commandFactory.makeCommand call.1 call.2.command).toCommands = .ok m ∧
        r.payload = ⟨some m, (call.2.format executor).map
          DamlTransactionFormat.toTransactionFormat⟩ ∧
        Option.Rel (fun token text => fromStr s!"Bearer {token}" = .ok text)
          executor.client.authToken r.authorization := by
  simp only [Call.request, Except.bind_eq_ok, lift_eq_ok, makeRequest_eq_ok]

/-- Whether a call can be sent depends on the settings only. -/
lemma exists_request_iff [LeapDateTime T] {client : DamlGrpcClient σ} {settings : List (Setting T)}
    {call : String × Call N D T} :
    (∃ r, Call.request fromStr (executorOf client settings) call = .ok r) ↔
      Sendable fromStr client settings := by
  simp only [request_eq_ok, authToken_executorOf]
  constructor
  · rintro ⟨r, m, hm, -, htoken⟩
    obtain ⟨hmin, hdedup⟩ := DamlCommands.exists_toCommands_iff.1 ⟨m, hm⟩
    refine ⟨hmin, hdedup, fun token ht => ?_⟩
    rw [Option.mem_def] at ht
    rw [ht] at htoken
    rcases hauth : r.authorization with _ | text
    · rw [hauth] at htoken
      cases htoken
    · rw [hauth, Option.rel_some_some] at htoken
      exact ⟨text, htoken⟩
  · rintro ⟨hmin, hdedup, htoken⟩
    obtain ⟨m, hm⟩ := DamlCommands.exists_toCommands_iff (d :=
      (executorOf client settings).commandFactory.makeCommand call.1 call.2.command).2
        ⟨hmin, hdedup⟩
    rcases ht : tokenOf client settings with _ | token
    · exact ⟨⟨_, none⟩, m, hm, rfl, .none⟩
    · obtain ⟨text, htext⟩ := htoken token ht
      exact ⟨⟨_, some text⟩, m, hm, rfl, .some htext⟩

lemma sent_of_request {client : DamlGrpcClient σ} {settings : List (Setting T)}
    {call : String × Call N D T} {r : Request Proto.SubmitAndWaitForTransactionRequest}
    (h : Call.request fromStr (executorOf client settings) call = .ok r) :
    Sent fromStr client settings call r := by
  obtain ⟨m, hm, hpayload, htoken⟩ := (request_eq_ok fromStr).1 h
  rw [authToken_executorOf] at htoken
  obtain ⟨hcommands, htimes⟩ := DamlCommands.toCommands_ok hm
  obtain ⟨hid, hactAs, hreadAs, hworkflow, huser, hperiod⟩ := DamlCommands.fields_of_toCommands hm
  refine ⟨⟨m, by rw [hpayload]; rfl, hcommands, hid, hactAs, hreadAs, hworkflow, huser, hperiod,
    htimes⟩, htoken, ?_⟩
  obtain ⟨newV4, call⟩ := call
  cases call with
  | executeForTransaction _ => exact congrArg _ hpayload
  | executeCreate _ => exact congrArg _ hpayload
  | executeForTransactionWithEffects _ =>
    exact ⟨_, by rw [hpayload]; rfl, asksForEffects_effectsFormat (executorOf client settings)⟩
  | executeExercise _ =>
    exact ⟨_, by rw [hpayload]; rfl, asksForEffects_effectsFormat (executorOf client settings)⟩

/-- An executor is built exactly if there is a party that it acts or reads as.  Where the settings
allow it, the participant is given one request for each call of a session, in the order of the
calls, and every call reads the response to its own one.  Otherwise nothing is sent and every call
fails. -/
theorem session_of_build [LeapDateTime T] (client : DamlGrpcClient σ)
    (settings : List (Setting T)) :
    ((∃ executor,
        (settings.foldl DamlSimpleExecutorBuilder.set (.new client)).build = .ok executor) ↔
      (Setting.last Setting.actAs? settings).getD [] ≠ [] ∨
        (Setting.last Setting.readAs? settings).getD [] ≠ []) ∧
    ∀ executor, (settings.foldl DamlSimpleExecutorBuilder.set (.new client)).build = .ok executor →
      ∀ (calls : List (String × Call N D T)) (s : σ),
        let out := session (fun call => (call.2.run fromStr executor call.1).run) calls s
        (Sendable fromStr client settings →
          ∃ rs, List.Forall₂ (Sent fromStr client settings) calls rs ∧
            out = (List.zipWith Call.answer calls (serve client.channel rs s).1,
              (serve client.channel rs s).2)) ∧
        (¬ Sendable fromStr client settings → out.2 = s ∧ ∀ res ∈ out.1, ∃ e, res = .error e) := by
  refine ⟨⟨fun ⟨_, h⟩ => (build_eq_ok_iff.1 h).1, fun h => ⟨_, build_eq_ok_iff.2 ⟨h, rfl⟩⟩⟩, ?_⟩
  intro executor hbuild calls s
  obtain rfl := (build_eq_ok_iff.1 hbuild).2
  refine ⟨fun hsend => ?_, fun hsend => ?_⟩
  · obtain ⟨rs, hrs⟩ : ∃ rs, List.Forall₂
        (fun call r => Call.request fromStr (executorOf client settings) call = .ok r) calls rs :=
      List.exists_forall₂ fun _ _ => (exists_request_iff fromStr).2 hsend
    refine ⟨rs, hrs.imp fun _ _ => sent_of_request fromStr, ?_⟩
    rw [← channel_executorOf client settings]
    exact Exchange.session_of_sent (run_eq_exchange fromStr _) hrs s
  · have hunsent : ∀ call ∈ calls,
        ∃ e, Call.request fromStr (executorOf client settings) call = .error e :=
      fun _ _ => Except.exists_error_iff.2 (mt (exists_request_iff fromStr).1 hsend)
    obtain ⟨hstate, hall⟩ :=
      Exchange.session_of_unsent (run_eq_exchange fromStr (executorOf client settings)) hunsent s
    refine ⟨hstate, fun res hres => ?_⟩
    obtain ⟨call, -, e, -, rfl⟩ := hall.exists_left hres
    exact ⟨e, rfl⟩

end Sent

/-- A participant that is down counts the requests, of which there is one for each call. -/
theorem session_of_build_down :
    let client : DamlGrpcClient Nat := ⟨none, fun _ n => (.error ⟨.unavailable, "down"⟩, n + 1)⟩
    let settings : List (Setting UtcInstant) := [.actAs "alice", .readAsAll ["bob"], .actAs "carol"]
    let calls : List (String × Call Int GregorianDay UtcInstant) :=
      [("c-1", .executeCreate ⟨⟨"pkg", "Oracle", "Rate"⟩, ⟨none, []⟩⟩),
        ("c-2", .executeExercise ⟨⟨"pkg", "Oracle", "Rate"⟩, "00ab", "Archive", .unit⟩)]
    ∃ executor rs, (settings.foldl DamlSimpleExecutorBuilder.set (.new client)).build =
      .ok executor ∧ List.Forall₂ (Sent .ok client settings) calls rs ∧
        (session (fun call => (call.2.run .ok executor call.1).run) calls 0).2 = 2 := by
  intro client settings calls
  obtain ⟨hbuild, hsession⟩ :=
    session_of_build (N := Int) (D := GregorianDay) (T := UtcInstant) .ok client settings
  obtain ⟨executor, hexecutor⟩ := hbuild.2 (.inl (List.cons_ne_nil "carol" []))
  have hsend : Sendable .ok client settings := by
    refine ⟨fun dur hdur => ?_, fun dur hdur => ?_, fun token htoken => ⟨_, rfl⟩⟩
    · rw [show Setting.last Setting.minLedgerTime? settings = none from rfl] at hdur
      cases hdur
    · rw [show Setting.last Setting.deduplicationPeriod? settings = none from rfl] at hdur
      cases hdur
  obtain ⟨rs, hrs, hout⟩ := (hsession executor hexecutor calls 0).1 hsend
  refine ⟨executor, rs, hexecutor, hrs, ?_⟩
  have hlen : rs.length = 2 := hrs.length_eq.symm
  obtain ⟨r, r', rfl⟩ := List.length_eq_two.1 hlen
  rw [hout]
  rfl

end DamlBindings.Grpc
