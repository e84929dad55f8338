import DamlBindings.Grpc.Executor
import DamlBindings.Grpc.TypedWire

/-!
# Typed contracts

A generated template has a method for the command that creates it and one for every choice, and its
contracts are read from the events of the ledger.  Through the executor a contract comes back with
the data it was created with exactly if the timestamps in the data survive the wire, as long as the
participant keeps the arguments it is sent.
-/

namespace DamlBindings.Grpc

open Exchange (session)

variable {N D T σ ι : Type}

/-! ### Generated templates -/

section Generated

variable [Ord N] [Ord D] [Ord T] (Γ : TypeEnv ι)

/-- `create_command`; `none` stands for its panic. -/
def createCommand (templateId : DamlIdentifier) (t : RustTy ι) (data : RustValue N D T) :
    Option (DamlCreateCommand N D T) := do
  let value ← serialize Γ t data
  let record ← value.tryRecord.toOption
  return ⟨templateId, record⟩

/-- The method of a choice, which takes an argument of a generated type. -/
def choiceCommand (templateId : DamlIdentifier) (id : DamlContractId) (choice : String)
    (t : RustTy ι) (arg : RustValue N D T) : Option (DamlExerciseCommand N D T) := do
  let params ← serialize Γ t arg
  return ⟨templateId, id.contractId, choice, params⟩

/-- The struct `FooContract`, whose identifier is a `FooContractId`. -/
structure Contract (N D T : Type) where
  id : DamlContractId
  data : RustValue N D T

/-- `TryFrom<DamlCreatedEvent> for FooContract` -/
def Contract.tryFrom (t : RustTy ι) (event : DamlCreatedEvent N D T) :
    DamlResult (Contract N D T) := do
  let data ← deserialize Γ t (.record event.createArguments)
  return ⟨⟨event.contractId⟩, data⟩

end Generated

/-! ### What a participant keeps -/

section Keeps

variable (N D T) [BigDecimal N] [NaiveDate D] [DateTime T]

/-- Two values on the wire say the same: they decode to equal values, or neither of them decodes. -/
structure SameOnWire (m m' : Proto.Value) : Prop where
  left : ∀ v : DamlValue N D T, DamlValue.tryFrom m = .ok v →
    ∃ v', DamlValue.tryFrom m' = .ok v' ∧ v.beq v'
  right : ∀ v' : DamlValue N D T, DamlValue.tryFrom m' = .ok v' →
    ∃ v, DamlValue.tryFrom m = .ok v ∧ v.beq v'

/-- Where the participant answers a create command with a created event, this has the arguments of
the command. -/
def KeepsArguments (p : Participant σ) : Prop :=
  ∀ r s m c response tx e rest, r.payload.commands = some m → m.commands = [.create c] →
    (p r s).1 = .ok response → response.transaction = some tx →
    tx.events = .created e :: rest →
      ∀ args ∈ c.createArguments, ∃ args' ∈ e.createArguments,
        SameOnWire N D T (.record args) (.record args')

end Keeps

/-! ### Created contracts -/

section Created

variable [BigDecimal N] [NaiveDate D] [DateTime T]

/-- What the executor reads in the response to a create command. -/
lemma answer_executeCreate_eq_ok {id : String} {c : DamlCreateCommand N D T}
    {resp : Except Status Proto.SubmitAndWaitForTransactionResponse}
    {event : DamlCreatedEvent N D T}
    (h : Call.answer (id, .executeCreate c) resp = .ok (.createdEvent event)) :
    ∃ response tx e rest, resp = .ok response ∧ response.transaction = some tx ∧
      tx.events = .created e :: rest ∧ e.contractId = event.contractId ∧
        ∃ args ∈ e.createArguments, DamlRecord.tryFrom args = .ok event.createArguments := by
  simp only [Call.answer, Call.read, Except.bind_eq_ok, lift_eq_ok, req_eq_ok,
    Except.map_eq_ok] at h
  obtain ⟨response, hresp, m, hm, tx, htx, event', hfirst, heq⟩ := h
  cases heq
  have hresp' : resp = .ok response := by
    rcases resp with e | response'
    · cases hresp
    · cases hresp
      rfl
  have hevents := events_of_tryFrom htx
  rw [DamlSimpleExecutor.firstCreated] at hfirst
  rcases htail : tx.events with _ | ⟨d, ds⟩
  · simp only [htail] at hfirst
    cases hfirst
  · simp only [htail, lift_eq_ok] at hfirst hevents
    cases d with
    | created d =>
      cases hfirst
      obtain ⟨e, rest, hevent, -, hes⟩ := List.forall₂_cons_right_iff.1 hevents
      cases hevent with
      | created h =>
        exact ⟨response, m, _, rest, hresp', hm, hes, h.contractId.symm, h.createArguments⟩
    | archived d => cases hfirst
    | exercised d => cases hfirst

/-- The arguments in the request of a create command, and those in the event that it is answered
with. -/
lemma sameOnWire_of_executeCreate {fromStr : String → Except String String}
    {executor : DamlSimpleExecutor σ T} (hp : KeepsArguments N D T executor.client.channel)
    {id : String} {c : DamlCreateCommand N D T} {s : σ} {event : DamlCreatedEvent N D T}
    {r : Request Proto.SubmitAndWaitForTransactionRequest}
    (hr : Call.request fromStr executor (id, .executeCreate c) = .ok r)
    (h : Call.answer (id, .executeCreate c) (executor.client.channel r s).1 =
      .ok (.createdEvent event)) :
    ∃ args', SameOnWire N D T (DamlValue.record c.createArguments).toValue args' ∧
      DamlValue.tryFrom args' = .ok (.record event.createArguments) := by
  obtain ⟨m, hm, hpayload, -⟩ := (request_eq_ok fromStr).1 hr
  obtain ⟨response, tx, e, rest, hresp, htx, hevents, -, args', hargs', hdecode⟩ :=
    answer_executeCreate_eq_ok h
  obtain ⟨args'', hargs'', hsame⟩ := hp r s m _ response tx e rest (by rw [hpayload])
    (DamlCommands.toCommands_ok hm).1 hresp htx hevents _ rfl
  obtain rfl : args' = args'' := Option.mem_unique hargs' hargs''
  exact ⟨.record args', DamlRecord.toValue_eq c.createArguments ▸ hsame,
    DamlRecord.tryFrom_eq_ok.1 hdecode⟩

/-- What the executor reads in the response to an exercise command: the result of the first
exercised event that has one. -/
lemma answer_executeExercise_eq_ok {id : String} {c : DamlExerciseCommand N D T}
    {resp : Except Status Proto.SubmitAndWaitForTransactionResponse} {v : DamlValue N D T}
    (h : Call.answer (id, .executeExercise c) resp = .ok (.value v)) :
    ∃ response tx before e after, resp = .ok response ∧ response.transaction = some tx ∧
      tx.events = before ++ .exercised e :: after ∧
        (∃ m ∈ e.exerciseResult, DamlValue.tryFrom m = .ok v) ∧
          ∀ e', .exercised e' ∈ before → e'.exerciseResult = none := by
  simp only [Call.answer, Call.read, Except.bind_eq_ok, lift_eq_ok, req_eq_ok,
    Except.map_eq_ok] at h
  obtain ⟨response, hresp, m, hm, tx, htx, v', hfirst, heq⟩ := h
  cases heq
  have hresp' : resp = .ok response := by
    rcases resp with e | response'
    · cases hresp
    · cases hresp
      rfl
  rw [DamlSimpleExecutor.firstResult, lift_eq_ok, req_eq_ok] at hfirst
  obtain ⟨before, d, after, hds, hd, hbefore⟩ := List.findSome?_eq_some_iff.1 hfirst
  have hevents := (events_of_tryFrom htx).flip
  rw [hds] at hevents
  obtain ⟨before', e, after', hes, hpre, hevent, -⟩ := hevents.exists_append_cons
  cases d with
  | exercised d =>
    cases hevent with
    | @exercised e _ h =>
      have hresult := h.exerciseResult
      refine ⟨response, m, before', e, after', hresp', hm, hes, ?_, fun e' he' => ?_⟩
      · have hd' : d.exerciseResult = some v := hd
        rw [hd'] at hresult
        rcases hm' : e.exerciseResult with _ | m'
        · rw [hm'] at hresult
          cases hresult
        · rw [hm', Option.rel_some_some] at hresult
          exact ⟨m', rfl, hresult⟩
      · obtain ⟨d', hd', hevent'⟩ := hpre.exists_left he'
        cases hevent' with
        | @exercised _ d' h' =>
          have hresult' := h'.exerciseResult
          have hnone : d'.exerciseResult = none := hbefore _ hd'
          rw [hnone] at hresult'
          rcases hm' : e'.exerciseResult with _ | m'
          · rfl
          · rw [hm'] at hresult'
            cases hresult'
  | created d => cases hd
  | archived d => cases hd

/-- A call that succeeds is one exchange. -/
lemma exists_exchange {fromStr : String → Except String String}
    {executor : DamlSimpleExecutor σ T} {id : String} {call : Call N D T} {s s' : σ}
    {answer : Answer N D T} (h : (call.run fromStr executor id).run s = (.ok answer, s')) :
    ∃ r, Call.request fromStr executor (id, call) = .ok r ∧
      Call.answer (id, call) (executor.client.channel r s).1 = .ok answer ∧
        (executor.client.channel r s).2 = s' := by
  rw [run_eq_exchange fromStr executor (id, call), Exchange.exchange] at h
  rcases hr : Call.request fromStr executor (id, call) with e | r
  · rw [hr] at h
    cases h
  · rw [hr] at h
    exact ⟨r, rfl, congrArg Prod.fst h, congrArg Prod.snd h⟩

end Created

/-! ### Records of typed values -/

section Typed

variable [BigDecimal N] [NaiveDate D] [DateTime T] [LawfulBigDecimal N] [LawfulNaiveDate D]
  [LawfulDateTime T] {Γ : TypeEnv ι}

lemma SameOnWire.refl (m : Proto.Value) : SameOnWire N D T m m := by
  have hbeq : ∀ v : DamlValue N D T, DamlValue.tryFrom m = .ok v → v.beq v := by
    intro v hv
    have hval := DamlValue.valid_of_tryFrom hv
    exact (DamlValue.cmp_eq_eq_iff hval hval).1 Std.ReflCmp.compare_self
  exact ⟨fun v hv => ⟨v, hv, hbeq v hv⟩, fun v hv => ⟨v, hv, hbeq v hv⟩⟩

lemma DamlValue.beq_trans {a b c : DamlValue N D T} (ha : a.Valid) (hb : b.Valid) (hc : c.Valid)
    (hab : a.beq b) (hbc : b.beq c) : a.beq c := by
  rw [← cmp_eq_eq_iff ha hc]
  exact Std.TransCmp.eq_trans ((cmp_eq_eq_iff ha hb).2 hab) ((cmp_eq_eq_iff hb hc).2 hbc)

/-- The data of a template is serialised to a record, so that its create command can be made. -/
lemma HasTy.exists_createCommand {data : RustValue N D T} {n : ι} {fs : List (String × RustTy ι)}
    (h : HasTy Γ data (.user n [])) (hn : Γ n = some (.record fs)) (hΓ : NamedFields Γ)
    (templateId : DamlIdentifier) :
    ∃ r, createCommand Γ templateId (.user n []) data = some ⟨templateId, r⟩ ∧
      serialize Γ (.user n []) data = some (.record r) := by
  obtain ⟨w, hw, -⟩ := h.exists_serialize hΓ
  have hrecord : ∃ r, w = .record r := by
    cases h with
    | record hn' _ _ =>
      rw [serialize, hn'] at hw
      obtain ⟨gs, -, rfl⟩ := Option.map_eq_some_iff.1 hw
      exact ⟨_, rfl⟩
    | unitVariant hn' _ _ => cases hn.symm.trans hn'
    | variant hn' _ _ _ => cases hn.symm.trans hn'
    | enum hn' _ => cases hn.symm.trans hn'
  obtain ⟨r, rfl⟩ := hrecord
  exact ⟨r, by rw [createCommand, hw]; rfl, hw⟩

/-- What is read where a typed value was sent and something that says the same came back. -/
lemma exists_deserialize_eq_iff {data : RustValue N D T} {t : RustTy ι} (h : HasTy Γ data t)
    (hΓ : NamedFields Γ) {w w' : DamlValue N D T} {m' : Proto.Value}
    (hw : serialize Γ t data = some w) (hsame : SameOnWire N D T w.toValue m')
    (hw' : DamlValue.tryFrom m' = .ok w') :
    (∃ data', deserialize Γ t w' = .ok data' ∧ RustValue.partialCmp data data' = some .eq) ↔
      ∀ s ∈ data.timestamps, ExactOnWire s := by
  obtain ⟨w₀, hw₀, hval, hlabels, hperm⟩ := h.exists_serialize hΓ
  obtain rfl : w₀ = w := Option.some_injective _ (hw₀.symm.trans hw)
  obtain ⟨u, hsent, hbeq'⟩ := hsame.right w' hw'
  have hvalu := DamlValue.valid_of_tryFrom hsent
  have hval' := DamlValue.valid_of_tryFrom hw'
  constructor
  · rintro ⟨data', hread, hcmp⟩
    -- no timestamp gets lighter on the way, so all of them keep their weight
    have hreceived := (reads_of_deserialize hread).timestamps_subperm.sum_map_le wireDistance
    have hdata := ((RustValue.timestamps_perm_of_partialCmp hcmp).map wireDistance).sum_eq
    have hserialized := (hperm.map wireDistance).sum_eq
    have hweight := DamlValue.wireWeight_eq_of_beq hvalu hbeq'
    obtain ⟨hle, hkeep⟩ := DamlValue.wireWeight_tryFrom hval hsent
    have heq : u.wireWeight = w₀.wireWeight := by
      simp only [DamlValue.wireWeight] at hle hweight ⊢
      omega
    exact fun s hs => hkeep heq s (hperm.mem_iff.2 hs)
  · intro hexact
    obtain ⟨u', hu', hbeq, -⟩ := DamlValue.tryFrom_toValue_of_exact _ hval hlabels
      fun s hs => hexact s (hperm.mem_iff.1 hs)
    obtain rfl : u' = u := Except.ok.inj (hu'.symm.trans hsent)
    refine tolerates h _ _ hw₀ ((DamlValue.partialCmp_eq_some_eq hval hval').2 ?_) hval'
    exact DamlValue.beq_trans hval hvalu hval' hbeq hbeq'

variable (fromStr : String → Except String String)

/-- The call that creates a contract from the data of a template, if its command can be made. -/
def createCall (Γ : TypeEnv ι) (templateId : DamlIdentifier) (t : RustTy ι)
    (contract : String × RustValue N D T) : Option (String × Call N D T) :=
  (createCommand Γ templateId t contract.2).map fun c => (contract.1, .executeCreate c)

/-- Contracts are created one after the other through the executor, with whatever participant that
keeps the arguments of a create command.  Every create command can be made.  A contract that is read
from the event of its creation has the data that it was created with exactly if every timestamp in
the data, at any depth, survives the wire; whatever a contract is read with is well-typed. -/
theorem created_contract_eq_iff {n : ι} {fs : List (String × RustTy ι)}
    (hn : Γ n = some (.record fs)) (hΓ : NamedFields Γ) (templateId : DamlIdentifier)
    (executor : DamlSimpleExecutor σ T) (hp : KeepsArguments N D T executor.client.channel)
    (contracts : List (String × RustValue N D T))
    (hdata : ∀ c ∈ contracts, HasTy Γ c.2 (.user n [])) (s : σ) :
    ∃ calls, List.Forall₂ (fun c call => createCall Γ templateId (.user n []) c = some call)
        contracts calls ∧
      List.Forall₂ (fun c out => ∀ event, out = .ok (Answer.createdEvent event) →
          ((∃ contract, Contract.tryFrom Γ (.user n []) event = .ok contract ∧
              RustValue.partialCmp c.2 contract.data = some .eq) ↔
            ∀ ts ∈ c.2.timestamps, ExactOnWire ts) ∧
          ∀ contract, Contract.tryFrom Γ (.user n []) event = .ok contract →
            contract.id = ⟨event.contractId⟩ ∧ HasTy Γ contract.data (.user n []))
        contracts (session (fun call => (call.2.run fromStr executor call.1).run) calls s).1 := by
  obtain ⟨calls, hcalls⟩ : ∃ calls, List.Forall₂ (fun c call =>
      ∃ r, createCommand Γ templateId (.user n []) c.2 = some ⟨templateId, r⟩ ∧
        serialize Γ (.user n []) c.2 = some (.record r) ∧
          call = (c.1, Call.executeCreate ⟨templateId, r⟩)) contracts calls := by
    refine List.exists_forall₂ fun c hc => ?_
    obtain ⟨r, hr, hser⟩ := (hdata c hc).exists_createCommand hn hΓ templateId
    exact ⟨_, r, hr, hser, rfl⟩
  refine ⟨calls, hcalls.imp fun c call => ?_, ?_⟩
  · rintro ⟨r, hr, -, rfl⟩
    rw [createCall, hr]
    rfl
  · refine hcalls.trans_of_mem
      (Exchange.session_results (run_eq_exchange fromStr executor) calls s) ?_
    rintro c hc _ out ⟨r, -, hser, rfl⟩ hout event rfl
    obtain ⟨e, -, he⟩ | ⟨req, s', hreq, hanswer⟩ := hout
    · cases he
    · obtain ⟨args', hsame, hdecode⟩ := sameOnWire_of_executeCreate hp hreq hanswer.symm
      have hcontract : ∀ contract, Contract.tryFrom Γ (.user n []) event = .ok contract ↔
          ∃ data, deserialize Γ (.user n []) (.record event.createArguments) = .ok data ∧
            ⟨⟨event.contractId⟩, data⟩ = contract := by
        intro contract
        rw [Contract.tryFrom, Except.bind_eq_ok]
        simp only [Except.pure_eq_ok]
      refine ⟨?_, fun contract hread => ?_⟩
      · rw [← exists_deserialize_eq_iff (hdata c hc) hΓ hser hsame hdecode]
        constructor
        · rintro ⟨contract, hread, hcmp⟩
          obtain ⟨data, hdata, rfl⟩ := (hcontract contract).1 hread
          exact ⟨data, hdata, hcmp⟩
        · rintro ⟨data, hread, hcmp⟩
          exact ⟨_, (hcontract _).2 ⟨data, hread, rfl⟩, hcmp⟩
      · obtain ⟨data, hdata, rfl⟩ := (hcontract contract).1 hread
        exact ⟨rfl, (reads_of_deserialize hdata).hasTy⟩

/-- What is read of the argument of a choice. -/
lemma exists_read_arg_iff {arg : RustValue N D T} {t : RustTy ι} (h : HasTy Γ arg t)
    (hΓ : NamedFields Γ) {w : DamlValue N D T} (hw : serialize Γ t arg = some w) :
    (∃ w' arg', DamlValue.tryFrom w.toValue = .ok w' ∧ deserialize Γ t w' = .ok arg' ∧
      RustValue.partialCmp arg arg' = some .eq) ↔ ∀ ts ∈ arg.timestamps, ExactOnWire ts := by
  constructor
  · rintro ⟨w', arg', hw', hread, hcmp⟩
    exact (exists_deserialize_eq_iff h hΓ hw (.refl _) hw').1 ⟨arg', hread, hcmp⟩
  · intro hexact
    obtain ⟨w₀, hw₀, hval, hlabels, hperm⟩ := h.exists_serialize hΓ
    obtain rfl : w₀ = w := Option.some_injective _ (hw₀.symm.trans hw)
    obtain ⟨w', hw', -⟩ := DamlValue.tryFrom_toValue_of_exact _ hval hlabels
      fun s hs => hexact s (hperm.mem_iff.1 hs)
    obtain ⟨arg', hread, hcmp⟩ := (exists_deserialize_eq_iff h hΓ hw (.refl _) hw').2 hexact
    exact ⟨w', arg', hw', hread, hcmp⟩

/-- A contract is created, read, and a choice of it exercised.  The participant is given two
requests, the second in the state that the first one left.  The second one exercises the choice on
the contract that the participant said it created, and its argument reads as an equal one exactly if
every timestamp in the argument survives the wire.  The value that is returned is the first result
among the exercised events. -/
theorem exercised_on_created (hΓ : NamedFields Γ) (templateId : DamlIdentifier)
    {executor : DamlSimpleExecutor σ T} {t t' : RustTy ι} {arg : RustValue N D T}
    (harg : HasTy Γ arg t') {id id' choice : String} {create : DamlCreateCommand N D T}
    {event : DamlCreatedEvent N D T} {contract : Contract N D T} {s s₁ s₂ : σ}
    (hcreate : ((Call.executeCreate create).run fromStr executor id).run s =
      (.ok (.createdEvent event), s₁))
    (hcontract : Contract.tryFrom Γ t event = .ok contract) {exercise : DamlExerciseCommand N D T}
    (hexercise : choiceCommand Γ templateId contract.id choice t' arg = some exercise)
    {v : DamlValue N D T}
    (hrun : ((Call.executeExercise exercise).run fromStr executor id').run s₁ =
      (.ok (.value v), s₂)) :
    ∃ r₁ r₂ resp₁ resp₂ tx₁ tx₂, executor.client.channel r₁ s = (.ok resp₁, s₁) ∧
      executor.client.channel r₂ s₁ = (.ok resp₂, s₂) ∧
      resp₁.transaction = some tx₁ ∧ resp₂.transaction = some tx₂ ∧
      (∃ e rest m param, tx₁.events = .created e :: rest ∧ r₂.payload.commands = some m ∧
        m.commands =
          [.exercise ⟨some templateId.toIdentifier, e.contractId, choice, some param⟩] ∧
        ((∃ w arg', DamlValue.tryFrom param = .ok w ∧ deserialize Γ t' w = .ok arg' ∧
            RustValue.partialCmp arg arg' = some .eq) ↔ ∀ ts ∈ arg.timestamps, ExactOnWire ts)) ∧
      ∃ before e after, tx₂.events = before ++ .exercised e :: after ∧
        (∃ m ∈ e.exerciseResult, DamlValue.tryFrom m = .ok v) ∧
          ∀ e', .exercised e' ∈ before → e'.exerciseResult = none := by
  obtain ⟨r₁, -, hanswer₁, rfl⟩ := exists_exchange hcreate
  obtain ⟨r₂, hr₂, hanswer₂, rfl⟩ := exists_exchange hrun
  obtain ⟨resp₁, tx₁, e, rest, hresp₁, htx₁, hevents₁, hid, -⟩ :=
    answer_executeCreate_eq_ok hanswer₁
  obtain ⟨resp₂, tx₂, before, e₂, after, hresp₂, htx₂, hevents₂, hresult, hbefore⟩ :=
    answer_executeExercise_eq_ok hanswer₂
  obtain ⟨w, hw, hcommand⟩ := Option.bind_eq_some_iff.1 hexercise
  cases hcommand
  obtain ⟨m, hm, hpayload, -⟩ := (request_eq_ok fromStr).1 hr₂
  obtain ⟨data, -, hdata⟩ := Except.bind_eq_ok.1 hcontract
  cases hdata
  refine ⟨r₁, r₂, resp₁, resp₂, tx₁, tx₂, Prod.ext hresp₁ rfl, Prod.ext hresp₂ rfl, htx₁, htx₂,
    ⟨e, rest, m, w.toValue, hevents₁, by rw [hpayload], ?_, exists_read_arg_iff harg hΓ hw⟩,
    before, e₂, after, hevents₂, hresult, hbefore⟩
  rw [(DamlCommands.toCommands_ok hm).1, hid]
  rfl

end Typed

/-- The events that a participant answers a command with which it has not looked into. -/
def eventsOf : Proto.Command → List Proto.Event
  | .create c => [.created {
      offset := 7
      nodeId := 0
      contractId := "00ab"
      templateId := c.templateId
      contractKey := none
      contractKeyHash := []
      createArguments := c.createArguments
      createdEventBlob := []
      interfaceViews := []
      witnessParties := []
      signatories := []
      observers := []
      createdAt := some ⟨0, 0⟩
      packageName := ""
      acsDelta := true
      representativePackageId := "" }]
  | .exercise c => [.exercised {
      offset := 8
      nodeId := 0
      contractId := c.contractId
      templateId := c.templateId
      interfaceId := none
      choice := c.choice
      choiceArgument := c.choiceArgument
      actingParties := []
      consuming := true
      witnessParties := []
      lastDescendantNodeId := 0
      exerciseResult := some .unit
      packageName := ""
      implementedInterfaces := []
      acsDelta := true }]
  | _ => []

/-- A participant that accepts every command and counts the requests. -/
def accepting : Participant Nat := fun r n =>
  (.ok ⟨some { Proto.Transaction.ofPublished with
    events := ((r.payload.commands.map Proto.Commands.commands).getD []).flatMap eventsOf }⟩, n + 1)

lemma keepsArguments_accepting : KeepsArguments Int GregorianDay UtcInstant accepting := by
  rintro r s m c response tx e rest hm hc hresp htx hevents args hargs
  cases hresp
  cases htx
  rw [hm, Option.map_some, Option.getD_some, hc] at hevents
  cases hevents
  exact ⟨args, hargs, .refl _⟩

/-- A reading from the last microsecond before the epoch is the data of the contract that it
creates. -/
theorem created_contract_reading :
    let Γ : TypeEnv String := fun n =>
      if n = "Reading" then
        some (.record [("at", .prim .timestamp), ("final", .prim .bool)])
      else none
    let v : RustValue Int GregorianDay UtcInstant :=
      .record [.prim (.timestamp ⟨-1, 999999000, by decide⟩), .prim (.bool true)]
    let executor : DamlSimpleExecutor Nat UtcInstant :=
      ⟨⟨none, accepting⟩, ⟨"", "user", ["alice"], [], none, none⟩, none⟩
    ∃ call event contract,
      createCall Γ ⟨"pkg", "Main", "Reading"⟩ (.user "Reading" []) ("c-1", v) = some call ∧
        (session (fun call => (call.2.run .ok executor call.1).run) [call] 0).1 =
          [.ok (Answer.createdEvent event)] ∧
        Contract.tryFrom Γ (.user "Reading" []) event = .ok contract ∧
          RustValue.partialCmp v contract.data = some .eq := by
  intro Γ v executor
  have hreading : HasTy Γ v (.user "Reading" []) := .record rfl rfl (by
    simp only [List.zip_cons_cons, List.zip_nil_right, List.forall_mem_cons]
    exact ⟨.prim trivial, .prim trivial, by simp⟩)
  have hnamed : NamedFields Γ := by
    intro n fs hn
    obtain ⟨-, rfl⟩ : n = "Reading" ∧ _ = fs := by simpa [Γ] using hn
    simp
  obtain ⟨calls, hcalls, houts⟩ := created_contract_eq_iff .ok (n := "Reading") rfl hnamed
    ⟨"pkg", "Main", "Reading"⟩ executor keepsArguments_accepting [("c-1", v)]
    (List.forall_mem_singleton.2 hreading) 0
  obtain ⟨call, rest, hcall, hrest, rfl⟩ := List.forall₂_cons_left_iff.1 hcalls
  cases hrest
  let call' : String × Call Int GregorianDay UtcInstant :=
    ("c-1", .executeCreate ⟨⟨"pkg", "Main", "Reading"⟩, ⟨none,
      [⟨some "at", .timestamp ⟨-1, 999999000, by decide⟩⟩, ⟨some "final", .bool true⟩]⟩⟩)
  have hcreate : createCall Γ ⟨"pkg", "Main", "Reading"⟩ (.user "Reading" []) ("c-1", v) =
    some call' := rfl
  obtain rfl : call = call' := Option.some_injective _ (hcall.symm.trans hcreate)
  obtain ⟨event, hevent⟩ : ∃ event,
      (session (fun call => (call.2.run .ok executor call.1).run) [call'] 0).1 =
        [.ok (Answer.createdEvent event)] := ⟨_, rfl⟩
  rw [hevent] at houts
  obtain ⟨contract, hcontract, hcmp⟩ :=
    ((List.forall₂_cons.1 houts).1 event rfl).1.2 (by decide)
  exact ⟨_, event, contract, hcreate, hevent, hcontract, hcmp⟩

/-- A choice that takes a moment is exercised on a reading that was just created. -/
theorem exercised_on_created_reading :
    let Γ : TypeEnv String := fun n =>
      if n = "Reading" then some (.record []) else none
    let arg : RustValue Int GregorianDay UtcInstant :=
      .prim (.timestamp ⟨-1, 999999000, by decide⟩)
    let executor : DamlSimpleExecutor Nat UtcInstant :=
      ⟨⟨none, accepting⟩, ⟨"", "user", ["alice"], [], none, none⟩, none⟩
    let create : DamlCreateCommand Int GregorianDay UtcInstant :=
      ⟨⟨"pkg", "Main", "Reading"⟩, ⟨none, []⟩⟩
    ∃ (event : DamlCreatedEvent Int GregorianDay UtcInstant) (contract : Contract _ _ _)
      (exercise : DamlExerciseCommand _ _ _) (v : DamlValue _ _ _) (m : Proto.Commands)
      (param : Proto.Value) (w : DamlValue _ _ _) (arg' : RustValue _ _ _) (id : String),
      ((Call.executeCreate create).run .ok executor "c-1").run 0 = (.ok (.createdEvent event), 1) ∧
      Contract.tryFrom Γ (.user "Reading" []) event = .ok contract ∧
      choiceCommand Γ ⟨"pkg", "Main", "Reading"⟩ contract.id "Replace" (.prim .timestamp) arg =
        some exercise ∧
      ((Call.executeExercise exercise).run .ok executor "c-2").run 1 = (.ok (.value v), 2) ∧
      m.commands = [.exercise ⟨some ⟨"pkg", "Main", "Reading"⟩, id, "Replace", some param⟩] ∧
      DamlValue.tryFrom param = .ok w ∧ deserialize Γ (.prim .timestamp) w = .ok arg' ∧
        RustValue.partialCmp arg arg' = some .eq := by
  intro Γ arg executor create
  have hnamed : NamedFields Γ := by
    intro n fs hn
    obtain ⟨-, rfl⟩ : n = "Reading" ∧ [] = fs := by simpa [Γ] using hn
    simp
  obtain ⟨event, hcreate⟩ : ∃ event,
      ((Call.executeCreate create).run .ok executor "c-1").run 0 =
        (.ok (Answer.createdEvent event), 1) := ⟨_, rfl⟩
  let contract : Contract Int GregorianDay UtcInstant := ⟨⟨event.contractId⟩, .record []⟩
  have hcontract : Contract.tryFrom Γ (.user "Reading" []) event = .ok contract := by
    rw [Contract.tryFrom, deserialize]
    rfl
  let exercise : DamlExerciseCommand Int GregorianDay UtcInstant :=
    ⟨⟨"pkg", "Main", "Reading"⟩, event.contractId, "Replace",
      .timestamp ⟨-1, 999999000, by decide⟩⟩
  have hexercise : choiceCommand Γ ⟨"pkg", "Main", "Reading"⟩ contract.id "Replace"
    (.prim .timestamp) arg = some exercise := rfl
  obtain ⟨v, hrun⟩ : ∃ v, ((Call.executeExercise exercise).run .ok executor "c-2").run 1 =
      (.ok (Answer.value v), 2) := ⟨_, rfl⟩
  have harg : HasTy Γ arg (.prim .timestamp) := .prim trivial
  obtain ⟨-, -, -, -, -, -, -, -, -, -, ⟨e, -, m, param, -, -, hm, hread⟩, -⟩ :=
    exercised_on_created .ok hnamed ⟨"pkg", "Main", "Reading"⟩ harg hcreate hcontract hexercise hrun
  obtain ⟨w, arg', hw, harg', hcmp⟩ := hread.2 (by decide)
  exact ⟨event, contract, exercise, v, m, param, w, arg', e.contractId, hcreate, hcontract,
    hexercise, hrun, hm, hw, harg', hcmp⟩

end DamlBindings.Grpc
