import DamlBindings.Grpc.TotalOrder
import DamlBindings.Grpc.Wire
import DamlBindings.Lib.Result

/-!
# Which wire values decode

A wire value decodes exactly when everything the decoder asks for is there at every depth: the
sum, the values of fields, variants and map entries, parsing decimals, and dates and timestamps
in range.  A map whose keys are all different is decoded without losing an entry.
-/

namespace DamlBindings.Grpc

/-! ### Dates and times in range -/

/-- `chrono` answers with a date only for the day number of that date. -/
class ExactNaiveDate (D : Type) [NaiveDate D] : Prop where
  numDaysFromCe_of_eq_some {n : Int32} {d : D} :
    NaiveDate.fromNumDaysFromCeOpt n = some d → NaiveDate.numDaysFromCe d = n

instance : ExactNaiveDate GregorianDay where
  numDaysFromCe_of_eq_some {n d} h := by
    simp only [NaiveDate.fromNumDaysFromCeOpt, GregorianDay.ofDays] at h
    split_ifs at h with hn
    cases h
    rfl

section Range

variable {D T : Type}

/-- Some date is this many days after 1970-01-01. -/
def DateInRange (D : Type) [NaiveDate D] (days : Int32) : Prop :=
  ∃ d : D, (NaiveDate.numDaysFromCe d).toInt = days.toInt + epochDaysFromCe.toInt

/-- Some date-time is this many microseconds after the epoch. -/
def TimestampInRange (T : Type) [DateTime T] (micros : Int64) : Prop :=
  ∃ t : T, (DateTime.timestamp t).toInt = micros.toInt / 1000000 ∧
    (DateTime.timestampSubsecNanos t).toNat = (micros.toInt % 1000000 * 1000).toNat

lemma exists_dateFromDays [NaiveDate D] [LawfulNaiveDate D] [ExactNaiveDate D] {days : Int32} :
    (∃ d : D, dateFromDays days = .ok d) ↔ DateInRange D days := by
  have hadd : ∀ n, checkedAdd days (NaiveDate.numDaysFromCe (NaiveDate.epoch : D)) = some n ↔
      n.toInt = days.toInt + epochDaysFromCe.toInt := by
    intro n
    rw [checkedAdd_eq_some, LawfulNaiveDate.numDaysFromCe_epoch]
  constructor
  · rintro ⟨d, hd⟩
    rw [dateFromDays] at hd
    split at hd
    next => cases hd
    next n hn =>
      split at hd
      next => cases hd
      next d' hd' => exact ⟨d', by rw [ExactNaiveDate.numDaysFromCe_of_eq_some hd', (hadd n).1 hn]⟩
  · rintro ⟨d, hd⟩
    refine ⟨d, ?_⟩
    rw [dateFromDays, (hadd _).2 hd]
    simp only [LawfulNaiveDate.fromNumDaysFromCeOpt_numDaysFromCe]

lemma exists_datetimeFromMicros [DateTime T] [LawfulDateTime T] {micros : Int64} :
    (∃ t : T, datetimeFromMicros micros = .ok t) ↔ TimestampInRange T micros := by
  have hlo := Int64.le_toInt micros
  have hhi := Int64.toInt_lt micros
  have hsecs : (Int64.ofInt (micros.toInt / 1000000)).toInt = micros.toInt / 1000000 :=
    Int64.toInt_ofInt_of_le (by omega) (by omega)
  have hnanos : (UInt32.ofNat (micros.toInt % 1000000 * 1000).toNat).toNat =
      (micros.toInt % 1000000 * 1000).toNat :=
    UInt32.toNat_ofNat_of_lt' (by simp [UInt32.size]; omega)
  constructor
  · rintro ⟨t, ht⟩
    simp only [datetimeFromMicros] at ht
    split at ht
    next => cases ht
    next t' ht' =>
      obtain ⟨hs, hn⟩ := LawfulDateTime.timestamp_fromTimestamp ht'
      exact ⟨t', by rw [hs, hsecs], by rw [hn, hnanos]⟩
  · rintro ⟨t, hs, hn⟩
    refine ⟨t, ?_⟩
    have hs' : DateTime.timestamp t = Int64.ofInt (micros.toInt / 1000000) :=
      Int64.toInt_inj.1 (hs.trans hsecs.symm)
    have hn' : DateTime.timestampSubsecNanos t =
        UInt32.ofNat (micros.toInt % 1000000 * 1000).toNat :=
      UInt32.toNat_inj.1 (hn.trans hnanos.symm)
    simp only [datetimeFromMicros, ← hs', ← hn', LawfulDateTime.fromTimestamp_timestamp]

end Range

/-! ### Wire values and what is inside them -/

namespace Proto.Value

section Induction

variable {P : Proto.Value → Prop}
  (unset : P .unset)
  (record : ∀ r : Record Value, (∀ f ∈ r.fields, ∀ v ∈ f.value, P v) → P (.record r))
  (variant : ∀ x : Variant Value, (∀ v ∈ x.value, P v) → P (.variant x))
  (enum : ∀ e, P (.enum e)) (contractId : ∀ c, P (.contractId c))
  (list : ∀ vs : List Value, (∀ v ∈ vs, P v) → P (.list vs))
  (int64 : ∀ i, P (.int64 i)) (numeric : ∀ s, P (.numeric s)) (text : ∀ s, P (.text s))
  (timestamp : ∀ i, P (.timestamp i)) (party : ∀ p, P (.party p)) (bool : ∀ b, P (.bool b))
  (unit : P .unit) (date : ∀ i, P (.date i))
  (optional : ∀ o : Option Value, (∀ v ∈ o, P v) → P (.optional o))
  (textMap : ∀ es : List (TextMapEntry Value), (∀ e ∈ es, ∀ v ∈ e.value, P v) → P (.textMap es))
  (genMap : ∀ es : List (GenMapEntry Value),
    (∀ e ∈ es, (∀ v ∈ e.key, P v) ∧ ∀ v ∈ e.value, P v) → P (.genMap es))

include unset record variant enum contractId list int64 numeric text timestamp party bool unit
  date optional textMap genMap

/-- Induction on a wire value, with a hypothesis for every value directly inside it. -/
@[elab_as_elim, induction_eliminator]
theorem induction (v : Proto.Value) : P v :=
  @Proto.Value.rec P (fun r => ∀ f ∈ r.fields, ∀ v ∈ f.value, P v) (fun x => ∀ v ∈ x.value, P v)
    (fun vs => ∀ v ∈ vs, P v) (fun o => ∀ v ∈ o, P v) (fun es => ∀ e ∈ es, ∀ v ∈ e.value, P v)
    (fun es => ∀ e ∈ es, (∀ v ∈ e.key, P v) ∧ ∀ v ∈ e.value, P v)
    (fun fs => ∀ f ∈ fs, ∀ v ∈ f.value, P v) (fun e => ∀ v ∈ e.value, P v)
    (fun e => (∀ v ∈ e.key, P v) ∧ ∀ v ∈ e.value, P v) (fun f => ∀ v ∈ f.value, P v)
    unset record variant enum contractId list int64 numeric text timestamp party bool unit date
    optional textMap genMap (fun _ _ h => h) (fun _ _ _ h => h)
    (List.forall_mem_nil _) (fun _ _ h hs => List.forall_mem_cons.2 ⟨h, hs⟩)
    (fun _ h => nomatch h) (fun _ h _ hv => Option.mem_some.1 hv ▸ h)
    (List.forall_mem_nil _) (fun _ _ h hs => List.forall_mem_cons.2 ⟨h, hs⟩)
    (List.forall_mem_nil _) (fun _ _ h hs => List.forall_mem_cons.2 ⟨h, hs⟩)
    (List.forall_mem_nil _) (fun _ _ h hs => List.forall_mem_cons.2 ⟨h, hs⟩)
    (fun _ _ h => h) (fun _ _ h₁ h₂ => ⟨h₁, h₂⟩) (fun _ _ h => h) v

end Induction

mutual

/-- A wire value and all wire values inside it, at any depth. -/
def subvalues : Proto.Value → List Proto.Value
  | .record ⟨id, fs⟩ => .record ⟨id, fs⟩ :: subvaluesFields fs
  | .variant ⟨id, c, o⟩ => .variant ⟨id, c, o⟩ :: subvaluesOption o
  | .list vs => .list vs :: subvaluesList vs
  | .optional o => .optional o :: subvaluesOption o
  | .textMap es => .textMap es :: subvaluesTextMap es
  | .genMap es => .genMap es :: subvaluesGenMap es
  | v => [v]
termination_by structural v => v

def subvaluesFields : List (RecordField Proto.Value) → List Proto.Value
  | [] => []
  | ⟨_, o⟩ :: fs => subvaluesOption o ++ subvaluesFields fs
termination_by structural fs => fs

def subvaluesOption : Option Proto.Value → List Proto.Value
  | none => []
  | some v => subvalues v
termination_by structural o => o

def subvaluesList : List Proto.Value → List Proto.Value
  | [] => []
  | v :: vs => subvalues v ++ subvaluesList vs
termination_by structural vs => vs

def subvaluesTextMap : List (TextMapEntry Proto.Value) → List Proto.Value
  | [] => []
  | ⟨_, o⟩ :: es => subvaluesOption o ++ subvaluesTextMap es
termination_by structural es => es

def subvaluesGenMap : List (GenMapEntry Proto.Value) → List Proto.Value
  | [] => []
  | ⟨k, o⟩ :: es => subvaluesOption k ++ subvaluesOption o ++ subvaluesGenMap es
termination_by structural es => es

end

lemma mem_subvaluesOption {o : Option Proto.Value} {u : Proto.Value} :
    u ∈ subvaluesOption o ↔ ∃ v ∈ o, u ∈ v.subvalues := by
  cases o with
  | none => exact iff_of_false List.not_mem_nil (by simp)
  | some v =>
    show u ∈ v.subvalues ↔ _
    simp

lemma mem_subvaluesFields {fs : List (RecordField Proto.Value)} {u : Proto.Value} :
    u ∈ subvaluesFields fs ↔ ∃ f ∈ fs, ∃ v ∈ f.value, u ∈ v.subvalues := by
  induction fs with
  | nil => exact iff_of_false List.not_mem_nil (by simp)
  | cons f fs ih =>
    show u ∈ subvaluesOption f.value ++ subvaluesFields fs ↔ _
    rw [List.mem_append, mem_subvaluesOption, ih, List.exists_mem_cons_iff]

lemma mem_subvaluesList {vs : List Proto.Value} {u : Proto.Value} :
    u ∈ subvaluesList vs ↔ ∃ v ∈ vs, u ∈ v.subvalues := by
  induction vs with
  | nil => exact iff_of_false List.not_mem_nil (by simp)
  | cons v vs ih =>
    show u ∈ v.subvalues ++ subvaluesList vs ↔ _
    rw [List.mem_append, ih, List.exists_mem_cons_iff]

lemma mem_subvaluesTextMap {es : List (TextMapEntry Proto.Value)} {u : Proto.Value} :
    u ∈ subvaluesTextMap es ↔ ∃ e ∈ es, ∃ v ∈ e.value, u ∈ v.subvalues := by
  induction es with
  | nil => exact iff_of_false List.not_mem_nil (by simp)
  | cons e es ih =>
    show u ∈ subvaluesOption e.value ++ subvaluesTextMap es ↔ _
    rw [List.mem_append, mem_subvaluesOption, ih, List.exists_mem_cons_iff]

lemma mem_subvaluesGenMap {es : List (GenMapEntry Proto.Value)} {u : Proto.Value} :
    u ∈ subvaluesGenMap es ↔
      ∃ e ∈ es, (∃ v ∈ e.key, u ∈ v.subvalues) ∨ ∃ v ∈ e.value, u ∈ v.subvalues := by
  induction es with
  | nil => exact iff_of_false List.not_mem_nil (by simp)
  | cons e es ih =>
    show u ∈ subvaluesOption e.key ++ subvaluesOption e.value ++ subvaluesGenMap es ↔ _
    rw [List.mem_append, List.mem_append, mem_subvaluesOption, mem_subvaluesOption, ih,
      List.exists_mem_cons_iff]

end Proto.Value

/-! ### Well-formed wire values -/

/-- Everything the decoder asks for is there, at every depth. -/
inductive Proto.Value.WellFormed (N D T : Type) [BigDecimal N] [NaiveDate D] [DateTime T] :
    Proto.Value → Prop
  | record {r} : (∀ f ∈ r.fields, f.value.isSome) →
      (∀ f ∈ r.fields, ∀ v ∈ f.value, WellFormed N D T v) → WellFormed N D T (.record r)
  | variant {x} : x.value.isSome → (∀ v ∈ x.value, WellFormed N D T v) →
      WellFormed N D T (.variant x)
  | enum (e) : WellFormed N D T (.enum e)
  | contractId (c) : WellFormed N D T (.contractId c)
  | list {vs} : (∀ v ∈ vs, WellFormed N D T v) → WellFormed N D T (.list vs)
  | int64 (i) : WellFormed N D T (.int64 i)
  | numeric {s} : (∃ n : N, BigDecimal.fromStr s = .ok n) → WellFormed N D T (.numeric s)
  | text (s) : WellFormed N D T (.text s)
  | timestamp {i} : TimestampInRange T i → WellFormed N D T (.timestamp i)
  | party (p) : WellFormed N D T (.party p)
  | bool (b) : WellFormed N D T (.bool b)
  | unit : WellFormed N D T .unit
  | date {i} : DateInRange D i → WellFormed N D T (.date i)
  | optional {o} : (∀ v ∈ o, WellFormed N D T v) → WellFormed N D T (.optional o)
  | textMap {es} : (∀ e ∈ es, e.value.isSome) →
      (∀ e ∈ es, ∀ v ∈ e.value, WellFormed N D T v) → WellFormed N D T (.textMap es)
  | genMap {es} : (∀ e ∈ es, e.key.isSome ∧ e.value.isSome) →
      (∀ e ∈ es, ∀ v ∈ e.key, WellFormed N D T v) →
      (∀ e ∈ es, ∀ v ∈ e.value, WellFormed N D T v) → WellFormed N D T (.genMap es)

namespace DamlValue

variable {N D T : Type} [BigDecimal N] [NaiveDate D] [DateTime T]

/-! ### The decoder on fields, elements and entries -/

/-- The value is present and decodes to `w`. -/
def Decodes (o : Option Proto.Value) (w : DamlValue N D T) : Prop :=
  ∃ v, o = some v ∧ tryFrom v = .ok w

lemma tryFromRecordFields_eq_ok {fs : List (Proto.RecordField Proto.Value)}
    {gs : List (DamlRecordField (DamlValue N D T))} :
    tryFromRecordFields fs = .ok gs ↔
      List.Forall₂ (fun f g => Decodes f.value g.value ∧
        g.label = if f.label.isEmpty then none else some f.label) fs gs := by
  induction fs generalizing gs with
  | nil =>
    show (Except.ok [] : DamlResult _) = .ok gs ↔ _
    rw [Except.ok.injEq, List.forall₂_nil_left_iff]
    exact eq_comm
  | cons f fs ih =>
    obtain ⟨label, _ | v⟩ := f
    · refine iff_of_false (fun h => by cases h) ?_
      rintro (_ | ⟨⟨⟨v, hv, -⟩, -⟩, -⟩)
      cases hv
    show (do
      let value : DamlValue N D T ← tryFrom v
      return DamlRecordField.mk (if label.isEmpty then none else some label) value ::
        (← tryFromRecordFields fs)) = .ok gs ↔ _
    simp only [Except.bind_eq_ok, Except.pure_eq_ok, ih]
    constructor
    · rintro ⟨w, hw, gs, hgs, rfl⟩
      exact .cons ⟨⟨v, rfl, hw⟩, rfl⟩ hgs
    · rintro (_ | ⟨⟨⟨_, ⟨⟩, hw⟩, hlabel⟩, hgs⟩)
      exact ⟨_, hw, _, hgs, by rw [← hlabel]⟩

lemma tryFromValues_eq_ok {vs : List Proto.Value} {ws : List (DamlValue N D T)} :
    tryFromValues vs = .ok ws ↔ List.Forall₂ (fun v w => tryFrom v = .ok w) vs ws := by
  induction vs generalizing ws with
  | nil =>
    show (Except.ok [] : DamlResult _) = .ok ws ↔ _
    rw [Except.ok.injEq, List.forall₂_nil_left_iff]
    exact eq_comm
  | cons v vs ih =>
    show (do return (← tryFrom v) :: (← tryFromValues vs)) = .ok ws ↔ _
    simp only [Except.bind_eq_ok, Except.pure_eq_ok, ih]
    constructor
    · rintro ⟨w, hw, ws, hws, rfl⟩
      exact .cons hw hws
    · rintro (_ | ⟨hw, hws⟩)
      exact ⟨_, hw, _, hws, rfl⟩

lemma tryFromTextMapEntries_eq_ok {es : List (Proto.TextMapEntry Proto.Value)}
    {m : List (String × DamlValue N D T)} :
    tryFromTextMapEntries es = .ok m ↔
      List.Forall₂ (fun e p => e.key = p.1 ∧ Decodes e.value p.2) es m := by
  induction es generalizing m with
  | nil =>
    show (Except.ok [] : DamlResult _) = .ok m ↔ _
    rw [Except.ok.injEq, List.forall₂_nil_left_iff]
    exact eq_comm
  | cons e es ih =>
    obtain ⟨key, _ | v⟩ := e
    · refine iff_of_false (fun h => by cases h) ?_
      rintro (_ | ⟨⟨-, v, hv, -⟩, -⟩)
      cases hv
    show (do
      let value : DamlValue N D T ← tryFrom v
      return (key, value) :: (← tryFromTextMapEntries es)) = .ok m ↔ _
    simp only [Except.bind_eq_ok, Except.pure_eq_ok, ih]
    constructor
    · rintro ⟨w, hw, m, hm, rfl⟩
      exact .cons ⟨rfl, v, rfl, hw⟩ hm
    · rintro (_ | ⟨⟨hkey, _, ⟨⟩, hw⟩, hm⟩)
      exact ⟨_, hw, _, hm, congrArg (fun k => (k, _) :: _) hkey⟩

lemma tryFromGenMapEntries_eq_ok {es : List (Proto.GenMapEntry Proto.Value)}
    {m : List (DamlValue N D T × DamlValue N D T)} :
    tryFromGenMapEntries es = .ok m ↔
      List.Forall₂ (fun e p => Decodes e.key p.1 ∧ Decodes e.value p.2) es m := by
  induction es generalizing m with
  | nil =>
    show (Except.ok [] : DamlResult _) = .ok m ↔ _
    rw [Except.ok.injEq, List.forall₂_nil_left_iff]
    exact eq_comm
  | cons e es ih =>
    obtain ⟨_ | k, o⟩ := e
    · refine iff_of_false (fun h => by cases h) ?_
      rintro (_ | ⟨⟨⟨v, hv, -⟩, -⟩, -⟩)
      cases hv
    obtain _ | v := o
    · refine iff_of_false (fun h => ?_) ?_
      · obtain ⟨_, -, h⟩ := Except.bind_eq_ok.1 h
        cases h
      · rintro (_ | ⟨⟨-, v, hv, -⟩, -⟩)
        cases hv
    show (do
      let key : DamlValue N D T ← tryFrom k
      let value : DamlValue N D T ← tryFrom v
      return (key, value) :: (← tryFromGenMapEntries es)) = .ok m ↔ _
    simp only [Except.bind_eq_ok, Except.pure_eq_ok, ih]
    constructor
    · rintro ⟨x, hx, w, hw, m, hm, rfl⟩
      exact .cons ⟨⟨k, rfl, hx⟩, v, rfl, hw⟩ hm
    · rintro (_ | ⟨⟨⟨_, ⟨⟩, hx⟩, _, ⟨⟩, hw⟩, hm⟩)
      exact ⟨_, hx, _, hw, _, hm, rfl⟩

/-! ### When a value decodes -/

/-- A value that has to be present decodes if it is there and is well formed. -/
lemma exists_decodes {o : Option Proto.Value}
    (ih : ∀ v ∈ o, (∃ w : DamlValue N D T, tryFrom v = .ok w) ↔ v.WellFormed N D T) :
    (∃ w : DamlValue N D T, Decodes o w) ↔ o.isSome ∧ ∀ v ∈ o, v.WellFormed N D T := by
  cases o with
  | none => simp [Decodes]
  | some v => simpa [Decodes] using ih v rfl

section Accept

variable [LawfulNaiveDate D] [ExactNaiveDate D] [LawfulDateTime T]

/-- The decoder accepts exactly the well-formed values. -/
lemma exists_tryFrom (v : Proto.Value) :
    (∃ w : DamlValue N D T, tryFrom v = .ok w) ↔ v.WellFormed N D T := by
  induction v with
  | unset => exact iff_of_false (fun ⟨_, h⟩ => by cases h) (fun h => by cases h)
  | record r ih =>
    have hfs : (∃ gs : List (DamlRecordField (DamlValue N D T)),
        tryFromRecordFields r.fields = .ok gs) ↔
          ∀ f ∈ r.fields, f.value.isSome ∧ ∀ v ∈ f.value, v.WellFormed N D T := by
      simp only [tryFromRecordFields_eq_ok, List.exists_forall₂_iff]
      refine forall₂_congr fun f hf => ?_
      rw [← exists_decodes (ih f hf)]
      exact ⟨fun ⟨g, hg, _⟩ => ⟨g.value, hg⟩, fun ⟨w, hw⟩ => ⟨⟨_, w⟩, hw, rfl⟩⟩
    constructor
    · rintro ⟨w, hw⟩
      obtain ⟨gs, hgs, -⟩ := Except.bind_eq_ok.1 hw
      have hwf := hfs.1 ⟨gs, hgs⟩
      exact .record (fun f hf => (hwf f hf).1) fun f hf => (hwf f hf).2
    · intro hwf
      cases hwf with | record hsome hwf =>
      obtain ⟨gs, hgs⟩ := hfs.2 fun f hf => ⟨hsome f hf, hwf f hf⟩
      exact ⟨_, Except.bind_eq_ok.2 ⟨gs, hgs, rfl⟩⟩
  | variant x ih =>
    obtain ⟨id, c, o⟩ := x
    have ho := exists_decodes ih
    constructor
    · rintro ⟨w, hw⟩
      -- a missing value is an error here, so what decodes has one
      have hdec : ∃ w : DamlValue N D T, Decodes o w := by
        cases o with
        | none => cases hw
        | some v =>
          obtain ⟨w, hw, -⟩ := Except.bind_eq_ok.1 hw
          exact ⟨w, v, rfl, hw⟩
      exact .variant (ho.1 hdec).1 (ho.1 hdec).2
    · intro hwf
      cases hwf with | variant hsome hwf =>
      obtain ⟨w, v, rfl, hw⟩ := ho.2 ⟨hsome, hwf⟩
      exact ⟨_, Except.bind_eq_ok.2 ⟨w, hw, rfl⟩⟩
  | list vs ih =>
    have hvs : (∃ ws : List (DamlValue N D T), tryFromValues vs = .ok ws) ↔
        ∀ v ∈ vs, v.WellFormed N D T := by
      simp only [tryFromValues_eq_ok, List.exists_forall₂_iff]
      exact forall₂_congr ih
    constructor
    · rintro ⟨w, hw⟩
      obtain ⟨ws, hws, -⟩ := Except.bind_eq_ok.1 hw
      exact .list (hvs.1 ⟨ws, hws⟩)
    · intro hwf
      cases hwf with | list hwf =>
      obtain ⟨ws, hws⟩ := hvs.2 hwf
      exact ⟨_, Except.bind_eq_ok.2 ⟨ws, hws, rfl⟩⟩
  | optional o ih =>
    cases o with
    | none => exact iff_of_true ⟨_, rfl⟩ (.optional fun _ h => by cases h)
    | some v =>
      have hv := ih v rfl
      constructor
      · rintro ⟨w, hw⟩
        obtain ⟨w, hw, -⟩ := Except.bind_eq_ok.1 hw
        exact .optional fun _ h => Option.mem_some.1 h ▸ hv.1 ⟨w, hw⟩
      · intro hwf
        cases hwf with | optional hwf =>
        obtain ⟨w, hw⟩ := hv.2 (hwf v rfl)
        exact ⟨_, Except.bind_eq_ok.2 ⟨w, hw, rfl⟩⟩
  | textMap es ih =>
    have hes : (∃ m : List (String × DamlValue N D T), tryFromTextMapEntries es = .ok m) ↔
        ∀ e ∈ es, e.value.isSome ∧ ∀ v ∈ e.value, v.WellFormed N D T := by
      simp only [tryFromTextMapEntries_eq_ok, List.exists_forall₂_iff]
      refine forall₂_congr fun e he => ?_
      rw [← exists_decodes (ih e he)]
      exact ⟨fun ⟨p, _, hp⟩ => ⟨p.2, hp⟩, fun ⟨w, hw⟩ => ⟨(e.key, w), rfl, hw⟩⟩
    constructor
    · rintro ⟨w, hw⟩
      obtain ⟨m, hm, -⟩ := Except.bind_eq_ok.1 hw
      have hwf := hes.1 ⟨m, hm⟩
      exact .textMap (fun e he => (hwf e he).1) fun e he => (hwf e he).2
    · intro hwf
      cases hwf with | textMap hsome hwf =>
      obtain ⟨m, hm⟩ := hes.2 fun e he => ⟨hsome e he, hwf e he⟩
      exact ⟨_, Except.bind_eq_ok.2 ⟨m, hm, rfl⟩⟩
  | genMap es ih =>
    have hes : (∃ m : List (DamlValue N D T × DamlValue N D T),
        tryFromGenMapEntries es = .ok m) ↔
        ∀ e ∈ es, (e.key.isSome ∧ ∀ v ∈ e.key, v.WellFormed N D T) ∧
          e.value.isSome ∧ ∀ v ∈ e.value, v.WellFormed N D T := by
      simp only [tryFromGenMapEntries_eq_ok, List.exists_forall₂_iff]
      refine forall₂_congr fun e he => ?_
      rw [← exists_decodes (ih e he).1, ← exists_decodes (ih e he).2]
      exact ⟨fun ⟨p, hk, hv⟩ => ⟨⟨p.1, hk⟩, p.2, hv⟩, fun ⟨⟨k, hk⟩, w, hw⟩ => ⟨(k, w), hk, hw⟩⟩
    constructor
    · rintro ⟨w, hw⟩
      obtain ⟨m, hm, -⟩ := Except.bind_eq_ok.1 hw
      have hwf := hes.1 ⟨m, hm⟩
      exact .genMap (fun e he => ⟨(hwf e he).1.1, (hwf e he).2.1⟩) (fun e he => (hwf e he).1.2)
        fun e he => (hwf e he).2.2
    · intro hwf
      cases hwf with | genMap hsome hkey hvalue =>
      obtain ⟨m, hm⟩ := hes.2 fun e he =>
        ⟨⟨(hsome e he).1, hkey e he⟩, (hsome e he).2, hvalue e he⟩
      exact ⟨_, Except.bind_eq_ok.2 ⟨m, hm, rfl⟩⟩
  | numeric s =>
    constructor
    · rintro ⟨w, hw⟩
      rcases hs : (BigDecimal.fromStr s : Except String N) with e | n
      · rw [tryFrom, hs] at hw
        cases hw
      · exact .numeric ⟨n, hs⟩
    · intro hwf
      cases hwf with | numeric hs =>
      obtain ⟨n, hn⟩ := hs
      exact ⟨.numeric n, by rw [tryFrom, hn]⟩
  | timestamp i =>
    constructor
    · rintro ⟨w, hw⟩
      obtain ⟨t, ht, -⟩ := Except.bind_eq_ok.1 hw
      exact .timestamp (exists_datetimeFromMicros.1 ⟨t, ht⟩)
    · intro hwf
      cases hwf with | timestamp ht =>
      obtain ⟨t, ht⟩ := exists_datetimeFromMicros.2 ht
      exact ⟨_, Except.bind_eq_ok.2 ⟨t, ht, rfl⟩⟩
  | date i =>
    constructor
    · rintro ⟨w, hw⟩
      obtain ⟨d, hd, -⟩ := Except.bind_eq_ok.1 hw
      exact .date (exists_dateFromDays.1 ⟨d, hd⟩)
    · intro hwf
      cases hwf with | date hd =>
      obtain ⟨d, hd⟩ := exists_dateFromDays.2 hd
      exact ⟨_, Except.bind_eq_ok.2 ⟨d, hd, rfl⟩⟩
  | enum e => exact iff_of_true ⟨_, rfl⟩ (.enum e)
  | contractId c => exact iff_of_true ⟨_, rfl⟩ (.contractId c)
  | int64 i => exact iff_of_true ⟨_, rfl⟩ (.int64 i)
  | text s => exact iff_of_true ⟨_, rfl⟩ (.text s)
  | party p => exact iff_of_true ⟨_, rfl⟩ (.party p)
  | bool b => exact iff_of_true ⟨_, rfl⟩ (.bool b)
  | unit => exact iff_of_true ⟨_, rfl⟩ .unit

end Accept

/-! ### What is decoded is valid -/

section Valid

variable [Std.TransOrd N] [Std.TransOrd D] [Std.TransOrd T]

lemma valid_of_tryFrom {v : Proto.Value} {w : DamlValue N D T} (h : tryFrom v = .ok w) :
    w.Valid := by
  induction v generalizing w with
  | unset => cases h
  | record r ih =>
    obtain ⟨gs, hgs, h⟩ := Except.bind_eq_ok.1 h
    cases h
    refine .record fun g hg => ?_
    obtain ⟨f, hf, ⟨v, hv, hw⟩, -⟩ := (tryFromRecordFields_eq_ok.1 hgs).exists_left hg
    exact ih f hf v hv hw
  | variant x ih =>
    obtain ⟨id, c, _ | v⟩ := x
    · cases h
    · obtain ⟨w, hw, h⟩ := Except.bind_eq_ok.1 h
      cases h
      exact .variant (ih v rfl hw)
  | list vs ih =>
    obtain ⟨ws, hws, h⟩ := Except.bind_eq_ok.1 h
    cases h
    refine .list fun w hw => ?_
    obtain ⟨v, hv, hw⟩ := (tryFromValues_eq_ok.1 hws).exists_left hw
    exact ih v hv hw
  | optional o ih =>
    cases o with
    | none =>
      cases h
      exact .optional fun _ h => by cases h
    | some v =>
      obtain ⟨w, hw, h⟩ := Except.bind_eq_ok.1 h
      cases h
      exact .optional fun _ h => Option.mem_some.1 h ▸ ih v rfl hw
  | textMap es ih =>
    obtain ⟨m, hm, h⟩ := Except.bind_eq_ok.1 h
    cases h
    refine .textMap (AssocMap.nodup_keys_ofList _) fun p hp => ?_
    obtain ⟨e, he, -, v, hv, hw⟩ :=
      (tryFromTextMapEntries_eq_ok.1 hm).exists_left (AssocMap.mem_of_mem_ofList hp)
    exact ih e he v hv hw
  | genMap es ih =>
    obtain ⟨m, hm, h⟩ := Except.bind_eq_ok.1 h
    cases h
    have hsub := (AssocMap.subperm_ofListSorted cmp m).subset
    have hentry := tryFromGenMapEntries_eq_ok.1 hm
    refine .genMap ?_ (fun p hp => ?_) fun p hp => ?_
    -- the keys are strictly increasing, so no two are `Equal`
    · refine (AssocMap.pairwise_keys_ofListSorted m).imp fun hlt => ?_
      rw [partialCmp_eq_some_cmp, hlt]
    · obtain ⟨e, he, ⟨v, hv, hw⟩, -⟩ := hentry.exists_left (hsub hp)
      exact (ih e he).1 v hv hw
    · obtain ⟨e, he, -, v, hv, hw⟩ := hentry.exists_left (hsub hp)
      exact (ih e he).2 v hv hw
  | numeric s =>
    rw [tryFrom] at h
    split at h <;> cases h
    exact .numeric _
  | timestamp i =>
    obtain ⟨t, -, h⟩ := Except.bind_eq_ok.1 h
    cases h
    exact .timestamp t
  | date i =>
    obtain ⟨d, -, h⟩ := Except.bind_eq_ok.1 h
    cases h
    exact .date d
  | enum e =>
    cases h
    exact .enum _
  | contractId c =>
    cases h
    exact .contractId _
  | int64 i =>
    cases h
    exact .int64 i
  | text s =>
    cases h
    exact .text s
  | party p =>
    cases h
    exact .party _
  | bool b =>
    cases h
    exact .bool b
  | unit =>
    cases h
    exact .unit

end Valid

/-! ### What becomes of the entries of a map -/

/-- The keys of a map are all different, those of a gen map once they are decoded. -/
def DistinctKeys (N D T : Type) [BigDecimal N] [NaiveDate D] [DateTime T] : Proto.Value → Prop
  | .textMap es => (es.map Proto.TextMapEntry.key).Nodup
  | .genMap es => ∀ ks : List (DamlValue N D T), List.Forall₂ (fun e k => Decodes e.key k) es ks →
      ks.Pairwise fun k k' => ¬ k.beq k'
  | _ => True

/-- A map is decoded to a map that has one entry for each of its entries, of that key and value,
and no other. -/
def OneEntryEach : Proto.Value → DamlValue N D T → Prop
  | .textMap es, w => ∃ m ps, w = .textMap m ∧ m.Perm ps ∧
      List.Forall₂ (fun e p => e.key = p.1 ∧ Decodes e.value p.2) es ps
  | .genMap es, w => ∃ m ps, w = .genMap m ∧ m.Perm ps ∧
      List.Forall₂ (fun e p => Decodes e.key p.1 ∧ Decodes e.value p.2) es ps
  | _, _ => True

lemma ofList_entries {es : List (Proto.TextMapEntry Proto.Value)}
    {m : List (String × DamlValue N D T)} (hm : tryFromTextMapEntries es = .ok m)
    (hd : DistinctKeys N D T (.textMap es)) : AssocMap.ofList m = m := by
  have hkeys : es.map Proto.TextMapEntry.key = AssocMap.keys m := by
    rw [← List.forall₂_eq_eq_eq, AssocMap.keys, List.forall₂_map_left_iff,
      List.forall₂_map_right_iff]
    exact (tryFromTextMapEntries_eq_ok.1 hm).imp fun _ _ h => h.1
  exact AssocMap.ofList_eq_self (hkeys ▸ hd)

section Entries

variable [Std.TransOrd N] [Std.TransOrd D] [Std.TransOrd T] [Std.LawfulBEqOrd N]
  [Std.LawfulBEqOrd D] [Std.LawfulBEqOrd T]

lemma perm_ofListSorted_entries {es : List (Proto.GenMapEntry Proto.Value)}
    {m : List (DamlValue N D T × DamlValue N D T)} (hm : tryFromGenMapEntries es = .ok m)
    (hd : DistinctKeys N D T (.genMap es)) : (AssocMap.ofListSorted cmp m).Perm m := by
  have hentry := tryFromGenMapEntries_eq_ok.1 hm
  have hkeys : List.Forall₂ (fun e k => Decodes e.key k) es (AssocMap.keys m) :=
    List.forall₂_map_right_iff.2 (hentry.imp fun _ _ h => h.1)
  have hvalid : ∀ k ∈ AssocMap.keys m, k.Valid := by
    intro k hk
    obtain ⟨e, -, v, -, hv⟩ := hkeys.exists_left hk
    exact valid_of_tryFrom hv
  -- the order of the map is consistent with the equality the keys are told apart by
  refine AssocMap.perm_ofListSorted ((hd _ hkeys).imp_of_mem fun {k k'} hk hk' hne heq => hne ?_)
  exact (cmp_eq_eq_iff (hvalid k hk) (hvalid k' hk')).1 heq

lemma oneEntryEach_of_tryFrom {u : Proto.Value} {x : DamlValue N D T} (h : tryFrom u = .ok x)
    (hd : DistinctKeys N D T u) : OneEntryEach u x := by
  cases u with
  | textMap es =>
    obtain ⟨m, hm, h⟩ := Except.bind_eq_ok.1 h
    cases h
    refine ⟨_, m, rfl, ?_, tryFromTextMapEntries_eq_ok.1 hm⟩
    rw [ofList_entries hm hd]
  | genMap es =>
    obtain ⟨m, hm, h⟩ := Except.bind_eq_ok.1 h
    cases h
    exact ⟨_, m, rfl, perm_ofListSorted_entries hm hd, tryFromGenMapEntries_eq_ok.1 hm⟩
  | _ => trivial

/-- Every value inside one that decodes was decoded, and what it was decoded to is inside the
result unless a map has lost an entry. -/
lemma exists_tryFrom_subvalue {v : Proto.Value} {w : DamlValue N D T} (h : tryFrom v = .ok w)
    {u : Proto.Value} (hu : u ∈ v.subvalues) : ∃ x, tryFrom u = .ok x ∧
      ((∀ u ∈ v.subvalues, DistinctKeys N D T u) → x ∈ w.subvalues) := by
  have hself : ∀ w : DamlValue N D T, w ∈ w.subvalues := fun w => by
    rcases w with _ | _ | _ | _ | _ | _ | _ | _ | _ | _ | _ | _ | _ | (_ | _) | _ | _ <;>
      exact List.mem_cons_self
  induction v generalizing w with
  | record r ih =>
    rcases List.mem_cons.1 hu with rfl | hu
    · exact ⟨w, h, fun _ => hself w⟩
    obtain ⟨gs, hgs, h⟩ := Except.bind_eq_ok.1 h
    cases h
    obtain ⟨f, hf, v, hv, hu⟩ := Proto.Value.mem_subvaluesFields.1 hu
    obtain ⟨g, hg, ⟨_, hv', hw⟩, -⟩ := (tryFromRecordFields_eq_ok.1 hgs).exists_right hf
    cases hv.symm.trans hv'
    obtain ⟨x, hx, hin⟩ := ih f hf v hv hw hu
    refine ⟨x, hx, fun hd => ?_⟩
    rw [subvalues_record]
    exact List.mem_cons_of_mem _ (List.mem_flatMap.2 ⟨g, hg, hin fun u hu =>
      hd u (List.mem_cons_of_mem _ (Proto.Value.mem_subvaluesFields.2 ⟨f, hf, v, hv, hu⟩))⟩)
  | variant y ih =>
    rcases List.mem_cons.1 hu with rfl | hu
    · exact ⟨w, h, fun _ => hself w⟩
    obtain ⟨id, c, o⟩ := y
    obtain ⟨v, rfl, hu⟩ := Proto.Value.mem_subvaluesOption.1 hu
    obtain ⟨w, hw, h⟩ := Except.bind_eq_ok.1 h
    cases h
    obtain ⟨x, hx, hin⟩ := ih v rfl hw hu
    exact ⟨x, hx, fun hd => List.mem_cons_of_mem _ (hin fun u hu =>
      hd u (List.mem_cons_of_mem _ hu))⟩
  | list vs ih =>
    rcases List.mem_cons.1 hu with rfl | hu
    · exact ⟨w, h, fun _ => hself w⟩
    obtain ⟨ws, hws, h⟩ := Except.bind_eq_ok.1 h
    cases h
    obtain ⟨v, hv, hu⟩ := Proto.Value.mem_subvaluesList.1 hu
    obtain ⟨w, hw, hvw⟩ := (tryFromValues_eq_ok.1 hws).exists_right hv
    obtain ⟨x, hx, hin⟩ := ih v hv hvw hu
    refine ⟨x, hx, fun hd => ?_⟩
    rw [subvalues_list]
    exact List.mem_cons_of_mem _ (List.mem_flatMap.2 ⟨w, hw, hin fun u hu =>
      hd u (List.mem_cons_of_mem _ (Proto.Value.mem_subvaluesList.2 ⟨v, hv, hu⟩))⟩)
  | optional o ih =>
    rcases List.mem_cons.1 hu with rfl | hu
    · exact ⟨w, h, fun _ => hself w⟩
    obtain ⟨v, rfl, hu⟩ := Proto.Value.mem_subvaluesOption.1 hu
    obtain ⟨w, hw, h⟩ := Except.bind_eq_ok.1 h
    cases h
    obtain ⟨x, hx, hin⟩ := ih v rfl hw hu
    exact ⟨x, hx, fun hd => List.mem_cons_of_mem _ (hin fun u hu =>
      hd u (List.mem_cons_of_mem _ hu))⟩
  | textMap es ih =>
    rcases List.mem_cons.1 hu with rfl | hu
    · exact ⟨w, h, fun _ => hself w⟩
    obtain ⟨m, hm, h⟩ := Except.bind_eq_ok.1 h
    cases h
    obtain ⟨e, he, v, hv, hu⟩ := Proto.Value.mem_subvaluesTextMap.1 hu
    obtain ⟨p, hp, -, _, hv', hw⟩ := (tryFromTextMapEntries_eq_ok.1 hm).exists_right he
    cases hv.symm.trans hv'
    obtain ⟨x, hx, hin⟩ := ih e he v hv hw hu
    -- only below a map that keeps its entries is what was decoded also in the result
    refine ⟨x, hx, fun hd => ?_⟩
    rw [subvalues_textMap, ofList_entries hm (hd _ List.mem_cons_self)]
    exact List.mem_cons_of_mem _ (List.mem_flatMap.2 ⟨p, hp, hin fun u hu =>
      hd u (List.mem_cons_of_mem _ (Proto.Value.mem_subvaluesTextMap.2 ⟨e, he, v, hv, hu⟩))⟩)
  | genMap es ih =>
    rcases List.mem_cons.1 hu with rfl | hu
    · exact ⟨w, h, fun _ => hself w⟩
    obtain ⟨m, hm, h⟩ := Except.bind_eq_ok.1 h
    cases h
    obtain ⟨e, he, hu⟩ := Proto.Value.mem_subvaluesGenMap.1 hu
    obtain ⟨p, hp, ⟨k, hk, hwk⟩, v, hv, hwv⟩ := (tryFromGenMapEntries_eq_ok.1 hm).exists_right he
    -- the entry itself is kept as no other has its key; what is inside it may still hold maps,
    -- to which `hinside` carries the hypothesis
    have hkept : (∀ u ∈ (Proto.Value.genMap es).subvalues, DistinctKeys N D T u) →
        p ∈ AssocMap.ofListSorted cmp m :=
      fun hd => (perm_ofListSorted_entries hm (hd _ List.mem_cons_self)).mem_iff.2 hp
    have hinside : ∀ u, (∃ v ∈ e.key, u ∈ v.subvalues) ∨ (∃ v ∈ e.value, u ∈ v.subvalues) →
        u ∈ (Proto.Value.genMap es).subvalues :=
      fun u hu => List.mem_cons_of_mem _ (Proto.Value.mem_subvaluesGenMap.2 ⟨e, he, hu⟩)
    rcases hu with ⟨k', hk', hu⟩ | ⟨v', hv', hu⟩
    · cases hk.symm.trans hk'
      obtain ⟨x, hx, hin⟩ := (ih e he).1 k hk hwk hu
      refine ⟨x, hx, fun hd => ?_⟩
      rw [subvalues_genMap]
      exact List.mem_cons_of_mem _ (List.mem_flatMap.2 ⟨p, hkept hd, List.mem_append_left _
        (hin fun u hu => hd u (hinside u (.inl ⟨k, hk, hu⟩)))⟩)
    · cases hv.symm.trans hv'
      obtain ⟨x, hx, hin⟩ := (ih e he).2 v hv hwv hu
      refine ⟨x, hx, fun hd => ?_⟩
      rw [subvalues_genMap]
      exact List.mem_cons_of_mem _ (List.mem_flatMap.2 ⟨p, hkept hd, List.mem_append_right _
        (hin fun u hu => hd u (hinside u (.inr ⟨v, hv, hu⟩)))⟩)
  | _ =>
    obtain rfl := List.mem_singleton.1 hu
    exact ⟨w, h, fun _ => hself w⟩

end Entries

/-- `DamlValue::try_from(Value)` accepts exactly the well-formed values.  In a value that it
accepts, every map whose decoded keys are all different becomes a map with one entry for each
entry on the wire; where that is so of all of them, everything on the wire is in the result. -/
theorem tryFrom_iff_wellFormed_and_keeps_entries [LawfulBigDecimal N] [LawfulNaiveDate D]
    [ExactNaiveDate D] [LawfulDateTime T] (v : Proto.Value) :
    ((∃ w : DamlValue N D T, tryFrom v = .ok w) ↔ v.WellFormed N D T) ∧
      ∀ w : DamlValue N D T, tryFrom v = .ok w →
        (∀ u ∈ v.subvalues, ∃ x : DamlValue N D T, tryFrom u = .ok x ∧
          (DistinctKeys N D T u → OneEntryEach u x)) ∧
        ((∀ u ∈ v.subvalues, DistinctKeys N D T u) →
          ∀ u ∈ v.subvalues, ∃ x ∈ w.subvalues, tryFrom u = .ok x) := by
  refine ⟨exists_tryFrom v, fun w hw => ⟨fun u hu => ?_, fun hd u hu => ?_⟩⟩
  · obtain ⟨x, hx, -⟩ := exists_tryFrom_subvalue hw hu
    exact ⟨x, hx, oneEntryEach_of_tryFrom hx⟩
  · obtain ⟨x, hx, hin⟩ := exists_tryFrom_subvalue hw hu
    exact ⟨x, hin hd, hx⟩

/-- A gen map with two different lists for keys keeps both entries, each with its value. -/
theorem tryFrom_iff_wellFormed_and_keeps_entries_lists :
    let v : Proto.Value := .genMap [⟨some (.list [.int64 2]), some (.date 20000)⟩,
      ⟨some (.list [.int64 1]), some (.timestamp (-1))⟩]
    ∃ m : List (DamlValue Int GregorianDay UtcInstant × DamlValue Int GregorianDay UtcInstant),
      tryFrom v = .ok (.genMap m) ∧ m.length = 2 ∧
        (.list [.int64 2], .date ⟨739163, by decide⟩) ∈ m := by
  intro v
  obtain ⟨haccept, hentries⟩ :=
    tryFrom_iff_wellFormed_and_keeps_entries (N := Int) (D := GregorianDay) (T := UtcInstant) v
  have hwf : v.WellFormed Int GregorianDay UtcInstant := by
    refine .genMap (by simp) ?_ ?_
    · simp only [List.forall_mem_cons, Option.mem_some_iff, forall_eq']
      exact ⟨.list (by simpa using .int64 2), .list (by simpa using .int64 1), by simp⟩
    · simp only [List.forall_mem_cons, Option.mem_some_iff, forall_eq']
      exact ⟨.date ⟨⟨739163, by decide⟩, by decide⟩,
        .timestamp (exists_datetimeFromMicros.1 ⟨_, rfl⟩), by simp⟩
  obtain ⟨w, hw⟩ := haccept.2 hwf
  obtain ⟨x, hx, hone⟩ := (hentries w hw).1 v List.mem_cons_self
  obtain ⟨m, ps, rfl, hperm, hps⟩ := hone fun ks hks => by
    obtain _ | ⟨⟨_, ⟨⟩, ⟨⟩⟩, _ | ⟨⟨_, ⟨⟩, ⟨⟩⟩, _ | _⟩⟩ := hks
    simp [beq, beqList]
  refine ⟨m, hx, hperm.length_eq.trans hps.length_eq.symm, hperm.mem_iff.2 ?_⟩
  obtain _ | @⟨_, ⟨k, x⟩, _, _, ⟨⟨_, ⟨⟩, hkey⟩, ⟨_, ⟨⟩, hvalue⟩⟩, -⟩ := hps
  cases hkey
  cases hvalue
  exact List.mem_cons_self

end DamlValue

end DamlBindings.Grpc
