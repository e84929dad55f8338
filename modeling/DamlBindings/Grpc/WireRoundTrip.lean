import DamlBindings.Grpc.TotalOrder
import DamlBindings.Grpc.Wire
import DamlBindings.Lib.Result

/-!
# Encoding a ledger value and decoding it again

Dates, decimals, labels and identifiers survive the wire.  Timestamps do not: the encoder writes
whole seconds and the decoder reads microseconds.  The values that survive are exactly those
whose timestamps, at any depth, all lie on the two points where this makes no difference.  That
no other value survives is shown with a weight of the timestamps that decoding never increases
and decreases as soon as one timestamp is misread.
-/

namespace DamlBindings.Grpc

/-! ### Dates and times -/

section Util

variable {D T : Type}

/-- The narrowing cast of the day count loses nothing. -/
lemma toInt_daysFromDate [NaiveDate D] [LawfulNaiveDate D] (d : D) :
    (daysFromDate d).toInt = (NaiveDate.numDaysSince d NaiveDate.epoch).toInt := by
  have hrange := LawfulNaiveDate.numDaysFromCe_range d
  have hsince := LawfulNaiveDate.numDaysSince_eq d NaiveDate.epoch
  have hepoch : (NaiveDate.numDaysFromCe (NaiveDate.epoch : D)).toInt = 719163 := by
    rw [LawfulNaiveDate.numDaysFromCe_epoch]
    rfl
  rw [daysFromDate, Int64.toInt_toInt32]
  exact Int.bmod_eq_of_le (by omega) (by omega)

/-- The date conversions are inverse to each other. -/
lemma dateFromDays_daysFromDate [NaiveDate D] [LawfulNaiveDate D] (d : D) :
    dateFromDays (daysFromDate d) = .ok d := by
  have hadd : checkedAdd (daysFromDate d) (NaiveDate.numDaysFromCe (NaiveDate.epoch : D)) =
      some (NaiveDate.numDaysFromCe d) := by
    rw [checkedAdd_eq_some, toInt_daysFromDate, LawfulNaiveDate.numDaysSince_eq]
    omega
  rw [dateFromDays, hadd]
  simp only [LawfulNaiveDate.fromNumDaysFromCeOpt_numDaysFromCe]

/-- The timestamps whose seconds and microseconds read the same: the epoch and the last
microsecond before it. -/
def ExactOnWire [DateTime T] (t : T) : Prop :=
  (DateTime.timestamp t = 0 ∧ DateTime.timestampSubsecNanos t = 0) ∨
    (DateTime.timestamp t = -1 ∧ DateTime.timestampSubsecNanos t = 999999000)

instance [DateTime T] (t : T) : Decidable (ExactOnWire t) :=
  inferInstanceAs (Decidable (_ ∨ _))

variable [DateTime T] [LawfulDateTime T]

lemma datetimeFromMicros_of_exact {t : T} (h : ExactOnWire t) :
    datetimeFromMicros (DateTime.timestamp t) = .ok t := by
  have hlaw := LawfulDateTime.fromTimestamp_timestamp t
  have hzero : Int64.ofInt ((0 : Int64).toInt / 1000000) = 0 ∧
      UInt32.ofNat ((0 : Int64).toInt % 1000000 * 1000).toNat = 0 := by decide
  have hone : Int64.ofInt ((-1 : Int64).toInt / 1000000) = -1 ∧
      UInt32.ofNat ((-1 : Int64).toInt % 1000000 * 1000).toNat = 999999000 := by decide
  rcases h with ⟨hs, hn⟩ | ⟨hs, hn⟩ <;> rw [hs, hn] at hlaw <;> rw [hs, datetimeFromMicros]
  · simp only [hzero, hlaw]
  · simp only [hone, hlaw]

omit [LawfulDateTime T] in
/-- What the decoder makes of a number it takes for microseconds. -/
lemma datetimeFromMicros_eq_ok [ExactDateTime T] {i : Int64} {t : T}
    (h : datetimeFromMicros i = .ok t) :
    (DateTime.timestamp t).toInt = i.toInt / 1000000 ∧
      (DateTime.timestampSubsecNanos t).toNat = (i.toInt % 1000000 * 1000).toNat := by
  have hlo := Int64.le_toInt i
  have hhi := Int64.toInt_lt i
  simp only [datetimeFromMicros] at h
  split at h
  next => cases h
  next t' ht =>
    cases h
    obtain ⟨hs, hn⟩ := ExactDateTime.timestamp_fromTimestamp ht
    rw [hs, hn]
    exact ⟨Int64.toInt_ofInt_of_le (by omega) (by omega),
      UInt32.toNat_ofNat_of_lt' (by simp [UInt32.size]; omega)⟩

/-- How far a timestamp is from the points that survive the wire. -/
def wireDistance (t : T) : Nat :=
  let s := (DateTime.timestamp t).toInt
  2 * (if 0 ≤ s then s else -1 - s).toNat + if ExactOnWire t then 0 else 1

/-- Misreading seconds as microseconds moves a timestamp closer to the points that survive,
unless it is one of them. -/
lemma wireDistance_reread {t t' : T} (h : datetimeFromMicros (DateTime.timestamp t) = .ok t') :
    wireDistance t' ≤ wireDistance t ∧ (wireDistance t' = wireDistance t → ExactOnWire t) := by
  by_cases hex : ExactOnWire t
  · rw [datetimeFromMicros_of_exact hex] at h
    cases h
    exact ⟨le_rfl, fun _ => hex⟩
  obtain ⟨hs, hn⟩ := datetimeFromMicros_eq_ok h
  suffices hlt : wireDistance t' < wireDistance t from ⟨hlt.le, fun he => absurd he hlt.ne⟩
  -- once the seconds are `0` or `-1` the timestamp read is an exact one
  have hex' : (DateTime.timestamp t).toInt = 0 ∨ (DateTime.timestamp t).toInt = -1 →
      ExactOnWire t' := by
    rintro (h0 | h0) <;> rw [h0] at hs hn
    · exact .inl ⟨Int64.toInt_inj.1 (by simpa using hs), UInt32.toNat_inj.1 (by simpa using hn)⟩
    · exact .inr ⟨Int64.toInt_inj.1 (by simpa using hs), UInt32.toNat_inj.1 (by simpa using hn)⟩
  simp only [wireDistance, hex, if_false, hs]
  generalize (DateTime.timestamp t).toInt = s at hex' ⊢
  by_cases hs' : s = 0 ∨ s = -1
  · rw [if_pos (hex' hs')]
    split <;> split <;> omega
  · split <;> split <;> split <;> omega

end Util

/-! ### Identifiers, enums and labels -/

@[simp] lemma DamlIdentifier.ofIdentifier_toIdentifier (id : DamlIdentifier) :
    ofIdentifier id.toIdentifier = id := rfl

@[simp] lemma DamlIdentifier.ofIdentifier_comp_toIdentifier :
    ofIdentifier ∘ toIdentifier = id := rfl

@[simp] lemma DamlEnum.ofEnum_toEnum (e : DamlEnum) : ofEnum e.toEnum = e := by
  simp [ofEnum, toEnum]

/-- The label read back: an empty label is taken for an absent one. -/
def rereadLabel (l : Option String) : Option String :=
  if (l.getD "").isEmpty then none else some (l.getD "")

lemma rereadLabel_eq_self {l : Option String} (h : l ≠ some "") : rereadLabel l = l := by
  cases l with
  | none => rfl
  | some s =>
    have hs : s.isEmpty = false := by simpa using h
    simp [rereadLabel, hs]

namespace DamlValue

section Weight

variable {N D T : Type} [DateTime T]

/-! ### The timestamps of a value -/

/-- All timestamps of a value, at any depth, survive the wire. -/
def TimestampsExact (v : DamlValue N D T) : Prop := ∀ t ∈ v.timestamps, ExactOnWire t

/-- The distances of all timestamps of a value from the points that survive. -/
def wireWeight (v : DamlValue N D T) : Nat := (v.timestamps.map wireDistance).sum

variable (r : DamlRecord (DamlValue N D T)) (x : DamlVariant (DamlValue N D T))
  (vs : List (DamlValue N D T)) (m : List (String × DamlValue N D T))
  (g : List (DamlValue N D T × DamlValue N D T))

@[simp] lemma timestampsExact_record :
    TimestampsExact (.record r) ↔ ∀ f ∈ r.fields, f.value.TimestampsExact := by
  simp only [TimestampsExact, timestamps_record, List.mem_flatMap]
  exact ⟨fun h f hf t ht => h t ⟨f, hf, ht⟩, fun h t ⟨f, hf, ht⟩ => h f hf t ht⟩

@[simp] lemma timestampsExact_variant :
    TimestampsExact (.variant x) ↔ x.value.TimestampsExact := by
  simp [TimestampsExact]

@[simp] lemma timestampsExact_list :
    TimestampsExact (.list vs) ↔ ∀ v ∈ vs, v.TimestampsExact := by
  simp only [TimestampsExact, timestamps_list, List.mem_flatMap]
  exact ⟨fun h v hv t ht => h t ⟨v, hv, ht⟩, fun h t ⟨v, hv, ht⟩ => h v hv t ht⟩

@[simp] lemma timestampsExact_some (v : DamlValue N D T) :
    TimestampsExact (.optional (some v)) ↔ v.TimestampsExact := by
  simp [TimestampsExact]

@[simp] lemma timestampsExact_textMap :
    TimestampsExact (.textMap m) ↔ ∀ p ∈ m, p.2.TimestampsExact := by
  simp only [TimestampsExact, timestamps_textMap, List.mem_flatMap]
  exact ⟨fun h p hp t ht => h t ⟨p, hp, ht⟩, fun h t ⟨p, hp, ht⟩ => h p hp t ht⟩

@[simp] lemma timestampsExact_genMap : TimestampsExact (.genMap g) ↔
    ∀ p ∈ g, p.1.TimestampsExact ∧ p.2.TimestampsExact := by
  simp only [TimestampsExact, timestamps_genMap, List.mem_flatMap, List.mem_append]
  exact ⟨fun h p hp => ⟨fun t ht => h t ⟨p, hp, .inl ht⟩, fun t ht => h t ⟨p, hp, .inr ht⟩⟩,
    fun h t ⟨p, hp, ht⟩ => ht.elim ((h p hp).1 t) ((h p hp).2 t)⟩

@[simp] lemma wireWeight_record :
    wireWeight (.record r) = (r.fields.map fun f => f.value.wireWeight).sum := by
  simp [wireWeight, List.sum_map_flatMap]

@[simp] lemma wireWeight_variant : wireWeight (.variant x) = x.value.wireWeight := by
  simp [wireWeight]

@[simp] lemma wireWeight_list : wireWeight (.list vs) = (vs.map wireWeight).sum := by
  rw [wireWeight, timestamps_list, List.sum_map_flatMap]
  rfl

@[simp] lemma wireWeight_some (v : DamlValue N D T) :
    wireWeight (.optional (some v)) = v.wireWeight := by
  simp [wireWeight]

@[simp] lemma wireWeight_textMap :
    wireWeight (.textMap m) = (m.map fun p => p.2.wireWeight).sum := by
  simp [wireWeight, List.sum_map_flatMap]

@[simp] lemma wireWeight_genMap :
    wireWeight (.genMap g) = (g.map fun p => p.1.wireWeight + p.2.wireWeight).sum := by
  simp [wireWeight, List.sum_map_flatMap]

end Weight

variable {N D T : Type} [BigDecimal N] [NaiveDate D] [DateTime T]

/-! ### What decoding an encoded value amounts to -/

lemma tryFromRecordFields_toRecordFields_cons (f : DamlRecordField (DamlValue N D T))
    (fs : List (DamlRecordField (DamlValue N D T))) :
    tryFromRecordFields (toRecordFields (f :: fs)) = (do
      let value : DamlValue N D T ← tryFrom f.value.toValue
      return ⟨rereadLabel f.label, value⟩ :: (← tryFromRecordFields (toRecordFields fs))) := rfl

lemma tryFromRecordFields_toRecordFields {fs gs : List (DamlRecordField (DamlValue N D T))} :
    tryFromRecordFields (toRecordFields fs) = .ok gs ↔
      List.Forall₂ (fun f g => rereadLabel f.label = g.label ∧
        tryFrom f.value.toValue = .ok g.value) fs gs := by
  induction fs generalizing gs with
  | nil =>
    show (Except.ok [] : DamlResult _) = .ok gs ↔ _
    cases gs <;> simp
  | cons f fs ih =>
    rw [tryFromRecordFields_toRecordFields_cons]
    simp only [Except.bind_eq_ok, Except.pure_eq_ok, ih]
    constructor
    · rintro ⟨v, hv, gs', hgs, rfl⟩
      exact .cons ⟨rfl, hv⟩ hgs
    · rintro (_ | ⟨⟨hl, hv⟩, hgs⟩)
      exact ⟨_, hv, _, hgs, by rw [hl]⟩

lemma tryFromValues_toValues_cons (v : DamlValue N D T) (vs : List (DamlValue N D T)) :
    (tryFromValues (toValues (v :: vs)) : DamlResult (List (DamlValue N D T))) = (do
      return (← tryFrom v.toValue) :: (← tryFromValues (toValues vs))) := rfl

lemma tryFromValues_toValues {vs ws : List (DamlValue N D T)} :
    tryFromValues (toValues vs) = .ok ws ↔
      List.Forall₂ (fun v w => tryFrom v.toValue = .ok w) vs ws := by
  induction vs generalizing ws with
  | nil =>
    show (Except.ok [] : DamlResult _) = .ok ws ↔ _
    cases ws <;> simp
  | cons v vs ih =>
    rw [tryFromValues_toValues_cons]
    simp only [Except.bind_eq_ok, Except.pure_eq_ok, ih]
    constructor
    · rintro ⟨w, hw, ws', hws, rfl⟩
      exact .cons hw hws
    · rintro (_ | ⟨hw, hws⟩)
      exact ⟨_, hw, _, hws, rfl⟩

lemma tryFromTextMapEntries_toTextMapEntries_cons (p : String × DamlValue N D T)
    (m : List (String × DamlValue N D T)) :
    tryFromTextMapEntries (toTextMapEntries (p :: m)) = (do
      let value : DamlValue N D T ← tryFrom p.2.toValue
      return (p.1, value) :: (← tryFromTextMapEntries (toTextMapEntries m))) := rfl

lemma tryFromTextMapEntries_toTextMapEntries {m m' : List (String × DamlValue N D T)} :
    tryFromTextMapEntries (toTextMapEntries m) = .ok m' ↔
      List.Forall₂ (fun p q => p.1 = q.1 ∧ tryFrom p.2.toValue = .ok q.2) m m' := by
  induction m generalizing m' with
  | nil =>
    show (Except.ok [] : DamlResult _) = .ok m' ↔ _
    cases m' <;> simp
  | cons p m ih =>
    rw [tryFromTextMapEntries_toTextMapEntries_cons]
    simp only [Except.bind_eq_ok, Except.pure_eq_ok, ih]
    constructor
    · rintro ⟨v, hv, m', hm', rfl⟩
      exact .cons ⟨rfl, hv⟩ hm'
    · rintro (_ | ⟨⟨hk, hv⟩, hm'⟩)
      exact ⟨_, hv, _, hm', by rw [hk]⟩

lemma tryFromGenMapEntries_toGenMapEntries_cons (p : DamlValue N D T × DamlValue N D T)
    (m : List (DamlValue N D T × DamlValue N D T)) :
    tryFromGenMapEntries (toGenMapEntries (p :: m)) = (do
      let key : DamlValue N D T ← tryFrom p.1.toValue
      let value : DamlValue N D T ← tryFrom p.2.toValue
      return (key, value) :: (← tryFromGenMapEntries (toGenMapEntries m))) := rfl

lemma tryFromGenMapEntries_toGenMapEntries {m m' : List (DamlValue N D T × DamlValue N D T)} :
    tryFromGenMapEntries (toGenMapEntries m) = .ok m' ↔
      List.Forall₂ (fun p q => tryFrom p.1.toValue = .ok q.1 ∧ tryFrom p.2.toValue = .ok q.2)
        m m' := by
  induction m generalizing m' with
  | nil =>
    show (Except.ok [] : DamlResult _) = .ok m' ↔ _
    cases m' <;> simp
  | cons p m ih =>
    rw [tryFromGenMapEntries_toGenMapEntries_cons]
    simp only [Except.bind_eq_ok, Except.pure_eq_ok, ih]
    constructor
    · rintro ⟨k, hk, v, hv, m', hm', rfl⟩
      exact .cons ⟨hk, hv⟩ hm'
    · rintro (_ | ⟨⟨hk, hv⟩, hm'⟩)
      exact ⟨_, hk, _, hv, _, hm', rfl⟩

/-! ### Values that survive -/

section Exact

variable [LawfulBigDecimal N] [LawfulNaiveDate D] [LawfulDateTime T]

/-- A value whose timestamps survive is decoded to an equal value. -/
theorem tryFrom_toValue_of_exact (v : DamlValue N D T) (hv : v.Valid)
    (hl : ∀ l ∈ v.labels, l ≠ some "") (ht : ∀ t ∈ v.timestamps, ExactOnWire t) :
    ∃ w, tryFrom v.toValue = .ok w ∧ v.beq w ∧ w.Valid := by
  induction v with
  | record r ih =>
    cases hv with | record hv =>
    simp only [labels_record, timestamps_record, List.mem_append, List.mem_flatMap,
      List.mem_map] at hl ht
    have hfs : ∀ f ∈ r.fields, ∃ g : DamlRecordField (DamlValue N D T),
        (rereadLabel f.label = g.label ∧ tryFrom f.value.toValue = .ok g.value) ∧
          (f.label = g.label ∧ f.value.beq g.value) ∧ g.value.Valid := fun f hf => by
      obtain ⟨w, hw, hbeq, hval⟩ := ih f hf (hv f hf) (fun l h => hl l (.inr ⟨f, hf, h⟩))
        (fun t h => ht t ⟨f, hf, h⟩)
      exact ⟨⟨f.label, w⟩, ⟨rereadLabel_eq_self (hl _ (.inl ⟨f, hf, rfl⟩)), hw⟩,
        ⟨rfl, hbeq⟩, hval⟩
    obtain ⟨gs, hgs⟩ := List.exists_forall₂ hfs
    refine ⟨.record ⟨r.recordId, gs⟩, ?_, ?_, ?_⟩
    · simp only [toValue, tryFrom, Except.bind_eq_ok, Except.pure_eq_ok]
      exact ⟨gs, tryFromRecordFields_toRecordFields.2 (hgs.imp fun _ _ h => h.1), by simp⟩
    · simpa [beq] using beqFields_iff.2 (hgs.imp fun _ _ h => h.2.1)
    · refine .record fun g hg => ?_
      obtain ⟨f, _, h⟩ := hgs.exists_left hg
      exact h.2.2
  | variant x ih =>
    cases hv with | variant hv =>
    obtain ⟨w, hw, hbeq, hval⟩ := ih hv (by simpa using hl) (by simpa using ht)
    refine ⟨.variant ⟨x.variantId, x.constructor, w⟩, ?_, by simpa [beq] using hbeq, .variant hval⟩
    simp [toValue, tryFrom, hw]
  | list vs ih =>
    cases hv with | list hv =>
    simp only [labels_list, timestamps_list, List.mem_flatMap] at hl ht
    obtain ⟨ws, hws⟩ := List.exists_forall₂ fun v h =>
      ih v h (hv v h) (fun l h' => hl l ⟨v, h, h'⟩) (fun t h' => ht t ⟨v, h, h'⟩)
    refine ⟨.list ws, ?_, ?_, ?_⟩
    · simp only [toValue, tryFrom, Except.bind_eq_ok, Except.pure_eq_ok]
      exact ⟨ws, tryFromValues_toValues.2 (hws.imp fun _ _ h => h.1), rfl⟩
    · simpa [beq] using beqList_iff.2 (hws.imp fun _ _ h => h.2.1)
    · refine .list fun w hw => ?_
      obtain ⟨v, _, h⟩ := hws.exists_left hw
      exact h.2.2
  | optional o ih =>
    rcases o with _ | v
    · exact ⟨.optional none, rfl, rfl, .optional (by simp)⟩
    · cases hv with | optional hv =>
      obtain ⟨w, hw, hbeq, hval⟩ := ih v rfl (hv v rfl) (by simpa using hl) (by simpa using ht)
      refine ⟨.optional (some w), ?_, by simpa [beq] using hbeq,
        .optional (by rintro _ ⟨⟩; exact hval)⟩
      simp [toValue, tryFrom, hw]
  | textMap m ih =>
    cases hv with | textMap hnd hv =>
    simp only [labels_textMap, timestamps_textMap, List.mem_flatMap] at hl ht
    have hm : ∀ p ∈ m, ∃ q : String × DamlValue N D T,
        (p.1 = q.1 ∧ tryFrom p.2.toValue = .ok q.2) ∧ p.2.beq q.2 ∧ q.2.Valid := fun p hp => by
      obtain ⟨w, hw, hbeq, hval⟩ := ih p hp (hv p hp) (fun l h => hl l ⟨p, hp, h⟩)
        (fun t h => ht t ⟨p, hp, h⟩)
      exact ⟨(p.1, w), ⟨rfl, hw⟩, hbeq, hval⟩
    obtain ⟨m', hm'⟩ := List.exists_forall₂ hm
    -- the keys come back unchanged, so collecting them into a hash map drops none
    have hkeys : AssocMap.keys m = AssocMap.keys m' :=
      AssocMap.keys_eq_of_forall₂ (hm'.imp fun _ _ h => h.1.1)
    have hnd' : (AssocMap.keys m').Nodup := hkeys ▸ hnd
    refine ⟨.textMap m', ?_, ?_, .textMap hnd' fun q hq => ?_⟩
    · simp only [toValue, tryFrom, Except.bind_eq_ok, Except.pure_eq_ok]
      exact ⟨m', tryFromTextMapEntries_toTextMapEntries.2 (hm'.imp fun _ _ h => h.1),
        by rw [AssocMap.ofList_eq_self hnd']⟩
    · rw [beq, Bool.and_eq_true, beq_iff_eq, beqLookups_iff]
      refine ⟨hm'.length_eq, fun p hp => ?_⟩
      obtain ⟨q, hq, ⟨hk, _⟩, hbeq, _⟩ := hm'.exists_right hp
      exact ⟨q.2, (AssocMap.lookup_eq_some_iff hnd').2 (hk ▸ hq), hbeq⟩
    · obtain ⟨p, _, h⟩ := hm'.exists_left hq
      exact h.2.2
  | genMap m ih =>
    cases hv with | genMap hasc hvk hv =>
    simp only [labels_genMap, timestamps_genMap, List.mem_flatMap, List.mem_append] at hl ht
    have hm : ∀ p ∈ m, ∃ q : DamlValue N D T × DamlValue N D T,
        (tryFrom p.1.toValue = .ok q.1 ∧ tryFrom p.2.toValue = .ok q.2) ∧
          (p.1.beq q.1 ∧ p.2.beq q.2) ∧ (q.1.Valid ∧ q.2.Valid) ∧ cmp p.1 q.1 = .eq :=
      fun p hp => by
        obtain ⟨k, hk, hbeq, hval⟩ := (ih p hp).1 (hvk p hp) (fun l h => hl l ⟨p, hp, .inl h⟩)
          (fun t h => ht t ⟨p, hp, .inl h⟩)
        obtain ⟨w, hw, hbeq', hval'⟩ := (ih p hp).2 (hv p hp) (fun l h => hl l ⟨p, hp, .inr h⟩)
          (fun t h => ht t ⟨p, hp, .inr h⟩)
        exact ⟨(k, w), ⟨hk, hw⟩, ⟨hbeq, hbeq'⟩, ⟨hval, hval'⟩,
          (cmp_eq_eq_iff (hvk p hp) hval).2 hbeq⟩
    obtain ⟨m', hm'⟩ := List.exists_forall₂ hm
    -- the keys read back compare as the original ones, so they are in order and distinct
    have hasc' : (AssocMap.keys m').Pairwise fun k₁ k₂ => cmp k₁ k₂ = .lt := by
      refine List.pairwise_map.2 (hm'.pairwise (List.pairwise_map.1 hasc) ?_)
      intro p p' q q' h h' hlt
      rw [partialCmp_eq_some_cmp, Option.some.injEq] at hlt
      rwa [← Std.TransCmp.congr_left h.2.2.2, ← Std.TransCmp.congr_right h'.2.2.2]
    have hval : ∀ q ∈ m', q.1.Valid ∧ q.2.Valid := fun q hq => by
      obtain ⟨p, _, h⟩ := hm'.exists_left hq
      exact h.2.2.1
    refine ⟨.genMap m', ?_, ?_, .genMap ?_ (fun q hq => (hval q hq).1) fun q hq => (hval q hq).2⟩
    · simp only [toValue, tryFrom, Except.bind_eq_ok, Except.pure_eq_ok]
      exact ⟨m', tryFromGenMapEntries_toGenMapEntries.2 (hm'.imp fun _ _ h => h.1),
        by rw [AssocMap.ofListSorted_eq_self hasc']⟩
    · simpa [beq] using beqPairs_iff.2 (hm'.imp fun _ _ h => h.2.1)
    · exact hasc'.imp fun h => by rw [partialCmp_eq_some_cmp, h]
  | numeric n =>
    obtain ⟨n', hn, hbeq⟩ := LawfulBigDecimal.fromStr_toPlainString n
    exact ⟨.numeric n', by simp only [toValue, tryFrom, hn], hbeq, .numeric n'⟩
  | timestamp t =>
    have hex : ExactOnWire t := ht t (by simp)
    refine ⟨.timestamp t, ?_, by simp [beq], .timestamp t⟩
    simp [toValue, tryFrom, datetimeFromMicros_of_exact hex]
  | date d =>
    refine ⟨.date d, ?_, by simp [beq], .date d⟩
    simp [toValue, tryFrom, dateFromDays_daysFromDate]
  | enum e => exact ⟨.enum e, by simp [toValue, tryFrom], by simp [beq], .enum e⟩
  | contractId c => exact ⟨.contractId c, by simp [toValue, tryFrom], by simp [beq], .contractId c⟩
  | party p => exact ⟨.party p, by simp [toValue, tryFrom], by simp [beq], .party p⟩
  | int64 i => exact ⟨.int64 i, by simp [toValue, tryFrom], by simp [beq], .int64 i⟩
  | text s => exact ⟨.text s, by simp [toValue, tryFrom], by simp [beq], .text s⟩
  | bool b => exact ⟨.bool b, by simp [toValue, tryFrom], by simp [beq], .bool b⟩
  | unit => exact ⟨.unit, by simp [toValue, tryFrom], by simp [beq], .unit⟩

end Exact

/-! ### No other value survives -/

section Weight

variable [LawfulDateTime T]

/-- Decoding an encoded value never increases the weight, and keeps it only for a value whose
timestamps survive. -/
lemma wireWeight_tryFrom {v w : DamlValue N D T} (hv : v.Valid)
    (h : tryFrom v.toValue = .ok w) :
    w.wireWeight ≤ v.wireWeight ∧ (w.wireWeight = v.wireWeight → v.TimestampsExact) := by
  have leaf : ∀ {v' w' : DamlValue N D T}, w'.timestamps = [] → v'.timestamps = [] →
      w'.wireWeight ≤ v'.wireWeight ∧ (w'.wireWeight = v'.wireWeight → v'.TimestampsExact) :=
    fun hw hv => by simp [wireWeight, TimestampsExact, hw, hv]
  induction v generalizing w with
  | record r ih =>
    cases hv with | record hv =>
    simp only [toValue, tryFrom, Except.bind_eq_ok, Except.pure_eq_ok] at h
    obtain ⟨gs, hgs, rfl⟩ := h
    rw [wireWeight_record, wireWeight_record, timestampsExact_record]
    exact List.Forall₂.sum_le ((tryFromRecordFields_toRecordFields.1 hgs).imp_of_mem
      fun f hf _ _ h => ih f hf (hv f hf) h.2)
  | variant x ih =>
    cases hv with | variant hv =>
    simp only [toValue, tryFrom, Except.bind_eq_ok, Except.pure_eq_ok] at h
    obtain ⟨w, hw, rfl⟩ := h
    simpa using ih hv hw
  | list vs ih =>
    cases hv with | list hv =>
    simp only [toValue, tryFrom, Except.bind_eq_ok, Except.pure_eq_ok] at h
    obtain ⟨ws, hws, rfl⟩ := h
    rw [wireWeight_list, wireWeight_list, timestampsExact_list]
    exact List.Forall₂.sum_le ((tryFromValues_toValues.1 hws).imp_of_mem
      fun v h _ _ hw => ih v h (hv v h) hw)
  | optional o ih =>
    cases hv with | optional hv =>
    rcases o with _ | v
    · cases h
      exact leaf (by simp) (by simp)
    · simp only [toValue, tryFrom, Except.bind_eq_ok, Except.pure_eq_ok] at h
      obtain ⟨w, hw, rfl⟩ := h
      simpa using ih v rfl (hv v rfl) hw
  | textMap m ih =>
    cases hv with | textMap hnd hv =>
    simp only [toValue, tryFrom, Except.bind_eq_ok, Except.pure_eq_ok] at h
    obtain ⟨m', hm', rfl⟩ := h
    have hm' := tryFromTextMapEntries_toTextMapEntries.1 hm'
    have hkeys := AssocMap.keys_eq_of_forall₂ (hm'.imp fun _ _ h => h.1)
    rw [AssocMap.ofList_eq_self (hkeys ▸ hnd), wireWeight_textMap, wireWeight_textMap,
      timestampsExact_textMap]
    exact List.Forall₂.sum_le (hm'.imp_of_mem fun p hp _ _ h => ih p hp (hv p hp) h.2)
  | genMap m ih =>
    cases hv with | genMap _ hvk hv =>
    simp only [toValue, tryFrom, Except.bind_eq_ok, Except.pure_eq_ok] at h
    obtain ⟨m', hm', rfl⟩ := h
    rw [wireWeight_genMap, wireWeight_genMap, timestampsExact_genMap]
    -- the decoded entries weigh at most as much, and collecting them can only drop some
    have hdecoded := List.Forall₂.sum_le (f := fun p => p.1.wireWeight + p.2.wireWeight)
      (g := fun p => p.1.wireWeight + p.2.wireWeight)
      (P := fun p => p.1.TimestampsExact ∧ p.2.TimestampsExact)
      ((tryFromGenMapEntries_toGenMapEntries.1 hm').imp_of_mem fun p hp q _ h => by
        obtain ⟨hk, hkx⟩ := (ih p hp).1 (hvk p hp) h.1
        obtain ⟨hw, hwx⟩ := (ih p hp).2 (hv p hp) h.2
        exact ⟨by omega, fun he => ⟨hkx (by omega), hwx (by omega)⟩⟩)
    have hcollected := (AssocMap.subperm_ofListSorted cmp m').sum_map_le
      fun p => p.1.wireWeight + p.2.wireWeight
    exact ⟨by omega, fun he => hdecoded.2 (by omega)⟩
  | timestamp t =>
    simp only [toValue, tryFrom, Except.bind_eq_ok, Except.pure_eq_ok] at h
    obtain ⟨t', ht, rfl⟩ := h
    simpa [wireWeight, TimestampsExact] using wireDistance_reread ht
  | numeric n =>
    simp only [toValue, tryFrom] at h
    split at h
    · cases h
      exact leaf rfl rfl
    · cases h
  | date d =>
    simp only [toValue, tryFrom, Except.bind_eq_ok, Except.pure_eq_ok] at h
    obtain ⟨d', hd, rfl⟩ := h
    exact leaf rfl rfl
  | _ =>
    cases h
    exact leaf rfl rfl

omit [LawfulDateTime T] in
/-- Equal values have the same weight. -/
lemma wireWeight_eq_of_beq [LawfulBEq T] {v w : DamlValue N D T} (hv : v.Valid)
    (h : v.beq w) : v.wireWeight = w.wireWeight := by
  have leaf : ∀ {v' w' : DamlValue N D T}, w'.timestamps = [] → v'.timestamps = [] →
      v'.wireWeight = w'.wireWeight := fun hw hv => by simp [wireWeight, hw, hv]
  induction v generalizing w with
  | record r ih =>
    cases hv with | record hv =>
    cases w with
    | record s =>
      simp only [beq, Bool.and_eq_true, beqFields_iff] at h
      rw [wireWeight_record, wireWeight_record]
      exact List.Forall₂.sum_eq (h.2.imp_of_mem fun f hf _ _ h => ih f hf (hv f hf) h.2)
    | _ => simp [beq] at h
  | variant x ih =>
    cases hv with | variant hv =>
    cases w with
    | variant y =>
      simp only [beq, Bool.and_eq_true] at h
      simpa using ih hv h.2
    | _ => simp [beq] at h
  | list vs ih =>
    cases hv with | list hv =>
    cases w with
    | list ws =>
      simp only [beq, beqList_iff] at h
      rw [wireWeight_list, wireWeight_list]
      exact List.Forall₂.sum_eq (h.imp_of_mem fun v hmem _ _ h => ih v hmem (hv v hmem) h)
    | _ => simp [beq] at h
  | optional o ih =>
    cases hv with | optional hv =>
    cases w with
    | optional p =>
      rcases o with _ | v <;> rcases p with _ | w
      · rfl
      · simp [beq] at h
      · simp [beq] at h
      · simpa using ih v rfl (hv v rfl) (by simpa [beq] using h)
    | _ => simp [beq] at h
  | textMap m ih =>
    cases hv with | textMap hnd hv =>
    cases w with
    | textMap m' =>
      have hlookup : m.length = m'.length ∧ ∀ p ∈ m, ∃ w, m'.lookup p.1 = some w ∧ p.2.beq w := by
        simpa only [beq, Bool.and_eq_true, beq_iff_eq, beqLookups_iff] using h
      -- equal maps have the same keys, so the other one has none twice either
      have hnd' : (AssocMap.keys m').Nodup := (AssocMap.perm_keys_of_lookups hnd
        hlookup.1 fun p hp => (hlookup.2 p hp).imp fun _ h => h.1).nodup_iff.1 hnd
      have hsorted := (beq_textMap_iff hnd hnd').1 h
      -- the weight is a sum over the entries, whose order does not matter: take them sorted
      rw [wireWeight_textMap, wireWeight_textMap,
        ← ((AssocMap.perm_sortByKey compare m).map _).sum_eq,
        ← ((AssocMap.perm_sortByKey compare m').map _).sum_eq]
      refine List.Forall₂.sum_eq (hsorted.imp_of_mem fun p hp _ _ h => ?_)
      rw [AssocMap.mem_sortByKey] at hp
      exact ih p hp (hv p hp) h.2
    | _ => simp [beq] at h
  | genMap m ih =>
    cases hv with | genMap _ hvk hv =>
    cases w with
    | genMap m' =>
      simp only [beq, beqPairs_iff] at h
      rw [wireWeight_genMap, wireWeight_genMap]
      refine List.Forall₂.sum_eq (h.imp_of_mem fun p hp _ _ h => ?_)
      rw [(ih p hp).1 (hvk p hp) h.1, (ih p hp).2 (hv p hp) h.2]
    | _ => simp [beq] at h
  | timestamp t =>
    cases w with
    | timestamp t' =>
      rw [beq, beq_iff_eq] at h
      rw [h]
    | _ => simp [beq] at h
  | _ =>
    cases w <;> first | exact leaf rfl rfl | simp [beq] at h

end Weight

/-- A ledger value survives the wire exactly when every timestamp in it, at any depth, is the
epoch or the last microsecond before it. -/
theorem tryFrom_toValue_iff [LawfulBigDecimal N] [LawfulNaiveDate D] [LawfulDateTime T]
    (v : DamlValue N D T) (hv : v.Valid) (hl : ∀ l ∈ v.labels, l ≠ some "") :
    (∃ w, tryFrom v.toValue = .ok w ∧ v.beq w) ↔ ∀ t ∈ v.timestamps, ExactOnWire t := by
  constructor
  · rintro ⟨w, hw, hbeq⟩
    exact (wireWeight_tryFrom hv hw).2 (wireWeight_eq_of_beq hv hbeq).symm
  · intro ht
    obtain ⟨w, hw, hbeq, -⟩ := tryFrom_toValue_of_exact v hv hl ht
    exact ⟨w, hw, hbeq⟩

/-- A record with the last microsecond before the epoch in it survives. -/
theorem tryFrom_toValue_iff_before_epoch :
    let v : DamlValue Int GregorianDay UtcInstant :=
      .record ⟨none, [⟨some "at", .timestamp ⟨-1, 999999000, by decide⟩⟩, ⟨none, .numeric 5⟩]⟩
    ∃ w, tryFrom v.toValue = .ok w ∧ v.beq w := by
  intro v
  have hv : v.Valid := .record (by simp [Valid.timestamp, Valid.numeric])
  exact (tryFrom_toValue_iff v hv (by decide)).2 (by decide)

/-- One second after the epoch comes back as one microsecond after it. -/
theorem tryFrom_toValue_one_second :
    let v : DamlValue Int GregorianDay UtcInstant := .timestamp ⟨1, 0, by decide⟩
    let w : DamlValue Int GregorianDay UtcInstant := .timestamp ⟨0, 1000, by decide⟩
    v.Valid ∧ (∀ l ∈ v.labels, l ≠ some "") ∧ (∀ t ∈ v.timestamps, t.nanos.toNat % 1000 = 0) ∧
      tryFrom v.toValue = .ok w ∧ ¬ ∃ w', tryFrom v.toValue = .ok w' ∧ v.beq w' := by
  intro v w
  have hread : tryFrom v.toValue = .ok w := rfl
  refine ⟨Valid.timestamp _, by decide, by decide, hread, ?_⟩
  rintro ⟨w', hw, hbeq⟩
  rw [hread, Except.ok.injEq] at hw
  subst hw
  exact absurd hbeq (by decide)

end DamlValue

end DamlBindings.Grpc
