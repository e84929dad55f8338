import DamlBindings.Grpc.TypedRead
import DamlBindings.Grpc.WireRoundTrip

/-!
# Typed values on the wire

A value of a generated type is serialised, encoded, decoded and deserialised again.  What comes back
is equal to it exactly if its timestamps survive the wire: the two round trips that this is made of
compose, although each of them gives back equal values only, which may have their hash maps in
another order and their decimals in another notation.
-/

namespace DamlBindings.Grpc

open PartialCmp (ofOrd)

variable {N D T ι : Type}

/-- The types of the user, none with a field without a name. -/
def NamedFields (Γ : TypeEnv ι) : Prop :=
  ∀ n fs, Γ n = some (.record fs) → ∀ f ∈ fs, f.1 ≠ ""

/-- What is received where a value was sent. -/
def overWire [BigDecimal N] [NaiveDate D] [DateTime T] (Γ : TypeEnv ι) (t : RustTy ι)
    (v : RustValue N D T) : DamlResult (RustValue N D T) :=
  match serialize Γ t v with
  | some w => do deserialize Γ t (← (DamlValue.tryFrom w.toValue : DamlResult (DamlValue N D T)))
  | none => .error .missingRequiredField

/-! ### What is sent -/

section Send

variable [Ord N] [Ord D] [Ord T] [Std.TransOrd N] [Std.TransOrd D] [Std.TransOrd T]
  {Γ : TypeEnv ι}

/-- A well-typed value serialises to a valid ledger value with labelled fields and with the same
timestamps. -/
lemma HasTy.exists_serialize {v : RustValue N D T} {t : RustTy ι} (h : HasTy Γ v t)
    (hΓ : NamedFields Γ) : ∃ w, serialize Γ t v = some w ∧ w.Valid ∧
      (∀ l ∈ w.labels, l ≠ some "") ∧ w.timestamps.Perm v.timestamps := by
  induction h with
  | @prim p t hp =>
    refine ⟨p.toDamlValue, rfl, ?_, ?_, .refl _⟩
    · cases p <;> constructor
    · cases p <;> simp [Prim.toDamlValue, DamlValue.labels, DamlValue.subvalues]
  | box _ ih =>
    obtain ⟨w, hw, hrest⟩ := ih
    exact ⟨w, by rw [serialize, hw], hrest⟩
  | @optional o t _ ih =>
    rcases o with _ | v
    · exact ⟨.optional none, rfl, .optional (by simp), by simp, by simp⟩
    · obtain ⟨w, hw, hval, hl, ht⟩ := ih v rfl
      refine ⟨.optional (some w), by rw [serialize, hw]; rfl, ?_, by simpa using hl,
        by simpa using ht⟩
      exact .optional (by rintro _ ⟨⟩; exact hval)
  | @list vs t _ ih =>
    obtain ⟨ws, hws⟩ := List.exists_forall₂ ih
    refine ⟨.list ws, ?_, .list fun w hw => ?_, ?_, ?_⟩
    · rw [serialize, serializeList_eq_some.2 (hws.imp fun _ _ h => h.1)]
      rfl
    · obtain ⟨v, -, h⟩ := hws.exists_left hw
      exact h.2.1
    · simp only [DamlValue.labels_list, List.mem_flatMap]
      rintro l ⟨w, hw, hl⟩
      obtain ⟨v, -, h⟩ := hws.exists_left hw
      exact h.2.2.1 l hl
    · rw [DamlValue.timestamps_list, RustValue.timestamps_list]
      exact (hws.imp fun _ _ h => h.2.2.2).perm_flatMap
  | @textMap m t hnd _ ih =>
    have hentry : ∀ p ∈ m, ∃ q : String × DamlValue N D T, p.1 = q.1 ∧
        serialize Γ t p.2 = some q.2 ∧ q.2.Valid ∧ (∀ l ∈ q.2.labels, l ≠ some "") ∧
          q.2.timestamps.Perm p.2.timestamps := fun p hp => by
      obtain ⟨w, hw⟩ := ih p hp
      exact ⟨(p.1, w), rfl, hw⟩
    obtain ⟨es, hes⟩ := List.exists_forall₂ hentry
    have hkeys := AssocMap.keys_eq_of_forall₂ (hes.imp fun _ _ h => h.1)
    refine ⟨.textMap es, ?_, .textMap (hkeys ▸ hnd) fun q hq => ?_, ?_, ?_⟩
    · rw [serialize, serializeEntries_eq_some.2 (hes.imp fun _ _ h => ⟨h.1, h.2.1⟩),
        Option.map_some, AssocMap.ofList_eq_self (hkeys ▸ hnd)]
    · obtain ⟨p, -, h⟩ := hes.exists_left hq
      exact h.2.2.1
    · simp only [DamlValue.labels_textMap, List.mem_flatMap]
      rintro l ⟨q, hq, hl⟩
      obtain ⟨p, -, h⟩ := hes.exists_left hq
      exact h.2.2.2.1 l hl
    · rw [DamlValue.timestamps_textMap, RustValue.timestamps_textMap]
      exact (hes.imp fun _ _ h => h.2.2.2.2).perm_flatMap
  | @genMap m k t hasc hk _ ihk iht =>
    have hentry : ∀ p ∈ m, ∃ q : DamlValue N D T × DamlValue N D T,
        (serialize Γ k p.1 = some q.1 ∧ serialize Γ t p.2 = some q.2) ∧
          (q.1.Valid ∧ q.2.Valid) ∧ (∀ l ∈ q.1.labels ++ q.2.labels, l ≠ some "") ∧
            (q.1.timestamps ++ q.2.timestamps).Perm (p.1.timestamps ++ p.2.timestamps) :=
      fun p hp => by
        obtain ⟨a, ha, hav, hal, hat⟩ := ihk p hp
        obtain ⟨w, hw, hwv, hwl, hwt⟩ := iht p hp
        refine ⟨(a, w), ⟨ha, hw⟩, ⟨hav, hwv⟩, fun l hl => ?_, hat.append hwt⟩
        exact (List.mem_append.1 hl).elim (hal l) (hwl l)
    obtain ⟨es, hes⟩ := List.exists_forall₂ hentry
    have hperm := AssocMap.perm_ofListSorted (pairwise_serialized_keys
      (fun p _ q _ => reflects p.1 q.1) hasc hk (hes.imp fun _ _ h => h.1))
    have hmem : ∀ q ∈ AssocMap.ofListSorted DamlValue.cmp es, ∃ p ∈ m, _ :=
      fun q hq => hes.exists_left (hperm.mem_iff.1 hq)
    refine ⟨.genMap (AssocMap.ofListSorted DamlValue.cmp es), ?_, .genMap ?_ (fun q hq => ?_)
      fun q hq => ?_, ?_, ?_⟩
    · rw [serialize, serializePairs_eq_some.2 (hes.imp fun _ _ h => h.1)]
      rfl
    · exact (AssocMap.pairwise_keys_ofListSorted es).imp fun h => by
        rw [DamlValue.partialCmp_eq_some_cmp, h]
    · obtain ⟨p, -, h⟩ := hmem q hq
      exact h.2.1.1
    · obtain ⟨p, -, h⟩ := hmem q hq
      exact h.2.1.2
    · simp only [DamlValue.labels_genMap, List.mem_flatMap]
      rintro l ⟨q, hq, hl⟩
      obtain ⟨p, -, h⟩ := hmem q hq
      exact h.2.2.1 l hl
    · rw [DamlValue.timestamps_genMap, RustValue.timestamps_genMap]
      exact (hperm.flatMap_right _).trans (hes.imp fun _ _ h => h.2.2.2).perm_flatMap
  | @record n args fs vs hn hlen _ ih =>
    have hfield : ∀ p ∈ fs.zip vs, ∃ g : DamlRecordField (DamlValue N D T),
        some p.1.1 = g.label ∧ serialize Γ (p.1.2.inst args) p.2 = some g.value ∧ g.value.Valid ∧
          (∀ l ∈ g.value.labels, l ≠ some "") ∧ g.value.timestamps.Perm p.2.timestamps :=
      fun p hp => by
        obtain ⟨w, hw⟩ := ih p hp
        exact ⟨⟨some p.1.1, w⟩, rfl, hw⟩
    obtain ⟨gs, hgs⟩ := List.exists_forall₂ hfield
    refine ⟨.record ⟨none, gs⟩, ?_, .record fun g hg => ?_, ?_, ?_⟩
    · simp only [serialize, hn, Option.map_eq_some_iff, serializeFields_eq_some hlen]
      exact ⟨gs, hgs.imp fun _ _ h => ⟨h.1, h.2.1⟩, rfl⟩
    · obtain ⟨p, -, h⟩ := hgs.exists_left hg
      exact h.2.2.1
    · simp only [DamlValue.labels_record, List.mem_append, List.mem_map, List.mem_flatMap]
      rintro l (⟨g, hg, rfl⟩ | ⟨g, hg, hl⟩)
      · obtain ⟨p, hp, h⟩ := hgs.exists_left hg
        rw [← h.1]
        simpa using hΓ n fs hn p.1 (List.of_mem_zip hp).1
      · obtain ⟨p, -, h⟩ := hgs.exists_left hg
        exact h.2.2.2.1 l hl
    · rw [DamlValue.timestamps_record, RustValue.timestamps_record]
      have hvs : ((fs.zip vs).flatMap fun p => p.2.timestamps) =
          vs.flatMap RustValue.timestamps := by
        rw [← List.flatMap_map Prod.snd RustValue.timestamps, List.map_snd_zip (by omega)]
      rw [← hvs]
      exact (hgs.imp fun _ _ h => h.2.2.2.2).perm_flatMap
  | @unitVariant n args cs hd i c t hn hc hu =>
    refine ⟨.variant ⟨none, c, .unit⟩, by simp [serialize, hn, hc, hu], .variant .unit, ?_, ?_⟩
    · simp [DamlValue.labels, DamlValue.subvalues]
    · rw [DamlValue.timestamps_variant, RustValue.timestamps_variant]
      rfl
  | @variant n args cs hd i c t v hn hc hu _ ih =>
    obtain ⟨w, hw, hval, hl, ht⟩ := ih
    exact ⟨.variant ⟨none, c, w⟩, by simp [serialize, hn, hc, hu, hw], .variant hval,
      by simpa using hl, by simpa using ht⟩
  | @enum n args cs hd i c hn hc =>
    exact ⟨.enum ⟨none, c⟩, by simp [serialize, hn, hc], .enum _,
      by simp [DamlValue.labels, DamlValue.subvalues], .refl _⟩

end Send

/-! ### What is received -/

section Receive

variable [Ord N] [Ord D] [Ord T] {Γ : TypeEnv ι}

lemma DamlValue.ordinal_eq_of_partialCmp {a b : DamlValue N D T}
    (h : DamlValue.partialCmp a b = some .eq) : a.ordinal = b.ordinal := by
  by_contra hne
  rw [DamlValue.partialCmp_of_ordinal_ne a b hne, Option.some.injEq, compare_eq_iff_eq] at h
  exact hne h

/-- A ledger value that compares as equal to what `v` is serialised to is read as a value that
compares as equal to `v`. -/
def Tolerates (Γ : TypeEnv ι) (t : RustTy ι) (v : RustValue N D T) : Prop :=
  ∀ w w', serialize Γ t v = some w → DamlValue.partialCmp w w' = some .eq → w'.Valid →
    ∃ v', deserialize Γ t w' = .ok v' ∧ RustValue.partialCmp v v' = some .eq

lemma tolerates_prim {p : Prim N D T} {t : PrimTy} (hp : p.HasTy t) :
    Tolerates Γ (.prim t) (.prim p) := by
  intro w w' hw heq _
  cases hw
  have hord := DamlValue.ordinal_eq_of_partialCmp heq
  suffices hq : ∃ q, deserializePrim t w' = .ok q ∧ q.toDamlValue = w' by
    obtain ⟨q, hq, rfl⟩ := hq
    refine ⟨.prim q, ?_, heq⟩
    rw [deserialize, hq]
    rfl
  cases p <;> cases t <;> first
    | exact hp.elim
    | (cases w' <;> first | exact ⟨_, rfl, rfl⟩ | cases hord)

lemma tolerates_optional {o : Option (RustValue N D T)} {t : RustTy ι}
    (h : ∀ v ∈ o, Tolerates Γ t v) : Tolerates Γ (.optional t) (.optional o) := by
  intro w w' hw heq hval
  have hord := DamlValue.ordinal_eq_of_partialCmp heq
  rcases o with _ | v
  · cases hw
    cases w' with
    | optional o' =>
      rw [DamlValue.partialCmp_optional, PartialCmp.option_eq_some_eq] at heq
      cases heq
      exact ⟨.optional none, by rw [deserialize], rfl⟩
    | _ => cases hord
  · rw [serialize_optional_some, Option.map_eq_some_iff] at hw
    obtain ⟨x, hx, rfl⟩ := hw
    cases w' with
    | optional o' =>
      rw [DamlValue.partialCmp_optional, PartialCmp.option_eq_some_eq] at heq
      cases heq with | some heq =>
      cases hval with | optional hval =>
      obtain ⟨v', hv', hcmp⟩ := h v rfl _ _ hx heq (hval _ rfl)
      refine ⟨.optional (some v'), ?_, ?_⟩
      · rw [deserialize, hv']
        rfl
      · rw [RustValue.partialCmp_optional, PartialCmp.option_eq_some_eq]
        exact .some hcmp
    | _ => cases hord

lemma tolerates_list {vs : List (RustValue N D T)} {t : RustTy ι}
    (h : ∀ v ∈ vs, Tolerates Γ t v) : Tolerates Γ (.list t) (.list vs) := by
  intro w w' hw heq hval
  have hord := DamlValue.ordinal_eq_of_partialCmp heq
  simp only [serialize_list, Option.map_eq_some_iff, serializeList_eq_some] at hw
  obtain ⟨ws, hws, rfl⟩ := hw
  cases w' with
  | list ws' =>
    cases hval with | list hval =>
    rw [DamlValue.partialCmp_list, PartialCmp.list_eq_some_eq] at heq
    obtain ⟨vs', hvs', hcmp⟩ := hws.exists_answer heq fun v hv w w' hw' hvw hww' =>
      h v hv w w' hvw hww' (hval w' hw')
    refine ⟨.list vs', ?_, ?_⟩
    · rw [deserialize, deserializeList_eq_ok.2 hvs']
      rfl
    · rwa [RustValue.partialCmp_list, PartialCmp.list_eq_some_eq]
  | _ => cases hord

lemma tolerates_textMap {m : List (String × RustValue N D T)} {t : RustTy ι}
    (hnd : (AssocMap.keys m).Nodup) (h : ∀ p ∈ m, Tolerates Γ t p.2) :
    Tolerates Γ (.textMap t) (.textMap m) := by
  intro w w' hw heq hval
  have hord := DamlValue.ordinal_eq_of_partialCmp heq
  simp only [serialize_textMap, Option.map_eq_some_iff, serializeEntries_eq_some] at hw
  obtain ⟨es, hes, rfl⟩ := hw
  rw [AssocMap.ofList_eq_self (AssocMap.keys_eq_of_forall₂ (hes.imp fun _ _ h => h.1) ▸ hnd)] at heq
  cases w' with
  | textMap es' =>
    cases hval with | textMap hnd' hval =>
    rw [DamlValue.partialCmp_textMap, DamlValue.textMapCmp, PartialCmp.andThen_eq_some_eq,
      ofOrd_eq_some_eq, PartialCmp.list_eq_some_eq] at heq
    obtain ⟨hlen, heq⟩ := heq
    have hsorted := AssocMap.forall₂_sortByKey compare
      (R := fun v w => serialize Γ t v = some w) hes
    have hstep : ∀ p ∈ AssocMap.sortByKey compare m, ∀ e, ∀ e' ∈ AssocMap.sortByKey compare es',
        p.1 = e.1 ∧ serialize Γ t p.2 = some e.2 →
          PartialCmp.pair ofOrd DamlValue.partialCmp e e' = some .eq →
            ∃ q : String × RustValue N D T, (e'.1 = q.1 ∧ deserialize Γ t e'.2 = .ok q.2) ∧
              PartialCmp.pair ofOrd RustValue.partialCmp p q = some .eq := by
      intro p hp e e' he' hpe hee'
      rw [PartialCmp.pair, PartialCmp.andThen_eq_some_eq, ofOrd_eq_some_eq] at hee'
      rw [AssocMap.mem_sortByKey] at hp he'
      obtain ⟨v', hv', hcmp⟩ := h p hp _ _ hpe.2 hee'.2 (hval e' he')
      refine ⟨(e'.1, v'), ⟨rfl, hv'⟩, ?_⟩
      rw [PartialCmp.pair, PartialCmp.andThen_eq_some_eq, ofOrd_eq_some_eq]
      exact ⟨by rw [hpe.1, hee'.1], hcmp⟩
    obtain ⟨ds, hds, hcmp⟩ := hsorted.exists_answer heq hstep
    -- what is read from the entries in their own order is the same, sorted by key
    obtain ⟨m', hm', hperm⟩ :=
      List.Forall₂.exists_perm_right (AssocMap.perm_sortByKey compare es').symm hds
    have hkeys := AssocMap.keys_eq_of_forall₂ (hm'.imp fun _ _ h => h.1)
    have hds' : ds = AssocMap.sortByKey compare m' := by
      have hunique := (AssocMap.forall₂_sortByKey compare
        (R := fun w v => deserialize Γ t w = .ok v) hm').flip.trans_of_mem hds
          (T := fun q q' => q = q') fun q _ e q' hqe heq' => by
            obtain ⟨hk, hv⟩ := hqe
            obtain ⟨hk', hv'⟩ := heq'
            exact Prod.ext (hk.symm.trans hk') (Except.ok.inj (hv.symm.trans hv'))
      exact (List.forall₂_eq_eq_eq ▸ hunique).symm
    refine ⟨.textMap m', ?_, ?_⟩
    · rw [deserialize, deserializeEntries_eq_ok.2 hm']
      exact congrArg (fun m => Except.ok (RustValue.textMap m))
        (AssocMap.ofList_eq_self (hkeys ▸ hnd'))
    · rw [RustValue.partialCmp_textMap, RustValue.textMapCmp, PartialCmp.andThen_eq_some_eq,
        ofOrd_eq_some_eq, PartialCmp.list_eq_some_eq, hes.length_eq, hlen, hm'.length_eq, ← hds']
      exact ⟨rfl, hcmp⟩
  | _ => cases hord

/-- The fields that are read are those of the record, each under its label. -/
lemma exists_deserializeFields {args : List (RustTy ι)} {fs : List (String × RustTy ι)}
    {vs : List (RustValue N D T)} {gs gs' : List (DamlRecordField (DamlValue N D T))}
    (hlen : fs.length = vs.length)
    (h : ∀ p ∈ fs.zip vs, Tolerates Γ (p.1.2.inst args) p.2)
    (hgs : List.Forall₂ (fun p g => some p.1.1 = g.label ∧
      serialize Γ (p.1.2.inst args) p.2 = some g.value) (fs.zip vs) gs)
    (heq : List.Forall₂ (fun g g' => DamlValue.fieldCmp g g' = some .eq) gs gs')
    (hval : ∀ g ∈ gs', g.value.Valid) :
    ∃ vs', deserializeFields Γ args fs gs' = .ok vs' ∧
      List.Forall₂ (fun v v' => RustValue.partialCmp v v' = some .eq) vs vs' := by
  suffices hfields : ∃ vs', fs.length = vs'.length ∧ List.Forall₂ (fun p g => some p.1.1 = g.label ∧
      deserialize Γ (p.1.2.inst args) g.value = .ok p.2) (fs.zip vs') gs' ∧
        List.Forall₂ (fun v v' => RustValue.partialCmp v v' = some .eq) vs vs' by
    obtain ⟨vs', hlen', hvs', hcmp⟩ := hfields
    exact ⟨vs', deserializeFields_eq_ok hlen' hvs', hcmp⟩
  induction fs generalizing vs gs gs' with
  | nil =>
    obtain rfl := List.length_eq_zero_iff.1 hlen.symm
    cases hgs
    cases heq
    exact ⟨[], rfl, .nil, .nil⟩
  | cons f fs ih =>
    obtain ⟨v, vs, rfl⟩ := List.exists_cons_of_length_eq_add_one hlen.symm
    obtain _ | ⟨⟨hlabel, hg⟩, hgs⟩ := hgs
    obtain _ | ⟨hgg, heq⟩ := heq
    rw [DamlValue.fieldCmp, PartialCmp.andThen_eq_some_eq,
      option_eq_some_eq fun _ _ => ofOrd_eq_some_eq] at hgg
    simp only [List.zip_cons_cons, List.forall_mem_cons] at h hval
    obtain ⟨v', hv', hcmp⟩ := h.1 _ _ hg hgg.2 hval.1
    obtain ⟨vs', hlen', hvs', hcmps⟩ := ih (by simpa using hlen) h.2 hgs heq hval.2
    exact ⟨v' :: vs', by simp [hlen'], .cons ⟨hlabel.trans hgg.1, hv'⟩ hvs', .cons hcmp hcmps⟩

lemma tolerates_record {n : ι} {args : List (RustTy ι)} {fs : List (String × RustTy ι)}
    {vs : List (RustValue N D T)} (hΓ : Γ n = some (.record fs)) (hlen : fs.length = vs.length)
    (h : ∀ p ∈ fs.zip vs, Tolerates Γ (p.1.2.inst args) p.2) :
    Tolerates Γ (.user n args) (.record vs) := by
  intro w w' hw heq hval
  have hord := DamlValue.ordinal_eq_of_partialCmp heq
  simp only [serialize, hΓ, Option.map_eq_some_iff, serializeFields_eq_some hlen] at hw
  obtain ⟨gs, hgs, rfl⟩ := hw
  cases w' with
  | record r =>
    cases hval with | record hval =>
    rw [DamlValue.partialCmp_record, PartialCmp.andThen_eq_some_eq,
      PartialCmp.list_eq_some_eq] at heq
    obtain ⟨vs', hvs', hcmp⟩ := exists_deserializeFields hlen h hgs heq.2 hval
    refine ⟨.record vs', ?_, by rwa [RustValue.partialCmp_record, PartialCmp.list_eq_some_eq]⟩
    rw [deserialize]
    rcases fs with _ | ⟨f, fs⟩
    · obtain rfl := List.length_eq_zero_iff.1 hlen.symm
      cases hcmp
      simp only [hΓ]
    · simp only [hΓ, hvs']
      rfl
  | _ => cases hord

/-- The constructor that is read is the one that was sent. -/
lemma exists_of_variant_eq {c : String} {x w' : DamlValue N D T}
    (heq : DamlValue.partialCmp (.variant ⟨none, c, x⟩) w' = some .eq) :
    ∃ id x', w' = .variant ⟨id, c, x'⟩ ∧ DamlValue.partialCmp x x' = some .eq := by
  have hord := DamlValue.ordinal_eq_of_partialCmp heq
  cases w' with
  | variant y =>
    obtain ⟨id, c', x'⟩ := y
    simp only [DamlValue.partialCmp_variant, PartialCmp.andThen_eq_some_eq,
      ofOrd_eq_some_eq] at heq
    obtain ⟨-, rfl, hx⟩ := heq
    exact ⟨id, x', rfl, hx⟩
  | _ => cases hord

variable [Std.TransOrd N] [Std.TransOrd D] [Std.TransOrd T]

lemma tolerates_genMap {m : List (RustValue N D T × RustValue N D T)} {k t : RustTy ι}
    (hasc : (AssocMap.keys m).Pairwise fun a b => RustValue.cmp a b = .lt)
    (hkty : ∀ p ∈ m, HasTy Γ p.1 k) (hk : ∀ p ∈ m, Tolerates Γ k p.1)
    (ht : ∀ p ∈ m, Tolerates Γ t p.2) : Tolerates Γ (.genMap k t) (.genMap m) := by
  intro w w' hw heq hval
  have hord := DamlValue.ordinal_eq_of_partialCmp heq
  simp only [serialize_genMap, Option.map_eq_some_iff, serializePairs_eq_some] at hw
  obtain ⟨es, hes, rfl⟩ := hw
  cases w' with
  | genMap es' =>
    cases hval with | genMap _ hvalk hvalt =>
    rw [DamlValue.partialCmp_genMap, DamlValue.genMapCmp, PartialCmp.andThen_eq_some_eq,
      PartialCmp.list_eq_some_eq] at heq
    have hperm := AssocMap.perm_ofListSorted (pairwise_serialized_keys
      (fun p _ q _ => reflects p.1 q.1) hasc hkty hes)
    obtain ⟨l, hml, hl⟩ := hes.exists_perm_left hperm.symm
    obtain ⟨ds, hds, hcmp⟩ := hl.exists_answer heq.2
      (C := fun e q => deserialize Γ k e.1 = .ok q.1 ∧ deserialize Γ t e.2 = .ok q.2)
      (E := fun p q => PartialCmp.pair RustValue.partialCmp RustValue.partialCmp p q = some .eq)
      fun p hp e e' he' hpe hee' => by
        rw [PartialCmp.pair, PartialCmp.andThen_eq_some_eq] at hee'
        rw [← hml.mem_iff] at hp
        obtain ⟨a, ha, hcmpa⟩ := hk p hp _ _ hpe.1 hee'.1 (hvalk e' he')
        obtain ⟨v, hv, hcmpv⟩ := ht p hp _ _ hpe.2 hee'.2 (hvalt e' he')
        refine ⟨(a, v), ⟨ha, hv⟩, ?_⟩
        rw [PartialCmp.pair, PartialCmp.andThen_eq_some_eq]
        exact ⟨hcmpa, hcmpv⟩
    -- in the order of the keys
    obtain ⟨m', hmm', hm'⟩ := List.Forall₂.exists_perm_right hml hcmp
    have hasc' : (AssocMap.keys m').Pairwise fun a b => RustValue.cmp a b = .lt := by
      refine List.pairwise_map.2 (hmm'.pairwise (List.pairwise_map.1 hasc) ?_)
      intro p p' q q' hpq hpq' hlt
      rw [PartialCmp.pair, PartialCmp.andThen_eq_some_eq, RustValue.partialCmp_eq_some_cmp,
        Option.some.injEq] at hpq hpq'
      rwa [← Std.TransCmp.congr_left hpq.1, ← Std.TransCmp.congr_right hpq'.1]
    refine ⟨.genMap m', ?_, ?_⟩
    · rw [deserialize, deserializePairs_eq_ok.2 hds]
      exact congrArg (fun m => Except.ok (RustValue.genMap m))
        (AssocMap.ofListSorted_of_perm hm'.symm hasc')
    · rwa [RustValue.partialCmp_genMap, PartialCmp.list_eq_some_eq]
  | _ => cases hord

/-- A well-typed value is read from every valid ledger value that is equal to its own. -/
theorem tolerates {v : RustValue N D T} {t : RustTy ι} (h : HasTy Γ v t) : Tolerates Γ t v := by
  induction h with
  | prim hp => exact tolerates_prim hp
  | @box v t _ ih =>
    intro w w' hw heq hval
    rw [serialize] at hw
    obtain ⟨v', hv', hcmp⟩ := ih w w' hw heq hval
    refine ⟨.box v', ?_, hcmp⟩
    rw [deserialize, hv']
    rfl
  | optional _ ih => exact tolerates_optional ih
  | list _ ih => exact tolerates_list ih
  | textMap hnd _ ih => exact tolerates_textMap hnd ih
  | genMap hasc hk _ ihk iht => exact tolerates_genMap hasc hk ihk iht
  | record hΓ hlen _ ih => exact tolerates_record hΓ hlen ih
  | @unitVariant n args cs hd i c t hΓ hc hu =>
    intro w w' hw heq _
    simp only [serialize, hΓ, hc, hu, if_true, Option.some.injEq] at hw
    subst hw
    obtain ⟨id, x', rfl, -⟩ := exists_of_variant_eq heq
    refine ⟨.variant i none, ?_, ?_⟩
    · simp [deserialize, hΓ, findIdx?_name hd hc, hc, hu]
    · simp [RustValue.partialCmp_variant, PartialCmp.option, ofOrd]
  | @variant n args cs hd i c t v hΓ hc hu _ ih =>
    intro w w' hw heq hval
    simp only [serialize, hΓ, hc, hu, Bool.false_eq_true, if_false, Option.map_eq_some_iff] at hw
    obtain ⟨x, hx, rfl⟩ := hw
    obtain ⟨id, x', rfl, hxx⟩ := exists_of_variant_eq heq
    cases hval with | variant hval =>
    obtain ⟨v', hv', hcmp⟩ := ih x x' hx hxx hval
    refine ⟨.variant i (some v'), ?_, ?_⟩
    · simp [deserialize, hΓ, findIdx?_name hd hc, hc, hu, hv']
    · rw [RustValue.partialCmp_variant, PartialCmp.andThen_eq_some_eq, ofOrd_eq_some_eq]
      exact ⟨rfl, hcmp⟩
  | @enum n args cs hd i c hΓ hc =>
    intro w w' hw heq _
    have hord := DamlValue.ordinal_eq_of_partialCmp heq
    simp only [serialize, hΓ, hc, Option.map_some, Option.some.injEq] at hw
    subst hw
    cases w' with
    | enum e =>
      rw [DamlValue.partialCmp_enum, DamlEnum.partialCmp_eq_some_eq] at heq
      subst heq
      have hidx := findIdx?_name (f := id) (by simpa using hd) hc
      simp only [id_eq] at hidx
      refine ⟨.enum i, ?_, ?_⟩
      · simp [deserialize, hΓ, DamlValue.tryTakeEnum, hidx]
      · rw [RustValue.partialCmp_enum, ofOrd_eq_some_eq]
    | _ => cases hord

end Receive

/-! ### The round trip -/

section RoundTrip

variable [BigDecimal N] [NaiveDate D] [DateTime T] [LawfulBigDecimal N] [LawfulNaiveDate D]
  [LawfulDateTime T] {Γ : TypeEnv ι}

omit [LawfulBigDecimal N] [LawfulNaiveDate D] [LawfulDateTime T] in
lemma RustValue.ordinal_eq_of_partialCmp {a b : RustValue N D T}
    (h : RustValue.partialCmp a b = some .eq) : a.ordinal = b.ordinal := by
  by_contra hne
  rw [RustValue.partialCmp_of_ordinal_ne a b hne, Option.some.injEq, compare_eq_iff_eq] at h
  exact hne h

omit [LawfulBigDecimal N] [LawfulNaiveDate D] in
lemma timestamps_eq_of_primCmp {p q : Prim N D T} (h : RustValue.primCmp p q = some .eq) :
    p.toDamlValue.timestamps = q.toDamlValue.timestamps := by
  have hshape := DamlValue.ordinal_eq_of_partialCmp h
  cases p with
  | timestamp s =>
    cases q with
    | timestamp s' =>
      have heq := DamlValue.ofOrd_eq_some_eq_iff_beq.1 h
      rw [beq_iff_eq] at heq
      rw [heq]
    | _ => cases hshape
  | _ => cases q <;> first | rfl | cases hshape

omit [LawfulBigDecimal N] [LawfulNaiveDate D] in
/-- Values that compare as equal have the same timestamps. -/
lemma RustValue.timestamps_perm_of_partialCmp {v v' : RustValue N D T}
    (h : RustValue.partialCmp v v' = some .eq) : v.timestamps.Perm v'.timestamps := by
  have hord := ordinal_eq_of_partialCmp h
  induction v generalizing v' with
  | prim p =>
    cases v' with
    | prim q => rw [timestamps_prim, timestamps_prim, timestamps_eq_of_primCmp h]
    | _ => cases hord
  | box v ih =>
    cases v' with
    | box v' =>
      rw [RustValue.partialCmp] at h
      rw [timestamps_box, timestamps_box]
      exact ih h (ordinal_eq_of_partialCmp h)
    | _ => cases hord
  | optional o ih =>
    cases v' with
    | optional o' =>
      rw [partialCmp_optional, PartialCmp.option_eq_some_eq] at h
      cases h with
      | none => exact .refl _
      | some h => simpa using ih _ rfl h (ordinal_eq_of_partialCmp h)
    | _ => cases hord
  | list vs ih =>
    cases v' with
    | list vs' =>
      rw [partialCmp_list, PartialCmp.list_eq_some_eq] at h
      rw [timestamps_list, timestamps_list]
      refine (h.imp_of_mem fun v hv _ _ hvw => ?_).perm_flatMap.symm
      exact (ih v hv hvw (ordinal_eq_of_partialCmp hvw)).symm
    | _ => cases hord
  | textMap m ih =>
    cases v' with
    | textMap m' =>
      rw [partialCmp_textMap, textMapCmp, PartialCmp.andThen_eq_some_eq,
        PartialCmp.list_eq_some_eq] at h
      rw [timestamps_textMap, timestamps_textMap]
      -- the order of the entries does not matter: take them sorted
      refine ((AssocMap.perm_sortByKey compare m).flatMap_right _).symm.trans
        (.trans ?_ ((AssocMap.perm_sortByKey compare m').flatMap_right _))
      refine (h.2.imp_of_mem fun p hp q _ hpq => ?_).perm_flatMap.symm
      rw [PartialCmp.pair, PartialCmp.andThen_eq_some_eq] at hpq
      rw [AssocMap.mem_sortByKey] at hp
      exact (ih p hp hpq.2 (ordinal_eq_of_partialCmp hpq.2)).symm
    | _ => cases hord
  | genMap m ih =>
    cases v' with
    | genMap m' =>
      rw [partialCmp_genMap, PartialCmp.list_eq_some_eq] at h
      rw [timestamps_genMap, timestamps_genMap]
      refine (h.imp_of_mem fun p hp q _ hpq => ?_).perm_flatMap.symm
      rw [PartialCmp.pair, PartialCmp.andThen_eq_some_eq] at hpq
      exact (((ih p hp).1 hpq.1 (ordinal_eq_of_partialCmp hpq.1)).append
        ((ih p hp).2 hpq.2 (ordinal_eq_of_partialCmp hpq.2))).symm
    | _ => cases hord
  | record vs ih =>
    cases v' with
    | record vs' =>
      rw [partialCmp_record, PartialCmp.list_eq_some_eq] at h
      rw [timestamps_record, timestamps_record]
      refine (h.imp_of_mem fun v hv _ _ hvw => ?_).perm_flatMap.symm
      exact (ih v hv hvw (ordinal_eq_of_partialCmp hvw)).symm
    | _ => cases hord
  | variant i o ih =>
    cases v' with
    | variant j o' =>
      rw [partialCmp_variant, PartialCmp.andThen_eq_some_eq, PartialCmp.option_eq_some_eq] at h
      obtain ⟨-, h⟩ := h
      cases h with
      | none => exact .refl _
      | some h => simpa using ih _ rfl h (ordinal_eq_of_partialCmp h)
    | _ => cases hord
  | enum i =>
    cases v' with
    | enum j => exact .refl _
    | _ => cases hord

/-- What is received where a well-typed value was sent is equal to it exactly if every timestamp in
it, at any depth, survives the wire.  Whatever is received is well-typed. -/
theorem overWire_eq_iff {v : RustValue N D T} {t : RustTy ι} (h : HasTy Γ v t)
    (hΓ : NamedFields Γ) :
    ((∃ v', overWire Γ t v = .ok v' ∧ RustValue.partialCmp v v' = some .eq) ↔
        ∀ s ∈ v.timestamps, ExactOnWire s) ∧
      ∀ v', overWire Γ t v = .ok v' → HasTy Γ v' t := by
  obtain ⟨w, hw, hval, hlabels, hperm⟩ := h.exists_serialize hΓ
  have hsend : ∀ v', overWire Γ t v = .ok v' ↔
      ∃ w', DamlValue.tryFrom w.toValue = .ok w' ∧ deserialize Γ t w' = .ok v' := by
    intro v'
    simp only [overWire, hw, Except.bind_eq_ok]
  refine ⟨⟨?_, fun hexact => ?_⟩, fun v' hv' => ?_⟩
  · rintro ⟨v', hv', hcmp⟩
    obtain ⟨w', hw', hread⟩ := (hsend v').1 hv'
    -- no timestamp gets lighter on the way, so all of them keep their weight
    have hreceived := (reads_of_deserialize hread).timestamps_subperm.sum_map_le wireDistance
    have hsame := ((RustValue.timestamps_perm_of_partialCmp hcmp).map wireDistance).sum_eq
    have hsent := (hperm.map wireDistance).sum_eq
    obtain ⟨hle, hkeep⟩ := DamlValue.wireWeight_tryFrom hval hw'
    have heq : w'.wireWeight = w.wireWeight := by
      simp only [DamlValue.wireWeight] at hle ⊢
      omega
    exact fun s hs => hkeep heq s (hperm.mem_iff.2 hs)
  · obtain ⟨w', hw', hbeq, hval'⟩ := DamlValue.tryFrom_toValue_of_exact w hval hlabels
      fun s hs => hexact s (hperm.mem_iff.1 hs)
    obtain ⟨v', hv', hcmp⟩ := tolerates h w w' hw
      ((DamlValue.partialCmp_eq_some_eq hval hval').2 hbeq) hval'
    exact ⟨v', (hsend v').2 ⟨w', hw', hv'⟩, hcmp⟩
  · obtain ⟨w', -, hread⟩ := (hsend v').1 hv'
    exact (reads_of_deserialize hread).hasTy

/-- A reading from the last microsecond before the epoch is received as it was sent. -/
theorem overWire_eq_before_epoch :
    let Γ : TypeEnv String := fun n =>
      if n = "Reading" then
        some (.record [("at", .prim .timestamp), ("value", .prim (.fixedNumeric 10))])
      else none
    let v : RustValue Int GregorianDay UtcInstant :=
      .record [.prim (.timestamp ⟨-1, 999999000, by decide⟩), .prim (.fixedNumeric 5)]
    ∃ v', overWire Γ (.user "Reading" []) v = .ok v' ∧ RustValue.partialCmp v v' = some .eq := by
  intro Γ v
  have hreading : HasTy Γ v (.user "Reading" []) := .record rfl rfl (by
    simp only [List.zip_cons_cons, List.zip_nil_right, List.forall_mem_cons]
    exact ⟨.prim trivial, .prim trivial, by simp⟩)
  have hnamed : NamedFields Γ := by
    intro n fs hn
    obtain ⟨-, rfl⟩ : n = "Reading" ∧ _ = fs := by simpa [Γ] using hn
    simp
  exact (overWire_eq_iff hreading hnamed).1.2 (by decide)

end RoundTrip

end DamlBindings.Grpc
