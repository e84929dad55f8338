import DamlBindings.Grpc.SerializeRoundTrip

/-!
# What is deserialised

A ledger value may come from anywhere, so that nothing is known about its shape.  What
`DamlDeserializeFrom` makes of it is a value of the type that was asked for: hash maps have no key
twice, maps with sorted keys are sorted, and the constructors exist.  No timestamp is made up or
read twice.
-/

namespace DamlBindings.Grpc

variable {N D T ι : Type}

/-! ### The timestamps of a Rust value -/

namespace RustValue

mutual

/-- The timestamps in a value, at any depth. -/
def timestamps : RustValue N D T → List T
  | .prim p => p.toDamlValue.timestamps
  | .box v => timestamps v
  | .optional none => []
  | .optional (some v) => timestamps v
  | .list vs => timestampsList vs
  | .textMap m => timestampsEntries m
  | .genMap m => timestampsPairs m
  | .record vs => timestampsList vs
  | .variant _ none => []
  | .variant _ (some v) => timestamps v
  | .enum _ => []
termination_by structural v => v

def timestampsList : List (RustValue N D T) → List T
  | [] => []
  | v :: vs => timestamps v ++ timestampsList vs
termination_by structural vs => vs

def timestampsEntries : List (String × RustValue N D T) → List T
  | [] => []
  | (_, v) :: m => timestamps v ++ timestampsEntries m
termination_by structural m => m

def timestampsPairs : List (RustValue N D T × RustValue N D T) → List T
  | [] => []
  | (k, v) :: m => timestamps k ++ timestamps v ++ timestampsPairs m
termination_by structural m => m

end

lemma timestampsList_eq (vs : List (RustValue N D T)) :
    timestampsList vs = vs.flatMap timestamps := by
  induction vs with
  | nil => rfl
  | cons v vs ih => exact congrArg (v.timestamps ++ ·) ih

section Inside

variable (v : RustValue N D T) (vs : List (RustValue N D T)) (o : Option (RustValue N D T))
  (m : List (String × RustValue N D T)) (g : List (RustValue N D T × RustValue N D T)) (i : Nat)

@[simp] lemma timestamps_prim (p : Prim N D T) :
    (RustValue.prim p).timestamps = p.toDamlValue.timestamps := rfl

@[simp] lemma timestamps_box : (RustValue.box v).timestamps = v.timestamps := rfl

@[simp] lemma timestamps_optional :
    (RustValue.optional o).timestamps = o.toList.flatMap timestamps := by
  cases o with
  | none => rfl
  | some v => exact (List.append_nil _).symm

@[simp] lemma timestamps_list : (RustValue.list vs).timestamps = vs.flatMap timestamps :=
  timestampsList_eq vs

@[simp] lemma timestamps_record : (RustValue.record vs).timestamps = vs.flatMap timestamps :=
  timestampsList_eq vs

@[simp] lemma timestamps_textMap :
    (RustValue.textMap m).timestamps = m.flatMap fun p => p.2.timestamps := by
  show timestampsEntries m = _
  induction m with
  | nil => rfl
  | cons p m ih => exact congrArg (p.2.timestamps ++ ·) ih

@[simp] lemma timestamps_genMap : (RustValue.genMap g).timestamps =
    g.flatMap fun p => p.1.timestamps ++ p.2.timestamps := by
  show timestampsPairs g = _
  induction g with
  | nil => rfl
  | cons p g ih => exact congrArg (p.1.timestamps ++ p.2.timestamps ++ ·) ih

@[simp] lemma timestamps_variant :
    (RustValue.variant i o).timestamps = o.toList.flatMap timestamps := by
  cases o with
  | none => rfl
  | some v => exact (List.append_nil _).symm

@[simp] lemma timestamps_enum : (RustValue.enum i : RustValue N D T).timestamps = [] := rfl

end Inside

end RustValue

/-! ### The ways to read a value -/

/-- The values that `take_field` takes out of a record, one label after the other. -/
def takeFields : List String → List (DamlRecordField (DamlValue N D T)) →
    DamlResult (List (DamlValue N D T))
  | [], _ => .ok []
  | label :: labels, gs => do
    let (w, rest) ← takeField label gs
    return w :: (← takeFields labels rest)

/-- Each field is taken out of the record once. -/
lemma perm_takeField {label : String} {gs rest : List (DamlRecordField (DamlValue N D T))}
    {w : DamlValue N D T} (h : takeField label gs = .ok (w, rest)) :
    (gs.map DamlRecordField.value).Perm (w :: rest.map DamlRecordField.value) := by
  induction gs generalizing rest with
  | nil => cases h
  | cons g gs ih =>
    rw [takeField] at h
    split at h
    next =>
      cases h
      exact .refl _
    next =>
      split at h
      next w' rest' hrest =>
        cases h
        exact ((ih hrest).cons g.value).trans (.swap ..)
      next => cases h

lemma subperm_takeFields {labels : List String} {gs : List (DamlRecordField (DamlValue N D T))}
    {ws : List (DamlValue N D T)} (h : takeFields labels gs = .ok ws) :
    ws.Subperm (gs.map DamlRecordField.value) := by
  induction labels generalizing gs ws with
  | nil =>
    cases h
    exact List.nil_subperm
  | cons label labels ih =>
    rw [takeFields] at h
    simp only [Except.bind_eq_ok, Except.pure_eq_ok] at h
    obtain ⟨⟨w, rest⟩, hw, ws', hws, rfl⟩ := h
    exact ((List.subperm_cons w).2 (ih hws)).trans (perm_takeField hw).symm.subperm

lemma sizeOf_takeFields {labels : List String} {gs : List (DamlRecordField (DamlValue N D T))}
    {ws : List (DamlValue N D T)} (h : takeFields labels gs = .ok ws) :
    ∀ w ∈ ws, sizeOf w < sizeOf gs := by
  intro w hw
  obtain ⟨g, hg, rfl⟩ := List.mem_map.1 ((subperm_takeFields h).subset hw)
  have hlt := List.sizeOf_lt_of_mem hg
  cases g
  simp only [DamlRecordField.mk.sizeOf_spec] at hlt ⊢
  omega

/-- The fields of a record that has them in their order. -/
lemma takeFields_labelled {α : Type} {fs : List (String × α)} {ws : List (DamlValue N D T)}
    (hlen : fs.length = ws.length) :
    takeFields (fs.map Prod.fst) ((fs.zip ws).map fun q => ⟨some q.1.1, q.2⟩) = .ok ws := by
  induction fs generalizing ws with
  | nil =>
    obtain rfl := List.length_eq_zero_iff.1 hlen.symm
    rfl
  | cons f fs ih =>
    obtain ⟨w, ws, rfl⟩ := List.exists_cons_of_length_eq_add_one hlen.symm
    rw [List.zip_cons_cons, List.map_cons, List.map_cons, takeFields, takeField, if_pos rfl]
    simp only [Except.bind_eq_ok, Except.pure_eq_ok]
    exact ⟨_, rfl, ws, ih (by simpa using hlen), rfl⟩

/-- The runs of `deserialize_from` that end with a value. -/
inductive Reads [Ord N] [Ord D] [Ord T] (Γ : TypeEnv ι) :
    RustTy ι → DamlValue N D T → RustValue N D T → Prop
  | prim {p w q} : deserializePrim p w = .ok q → Reads Γ (.prim p) w (.prim q)
  | box {t w v} : Reads Γ t w v → Reads Γ (.box t) w (.box v)
  | optionalNone {t} : Reads Γ (.optional t) (.optional none) (.optional none)
  | optionalSome {t w v} : Reads Γ t w v →
      Reads Γ (.optional t) (.optional (some w)) (.optional (some v))
  | list {t ws vs} : ws.length = vs.length → (∀ p ∈ ws.zip vs, Reads Γ t p.1 p.2) →
      Reads Γ (.list t) (.list ws) (.list vs)
  | textMap {t es m} : AssocMap.keys es = AssocMap.keys m →
      (∀ p ∈ es.zip m, Reads Γ t p.1.2 p.2.2) →
        Reads Γ (.textMap t) (.textMap es) (.textMap (AssocMap.ofList m))
  | genMap {k t es m} : es.length = m.length → (∀ p ∈ es.zip m, Reads Γ k p.1.1 p.2.1) →
      (∀ p ∈ es.zip m, Reads Γ t p.1.2 p.2.2) →
        Reads Γ (.genMap k t) (.genMap es) (.genMap (AssocMap.ofListSorted RustValue.cmp m))
  | emptyRecord {n args w} : Γ n = some (.record []) → Reads Γ (.user n args) w (.record [])
  | record {n args fs id gs ws vs} : Γ n = some (.record fs) →
      takeFields (fs.map Prod.fst) gs = .ok ws → fs.length = vs.length → ws.length = vs.length →
        (∀ p ∈ (fs.zip vs).zip ws, Reads Γ (p.1.1.2.inst args) p.2 p.1.2) →
          Reads Γ (.user n args) (.record ⟨id, gs⟩) (.record vs)
  | unitVariant {n args cs hd id c w i t} : Γ n = some (.variant cs hd) → cs[i]? = some (c, t) →
      t.isUnit → Reads Γ (.user n args) (.variant ⟨id, c, w⟩) (.variant i none)
  | variant {n args cs hd id c w i t v} : Γ n = some (.variant cs hd) → cs[i]? = some (c, t) →
      t.isUnit = false → Reads Γ (t.inst args) w v →
        Reads Γ (.user n args) (.variant ⟨id, c, w⟩) (.variant i (some v))
  | enum {n args cs hd e i} : Γ n = some (.enum cs hd) → cs[i]? = some e.constructor →
      Reads Γ (.user n args) (.enum e) (.enum i)

section Reads

variable [Ord N] [Ord D] [Ord T] {Γ : TypeEnv ι} {t k : RustTy ι} {args : List (RustTy ι)}

/-- The fields of a record are read from the values that are taken out. -/
lemma deserializeFields_eq_ok_iff {fs : List (String × RustTy ι)} {vs : List (RustValue N D T)}
    {gs : List (DamlRecordField (DamlValue N D T))} :
    deserializeFields Γ args fs gs = .ok vs ↔ fs.length = vs.length ∧
      ∃ ws, takeFields (fs.map Prod.fst) gs = .ok ws ∧ List.Forall₂ (fun p w =>
        deserialize Γ (p.1.2.inst args) w = .ok p.2) (fs.zip vs) ws := by
  induction fs generalizing gs vs with
  | nil =>
    rw [deserializeFields]
    cases vs <;> simp [takeFields]
  | cons f fs ih =>
    rw [deserializeFields, List.map_cons, takeFields]
    split
    next e he => simp [he]
    next w rest hw =>
      simp only [hw, Except.bind_eq_ok, Except.pure_eq_ok, ih]
      constructor
      · rintro ⟨v, hv, vs', ⟨hlen, ws, hws, hvs⟩, rfl⟩
        exact ⟨by simp [hlen], w :: ws, ⟨(w, rest), rfl, ws, hws, rfl⟩, .cons hv hvs⟩
      · rintro ⟨hlen, _, ⟨_, hp, ws, hws, rfl⟩, hvs⟩
        cases hp
        obtain ⟨v, vs', rfl⟩ := List.exists_cons_of_length_eq_add_one hlen.symm
        obtain _ | ⟨hv, hvs⟩ := hvs
        exact ⟨v, hv, vs', ⟨by simpa using hlen, ws, hws, hvs⟩, rfl⟩

/-! What a value of each type is read from. -/

lemma deserialize_optional_ok {w : DamlValue N D T} {v : RustValue N D T}
    (h : deserialize Γ (.optional t) w = .ok v) :
    (w = .optional none ∧ v = .optional none) ∨
      ∃ w' v', w = .optional (some w') ∧ v = .optional (some v') ∧ deserialize Γ t w' = .ok v' := by
  cases w with
  | optional o =>
    cases o with
    | none =>
      rw [deserialize] at h
      cases h
      exact .inl ⟨rfl, rfl⟩
    | some w' =>
      rw [deserialize] at h
      simp only [Except.bind_eq_ok, Except.pure_eq_ok] at h
      obtain ⟨v', hv', rfl⟩ := h
      exact .inr ⟨w', v', rfl, rfl, hv'⟩
  | _ => simp [deserialize] at h

lemma deserialize_list_ok {w : DamlValue N D T} {v : RustValue N D T}
    (h : deserialize Γ (.list t) w = .ok v) :
    ∃ ws vs, w = .list ws ∧ v = .list vs ∧
      List.Forall₂ (fun w v => deserialize Γ t w = .ok v) ws vs := by
  cases w with
  | list ws =>
    rw [deserialize] at h
    simp only [Except.bind_eq_ok, Except.pure_eq_ok, deserializeList_eq_ok] at h
    obtain ⟨vs, hvs, rfl⟩ := h
    exact ⟨ws, vs, rfl, rfl, hvs⟩
  | _ => simp [deserialize] at h

lemma deserialize_textMap_ok {w : DamlValue N D T} {v : RustValue N D T}
    (h : deserialize Γ (.textMap t) w = .ok v) :
    ∃ es m, w = .textMap es ∧ v = .textMap (AssocMap.ofList m) ∧
      List.Forall₂ (fun q p => q.1 = p.1 ∧ deserialize Γ t q.2 = .ok p.2) es m := by
  cases w with
  | textMap es =>
    rw [deserialize] at h
    simp only [Except.bind_eq_ok, Except.pure_eq_ok, deserializeEntries_eq_ok] at h
    obtain ⟨m, hm, rfl⟩ := h
    exact ⟨es, m, rfl, rfl, hm⟩
  | _ => simp [deserialize] at h

lemma deserialize_genMap_ok {w : DamlValue N D T} {v : RustValue N D T}
    (h : deserialize Γ (.genMap k t) w = .ok v) :
    ∃ es m, w = .genMap es ∧ v = .genMap (AssocMap.ofListSorted RustValue.cmp m) ∧
      List.Forall₂ (fun q p => deserialize Γ k q.1 = .ok p.1 ∧ deserialize Γ t q.2 = .ok p.2)
        es m := by
  cases w with
  | genMap es =>
    rw [deserialize] at h
    simp only [Except.bind_eq_ok, Except.pure_eq_ok, deserializePairs_eq_ok] at h
    obtain ⟨m, hm, rfl⟩ := h
    exact ⟨es, m, rfl, rfl, hm⟩
  | _ => simp [deserialize] at h

lemma deserialize_record_ok {n : ι} {fs : List (String × RustTy ι)} {w : DamlValue N D T}
    {v : RustValue N D T} (hΓ : Γ n = some (.record fs))
    (h : deserialize Γ (.user n args) w = .ok v) :
    (fs = [] ∧ v = .record []) ∨
      ∃ id gs vs, w = .record ⟨id, gs⟩ ∧ v = .record vs ∧
        deserializeFields Γ args fs gs = .ok vs := by
  rcases fs with _ | ⟨f, fs⟩
  · rw [deserialize] at h
    simp only [hΓ, Except.ok.injEq] at h
    exact .inl ⟨rfl, h.symm⟩
  · cases w with
    | record r =>
      rw [deserialize] at h
      simp only [hΓ, Except.bind_eq_ok, Except.pure_eq_ok] at h
      obtain ⟨vs, hvs, rfl⟩ := h
      exact .inr ⟨r.recordId, r.fields, vs, rfl, rfl, hvs⟩
    | _ => simp [deserialize, hΓ] at h

lemma deserialize_variant_ok {n : ι} {cs : List (String × RustTy ι)} {hd} {w : DamlValue N D T}
    {v : RustValue N D T} (hΓ : Γ n = some (.variant cs hd))
    (h : deserialize Γ (.user n args) w = .ok v) :
    ∃ id c w' i t, w = .variant ⟨id, c, w'⟩ ∧ cs[i]? = some (c, t) ∧
      ((t.isUnit ∧ v = .variant i none) ∨
        t.isUnit = false ∧ ∃ v', v = .variant i (some v') ∧
          deserialize Γ (t.inst args) w' = .ok v') := by
  cases w with
  | variant x =>
    obtain ⟨id, c, w'⟩ := x
    rw [deserialize] at h
    simp only [hΓ] at h
    split at h
    next i hi =>
      obtain ⟨hlt, hc, -⟩ := List.findIdx?_eq_some_iff_getElem.1 hi
      split at h
      next c' t hget =>
        obtain rfl : c' = c := by
          have hget' := hget
          rw [List.getElem?_eq_getElem hlt, Option.some.injEq] at hget'
          simpa [hget'] using hc
        refine ⟨id, c', w', i, t, rfl, hget, ?_⟩
        split at h
        next hunit =>
          cases h
          exact .inl ⟨hunit, rfl⟩
        next hunit =>
          simp only [Except.bind_eq_ok, Except.pure_eq_ok] at h
          obtain ⟨v', hv', rfl⟩ := h
          exact .inr ⟨by simpa using hunit, v', rfl, hv'⟩
      next => cases h
    next => cases h
  | _ => simp [deserialize, hΓ] at h

lemma deserialize_enum_ok {n : ι} {cs : List String} {hd} {w : DamlValue N D T}
    {v : RustValue N D T} (hΓ : Γ n = some (.enum cs hd))
    (h : deserialize Γ (.user n args) w = .ok v) :
    ∃ e i, w = .enum e ∧ cs[i]? = some e.constructor ∧ v = .enum i := by
  cases w with
  | enum e =>
    rw [deserialize] at h
    simp only [hΓ, DamlValue.tryTakeEnum, Except.bind_eq_ok, Except.ok.injEq] at h
    obtain ⟨_, rfl, h⟩ := h
    split at h
    next i hi =>
      cases h
      obtain ⟨hlt, hc, -⟩ := List.findIdx?_eq_some_iff_getElem.1 hi
      exact ⟨e, i, rfl, by simpa [hlt] using hc, rfl⟩
    next => cases h
  | _ => simp [deserialize, hΓ, DamlValue.tryTakeEnum, DamlValue.makeUnexpectedTypeError,
      bind, Except.bind] at h

/-- A run of `deserialize_from` that ends with a value, by induction on the size of the ledger value
and, for a box, of the type. -/
theorem reads_of_deserialize {w : DamlValue N D T} {v : RustValue N D T}
    (h : deserialize Γ t w = .ok v) : Reads Γ t w v := by
  induction hn : sizeOf w using Nat.strong_induction_on generalizing t w v with
  | _ n ih =>
    have below {t : RustTy ι} {w' : DamlValue N D T} {v : RustValue N D T}
        (hlt : sizeOf w' < sizeOf w) (h : deserialize Γ t w' = .ok v) : Reads Γ t w' v :=
      ih _ (hn ▸ hlt) h rfl
    induction hs : sizeOf t using Nat.strong_induction_on generalizing t v with
    | _ m iht =>
      cases t with
      | prim p =>
        rw [deserialize] at h
        simp only [Except.bind_eq_ok, Except.pure_eq_ok] at h
        obtain ⟨q, hq, rfl⟩ := h
        exact .prim hq
      | box t =>
        rw [deserialize] at h
        simp only [Except.bind_eq_ok, Except.pure_eq_ok] at h
        obtain ⟨v, hv, rfl⟩ := h
        exact .box (iht _ (by simp [← hs]) hv rfl)
      | optional t =>
        obtain ⟨rfl, rfl⟩ | ⟨w', v', rfl, rfl, hv⟩ := deserialize_optional_ok h
        · exact .optionalNone
        · exact .optionalSome (below (by simp; omega) hv)
      | list t =>
        obtain ⟨ws, vs, rfl, rfl, hvs⟩ := deserialize_list_ok h
        refine .list hvs.length_eq fun p hp => ?_
        obtain ⟨hw, -, hv⟩ := hvs.rel_of_mem_zip hp
        have := List.sizeOf_lt_of_mem hw
        exact below (by simp; omega) hv
      | textMap t =>
        obtain ⟨es, m, rfl, rfl, hm⟩ := deserialize_textMap_ok h
        refine .textMap (AssocMap.keys_eq_of_forall₂ (hm.imp fun _ _ h => h.1))
          fun p hp => ?_
        obtain ⟨hq, -, hv⟩ := hm.rel_of_mem_zip hp
        have := sizeOf_snd_lt hq
        exact below (by simp; omega) hv.2
      | genMap k t =>
        obtain ⟨es, m, rfl, rfl, hm⟩ := deserialize_genMap_ok h
        refine .genMap hm.length_eq (fun p hp => ?_) fun p hp => ?_
        · obtain ⟨hq, -, hv⟩ := hm.rel_of_mem_zip hp
          have := sizeOf_fst_lt hq
          exact below (by simp; omega) hv.1
        · obtain ⟨hq, -, hv⟩ := hm.rel_of_mem_zip hp
          have := sizeOf_snd_lt hq
          exact below (by simp; omega) hv.2
      | user n args =>
        rcases hΓ : Γ n with _ | (fs | ⟨cs, hd⟩ | ⟨cs, hd⟩)
        · simp [deserialize, hΓ] at h
        · obtain ⟨rfl, rfl⟩ | ⟨id, gs, vs, rfl, rfl, hvs⟩ := deserialize_record_ok hΓ h
          · exact .emptyRecord hΓ
          · obtain ⟨hlen, ws, hws, hvs⟩ := deserializeFields_eq_ok_iff.1 hvs
            refine .record hΓ hws hlen ?_ fun p hp => ?_
            · have := hvs.length_eq
              simp at this
              omega
            · obtain ⟨-, hw, hv⟩ := hvs.rel_of_mem_zip hp
              have := sizeOf_takeFields hws _ hw
              exact below (by simp; omega) hv
        · obtain ⟨id, c, w', i, t, rfl, hc, ⟨hunit, rfl⟩ | ⟨hunit, v', rfl, hv⟩⟩ :=
            deserialize_variant_ok hΓ h
          · exact .unitVariant hΓ hc hunit
          · exact .variant hΓ hc hunit (below (by simp; omega) hv)
        · obtain ⟨e, i, rfl, hc, rfl⟩ := deserialize_enum_ok hΓ h
          exact .enum hΓ hc
      | var i => simp [deserialize] at h

/-- The runs are those of `deserialize_from`. -/
lemma Reads.deserialize_eq_ok {w : DamlValue N D T} {v : RustValue N D T} (h : Reads Γ t w v) :
    deserialize Γ t w = .ok v := by
  induction h with
  | prim hq =>
    rw [deserialize, hq]
    rfl
  | box _ ih =>
    rw [deserialize, ih]
    rfl
  | optionalNone => rw [deserialize]
  | optionalSome _ ih =>
    rw [deserialize, ih]
    rfl
  | list hlen _ ih =>
    rw [deserialize, deserializeList_eq_ok.2 (List.forall₂_of_zip hlen ih)]
    rfl
  | @textMap t es m hkeys _ ih =>
    have hentries : List.Forall₂ (fun q p => q.1 = p.1 ∧ deserialize Γ t q.2 = .ok p.2) es m := by
      have hkeys' : List.Forall₂ (fun q p => q.1 = p.1) es m := by
        rwa [← List.forall₂_map_right_iff, ← List.forall₂_map_left_iff, List.forall₂_eq_eq_eq]
      exact hkeys'.and (List.forall₂_of_zip hkeys'.length_eq ih)
    rw [deserialize, deserializeEntries_eq_ok.2 hentries]
    rfl
  | genMap hlen _ _ ihk iht =>
    rw [deserialize, deserializePairs_eq_ok.2
      (List.forall₂_of_zip hlen fun p hp => ⟨ihk p hp, iht p hp⟩)]
    rfl
  | emptyRecord hΓ =>
    rw [deserialize]
    simp only [hΓ]
  | @record n args fs id gs ws vs hΓ hws hlen hlen' _ ih =>
    have hfields : deserializeFields Γ args fs gs = .ok vs := deserializeFields_eq_ok_iff.2
      ⟨hlen, ws, hws, List.forall₂_of_zip (by simp; omega) ih⟩
    rw [deserialize]
    rcases fs with _ | ⟨f, fs⟩
    · obtain rfl := List.length_eq_zero_iff.1 hlen.symm
      simp only [hΓ]
    · simp only [hΓ, hfields]
      rfl
  | @unitVariant n args cs hd id c w i t hΓ hc hu =>
    simp [deserialize, hΓ, findIdx?_name hd hc, hc, hu]
  | @variant n args cs hd id c w i t v hΓ hc hu _ ih =>
    simp [deserialize, hΓ, findIdx?_name hd hc, hc, hu, ih]
  | @enum n args cs hd e i hΓ hc =>
    have hidx := findIdx?_name (f := id) (by simpa using hd) hc
    simp only [id_eq] at hidx
    simp [deserialize, hΓ, DamlValue.tryTakeEnum, hidx]

/-! ### What is read is well-typed -/

omit [Ord N] [Ord D] [Ord T] in
lemma hasTy_of_deserializePrim {p : PrimTy} {w : DamlValue N D T} {q : Prim N D T}
    (h : deserializePrim p w = .ok q) : q.HasTy p ∧ q.toDamlValue = w := by
  cases p <;> cases w <;> first | (cases h; exact ⟨trivial, rfl⟩) | cases h

lemma Reads.hasTy [Std.TransOrd N] [Std.TransOrd D] [Std.TransOrd T] {w : DamlValue N D T}
    {v : RustValue N D T} (h : Reads Γ t w v) : HasTy Γ v t := by
  induction h with
  | prim hq => exact .prim (hasTy_of_deserializePrim hq).1
  | box _ ih => exact .box ih
  | optionalNone => exact .optional (by simp)
  | optionalSome _ ih => exact .optional (by simpa using ih)
  | @list t ws vs hlen _ ih =>
    refine .list fun v hv => ?_
    obtain ⟨w, -, hw⟩ := (List.forall₂_of_zip (R := fun _ v => HasTy Γ v t) hlen ih).exists_left hv
    exact hw
  | @textMap t es m hkeys _ ih =>
    refine .textMap (AssocMap.nodup_keys_ofList m) fun p hp => ?_
    have hlen : es.length = m.length := by simpa [AssocMap.keys] using congrArg List.length hkeys
    obtain ⟨q, -, hq⟩ := (List.forall₂_of_zip (R := fun q p => HasTy Γ p.2 t) hlen ih).exists_left
      (AssocMap.mem_of_mem_ofList hp)
    exact hq
  | @genMap k t es m hlen _ _ ihk iht =>
    have hmem : ∀ p ∈ AssocMap.ofListSorted RustValue.cmp m, HasTy Γ p.1 k ∧ HasTy Γ p.2 t := by
      intro p hp
      obtain ⟨q, -, hq⟩ := (List.forall₂_of_zip (R := fun q p => HasTy Γ p.1 k ∧ HasTy Γ p.2 t) hlen
        fun p hp => ⟨ihk p hp, iht p hp⟩).exists_left
          ((AssocMap.subperm_ofListSorted RustValue.cmp m).subset hp)
      exact hq
    exact .genMap (AssocMap.pairwise_keys_ofListSorted m) (fun p hp => (hmem p hp).1)
      fun p hp => (hmem p hp).2
  | emptyRecord hΓ => exact .record hΓ rfl (by simp)
  | @record n args fs id gs ws vs hΓ _ hlen hlen' _ ih =>
    refine .record hΓ hlen fun p hp => ?_
    obtain ⟨w, -, hw⟩ := (List.forall₂_of_zip (R := fun p w => HasTy Γ p.2 (p.1.2.inst args))
      (by simp; omega) ih).exists_right hp
    exact hw
  | unitVariant hΓ hc hu => exact .unitVariant hΓ hc hu
  | variant hΓ hc hu _ ih => exact .variant hΓ hc hu ih
  | enum hΓ hc => exact .enum hΓ hc

/-- The timestamps that are read are timestamps of the ledger value, each of them once. -/
lemma Reads.timestamps_subperm {w : DamlValue N D T} {v : RustValue N D T} (h : Reads Γ t w v) :
    v.timestamps.Subperm w.timestamps := by
  induction h with
  | prim hq => rw [← (hasTy_of_deserializePrim hq).2, RustValue.timestamps_prim]
  | box _ ih => exact ih
  | optionalNone => exact List.nil_subperm
  | optionalSome _ ih => simpa using ih
  | list hlen _ ih =>
    rw [RustValue.timestamps_list, DamlValue.timestamps_list]
    exact List.Forall₂.subperm_flatMap (List.forall₂_of_zip hlen ih)
  | @textMap t es m hkeys _ ih =>
    have hlen : es.length = m.length := by simpa [AssocMap.keys] using congrArg List.length hkeys
    rw [RustValue.timestamps_textMap, DamlValue.timestamps_textMap]
    exact ((AssocMap.subperm_ofList m).flatMap _).trans
      (List.Forall₂.subperm_flatMap (List.forall₂_of_zip hlen ih))
  | @genMap k t es m hlen _ _ ihk iht =>
    rw [RustValue.timestamps_genMap, DamlValue.timestamps_genMap]
    refine ((AssocMap.subperm_ofListSorted RustValue.cmp m).flatMap _).trans
      (List.Forall₂.subperm_flatMap (List.forall₂_of_zip hlen fun p hp => ?_))
    exact (ihk p hp).append (iht p hp)
  | emptyRecord _ => exact List.nil_subperm
  | @record n args fs id gs ws vs _ hws hlen hlen' _ ih =>
    rw [RustValue.timestamps_record, DamlValue.timestamps_record]
    have hfields : List.Forall₂ (fun p w => p.2.timestamps.Subperm w.timestamps)
        (fs.zip vs) ws := List.forall₂_of_zip (by simp; omega) ih
    have hvs : ((fs.zip vs).flatMap fun p => p.2.timestamps) = vs.flatMap RustValue.timestamps := by
      rw [← List.flatMap_map Prod.snd RustValue.timestamps, List.map_snd_zip (by omega)]
    rw [← hvs, ← List.flatMap_map DamlRecordField.value DamlValue.timestamps]
    refine (List.Forall₂.subperm_flatMap hfields.flip).trans ?_
    exact (subperm_takeFields hws).flatMap _
  | unitVariant _ _ _ => exact List.nil_subperm
  | variant _ _ _ _ ih => simpa using ih
  | enum _ _ => exact List.nil_subperm

/-- A well-typed value is read from a ledger value that lists its parts in their order. -/
lemma HasTy.exists_reads {v : RustValue N D T} (h : HasTy Γ v t) : ∃ w, Reads Γ t w v := by
  induction h with
  | @prim p t hp => exact ⟨_, .prim (deserializePrim_toDamlValue hp)⟩
  | box _ ih =>
    obtain ⟨w, hw⟩ := ih
    exact ⟨w, .box hw⟩
  | @optional o t _ ih =>
    rcases o with _ | v
    · exact ⟨_, .optionalNone⟩
    · obtain ⟨w, hw⟩ := ih v rfl
      exact ⟨_, .optionalSome hw⟩
  | @list vs t _ ih =>
    obtain ⟨ws, hws⟩ := List.exists_forall₂ ih
    exact ⟨_, .list hws.flip.length_eq fun p hp => (hws.flip.rel_of_mem_zip hp).2.2⟩
  | @textMap m t hnd _ ih =>
    obtain ⟨es, hes⟩ := List.exists_forall₂ (R := fun p q => q.1 = p.1 ∧ Reads Γ t q.2 p.2)
      fun p hp => (ih p hp).elim fun w hw => ⟨(p.1, w), rfl, hw⟩
    have hread := Reads.textMap (AssocMap.keys_eq_of_forall₂ (hes.flip.imp fun _ _ h => h.1))
      fun p hp => (hes.flip.rel_of_mem_zip hp).2.2.2
    rw [AssocMap.ofList_eq_self hnd] at hread
    exact ⟨_, hread⟩
  | @genMap m k t hasc _ _ ihk iht =>
    obtain ⟨es, hes⟩ := List.exists_forall₂ (R := fun p q => Reads Γ k q.1 p.1 ∧ Reads Γ t q.2 p.2)
      fun p hp => (ihk p hp).elim fun a ha => (iht p hp).elim fun w hw => ⟨(a, w), ha, hw⟩
    have hread := Reads.genMap hes.flip.length_eq
      (fun p hp => (hes.flip.rel_of_mem_zip hp).2.2.1) fun p hp =>
        (hes.flip.rel_of_mem_zip hp).2.2.2
    rw [AssocMap.ofListSorted_eq_self hasc] at hread
    exact ⟨_, hread⟩
  | @record n args fs vs hΓ hlen _ ih =>
    obtain ⟨ws, hws⟩ := List.exists_forall₂ ih
    have hlen' : ws.length = vs.length := by
      have := hws.length_eq
      simp at this
      omega
    have htake := takeFields_labelled (show fs.length = ws.length by omega)
    exact ⟨.record ⟨none, _⟩, .record hΓ htake hlen hlen' fun p hp => (hws.rel_of_mem_zip hp).2.2⟩
  | unitVariant hΓ hc hu => exact ⟨.variant ⟨none, _, .unit⟩, .unitVariant hΓ hc hu⟩
  | variant hΓ hc hu _ ih =>
    obtain ⟨w, hw⟩ := ih
    exact ⟨.variant ⟨none, _, w⟩, .variant hΓ hc hu hw⟩
  | enum hΓ hc => exact ⟨.enum ⟨none, _⟩, .enum hΓ hc⟩

variable (Γ) in
/-- The values that are deserialised, from whatever ledger value, are the well-typed ones, and their
timestamps are timestamps of the ledger value. -/
theorem exists_deserialize_iff_hasTy [Std.TransOrd N] [Std.TransOrd D] [Std.TransOrd T]
    (t : RustTy ι) (v : RustValue N D T) :
    ((∃ w, deserialize Γ t w = .ok v) ↔ HasTy Γ v t) ∧
      ∀ w, deserialize Γ t w = .ok v → v.timestamps.Subperm w.timestamps := by
  refine ⟨⟨?_, ?_⟩, fun w hw => (reads_of_deserialize hw).timestamps_subperm⟩
  · rintro ⟨w, hw⟩
    exact (reads_of_deserialize hw).hasTy
  · intro h
    obtain ⟨w, hw⟩ := h.exists_reads
    exact ⟨w, hw.deserialize_eq_ok⟩

/-- No ledger value is read as a map whose keys are not sorted. -/
theorem not_exists_deserialize_unsorted :
    ¬ ∃ w : DamlValue Int GregorianDay UtcInstant,
      deserialize (fun _ : String => none) (.genMap (.prim .int64) (.prim .unit)) w = .ok
        (.genMap [(.prim (.int64 2), .prim .unit), (.prim (.int64 1), .prim .unit)]) := by
  intro hread
  have htyped := ((exists_deserialize_iff_hasTy _ _ _).1).1 hread
  cases htyped with
  | genMap hasc _ _ => exact absurd hasc (by decide)

end Reads

end DamlBindings.Grpc
