import DamlBindings.Grpc.RecordFields
import DamlBindings.Grpc.SerializeRoundTrip

/-!
# What the generated deserialisers accept

A value is of the shape of a record, variant or enum definition if it is a record with all of the
labels, or has one of the constructors, and what is inside deserialises.  The deserialiser of a
record without fields and the arm of a constructor with a `Unit` payload do not look at what they
are given, and so accept more.
-/

namespace DamlBindings.Grpc

variable {N D T ι : Type} [Ord N] [Ord D] [Ord T]

/-- The value has the shape of the definition of the type `n`. -/
def OwnShape (Γ : TypeEnv ι) (n : ι) (args : List (RustTy ι)) (v : DamlValue N D T) : Prop :=
  match Γ n with
  | some (.record fs) => ∃ r, v = .record r ∧
    ∀ p ∈ fs, ∃ w, r.field p.1 = .ok w ∧ ∃ x, deserialize Γ (p.2.inst args) w = .ok x
  | some (.variant cs _) => ∃ id c w, v = .variant ⟨id, c, w⟩ ∧
    ∃ t, (c, t) ∈ cs ∧ ∃ x, deserialize Γ (t.inst args) w = .ok x
  | some (.enum cs _) => ∃ e, v = .enum e ∧ e.constructor ∈ cs
  | none => False

/-- What is not looked at is as it should be: the value of a record without fields is a record,
and the payload of a constructor declared with `Unit` is the unit value. -/
def UncheckedFits (Γ : TypeEnv ι) (n : ι) (v : DamlValue N D T) : Prop :=
  match Γ n with
  | some (.record []) => ∃ r, v = .record r
  | some (.variant cs _) => ∀ id c w, v = .variant ⟨id, c, w⟩ → (c, .prim .unit) ∈ cs → w = .unit
  | _ => True

section Cases

variable {Γ : TypeEnv ι} {n : ι} {args : List (RustTy ι)} {v : DamlValue N D T}

/-- The fields are read off the record as it was, if their labels are distinct. -/
lemma fields_of_deserializeFields {fs : List (String × RustTy ι)} {r : DamlRecord (DamlValue N D T)}
    {xs : List (RustValue N D T)} (hdistinct : (fs.map Prod.fst).Nodup)
    (h : deserializeFields Γ args fs r.fields = .ok xs) :
    ∀ p ∈ fs, ∃ w, r.field p.1 = .ok w ∧ ∃ x, deserialize Γ (p.2.inst args) w = .ok x := by
  induction fs generalizing r xs with
  | nil => exact List.forall_mem_nil _
  | cons f fs ih =>
    obtain ⟨hf, hfs⟩ := List.nodup_cons.1 hdistinct
    have htake := takeField_eq f.1 r
    rw [deserializeFields] at h
    split at h
    · cases h
    next w rest hw =>
      rw [hw] at htake
      obtain ⟨x, hx, h⟩ := Except.bind_eq_ok.1 h
      obtain ⟨xs', hxs, -⟩ := Except.bind_eq_ok.1 h
      have hrest := ih (r := (r.takeField f.1).2) hfs (by rw [htake]; exact hxs)
      refine List.forall_mem_cons.2 ⟨⟨w, ?_, x, hx⟩, fun p hp => ?_⟩
      · rw [DamlRecord.field_eq_occurrence, ← DamlRecord.takeField_eq_occurrence, htake]
      · -- the request for `f` leaves the first field under another label in place
        have hne : p.1 ≠ f.1 := fun heq => hf (heq ▸ List.mem_map_of_mem hp)
        obtain ⟨w', hw', hx'⟩ := hrest p hp
        refine ⟨w', ?_, hx'⟩
        rw [DamlRecord.field_eq_occurrence] at hw' ⊢
        rwa [DamlRecord.occurrence_takeField_of_ne hne] at hw'

lemma ownShape_of_record {f : String × RustTy ι} {fs : List (String × RustTy ι)}
    (hΓ : Γ n = some (.record (f :: fs))) (hdistinct : ((f :: fs).map Prod.fst).Nodup)
    (h : ∃ x, deserialize Γ (.user n args) v = .ok x) : OwnShape Γ n args v := by
  obtain ⟨x, h⟩ := h
  simp only [deserialize, hΓ] at h
  rw [OwnShape, hΓ]
  split at h
  next id gs =>
    obtain ⟨xs, hxs, -⟩ := Except.bind_eq_ok.1 h
    exact ⟨⟨id, gs⟩, rfl, fields_of_deserializeFields hdistinct hxs⟩
  next => cases h

omit [Ord N] [Ord D] [Ord T] in
lemma isUnit_iff {t : RustTy ι} : t.isUnit = true ↔ t = .prim .unit := by
  constructor
  · intro h
    rcases t with (_ | _ | _ | _ | _ | _ | _ | _ | _) | _ | _ | _ | _ | _ | _ | _ <;>
      first | rfl | cases h
  · rintro rfl
    rfl

lemma deserialize_unit_iff :
    (∃ x, deserialize Γ (.prim .unit) v = .ok x) ↔ v = .unit := by
  have heq : deserialize Γ (.prim .unit) v = RustValue.prim <$> deserializePrim .unit v := by
    rw [deserialize]
    rfl
  rw [heq]
  constructor
  · rintro ⟨x, hx⟩
    obtain ⟨p, hp, -⟩ := Except.map_eq_ok.1 hx
    cases v <;> first | rfl | cases hp
  · rintro rfl
    exact ⟨_, rfl⟩

/-- The arm of a constructor deserialises the payload, unless it is declared with `Unit`. -/
lemma accepts_variant_iff {cs : List (String × RustTy ι)} {hd : (cs.map Prod.fst).Nodup}
    (hΓ : Γ n = some (.variant cs hd)) :
    (∃ x, deserialize Γ (.user n args) v = .ok x) ↔
      ∃ id c w t, v = .variant ⟨id, c, w⟩ ∧ (c, t) ∈ cs ∧
        (t.isUnit = true ∨ ∃ x, deserialize Γ (t.inst args) w = .ok x) := by
  simp only [deserialize, hΓ]
  constructor
  · rintro ⟨x, h⟩
    split at h
    next id c w =>
      refine ⟨id, c, w, ?_⟩
      split at h
      next i hi =>
        obtain ⟨hlt, hname, -⟩ := List.findIdx?_eq_some_iff_getElem.1 hi
        split at h
        next c' t hc =>
          obtain ⟨_, hentry⟩ := List.getElem?_eq_some_iff.1 hc
          rw [hentry] at hname
          obtain rfl : c' = c := beq_iff_eq.1 hname
          refine ⟨t, rfl, List.mem_of_getElem? hc, ?_⟩
          split_ifs at h with hunit
          · exact .inl hunit
          · obtain ⟨y, hy, -⟩ := Except.bind_eq_ok.1 h
            exact .inr ⟨y, hy⟩
        next => cases h
      next => cases h
    next => cases h
  · rintro ⟨id, c, w, t, rfl, hct, hpayload⟩
    obtain ⟨i, hi⟩ := List.mem_iff_getElem?.1 hct
    have hidx := findIdx?_name hd hi
    simp only [hidx, hi]
    split_ifs with hunit
    · exact ⟨_, rfl⟩
    · obtain ⟨x, hx⟩ := hpayload.resolve_left hunit
      exact ⟨_, by rw [hx]; rfl⟩

lemma accepts_enum_iff {cs : List String} {hd : cs.Nodup} (hΓ : Γ n = some (.enum cs hd)) :
    (∃ x, deserialize Γ (.user n args) v = .ok x) ↔ ∃ e, v = .enum e ∧ e.constructor ∈ cs := by
  simp only [deserialize, hΓ]
  constructor
  · rintro ⟨x, h⟩
    obtain ⟨e, he, h⟩ := Except.bind_eq_ok.1 h
    have hv : v = .enum e := by
      cases v <;> cases he
      rfl
    refine ⟨e, hv, ?_⟩
    split at h
    next i hi =>
      obtain ⟨hlt, hname, -⟩ := List.findIdx?_eq_some_iff_getElem.1 hi
      exact beq_iff_eq.1 hname ▸ List.getElem_mem hlt
    next => cases h
  · rintro ⟨e, rfl, he⟩
    obtain ⟨i, hi⟩ := List.mem_iff_getElem?.1 he
    have hidx := findIdx?_name (f := id) (by simpa using hd) hi
    simp only [id_eq] at hidx
    exact ⟨.enum i, by simp [DamlValue.tryTakeEnum, hidx]⟩

end Cases

/-- A generated deserialiser accepts only values of the shape of its definition, exactly where what
it does not look at is as it should be. -/
theorem deserialize_ownShape_iff (Γ : TypeEnv ι) (n : ι) (args : List (RustTy ι))
    (v : DamlValue N D T)
    (hdistinct : ∀ fs, Γ n = some (.record fs) → (fs.map Prod.fst).Nodup) :
    ((∃ x, deserialize Γ (.user n args) v = .ok x) → OwnShape Γ n args v) ↔
      UncheckedFits Γ n v := by
  rcases hΓ : Γ n with _ | (fs | ⟨cs, hd⟩ | ⟨cs, hd⟩)
  · rw [UncheckedFits, OwnShape, hΓ]
    simp [deserialize, hΓ]
  · rcases fs with _ | ⟨f, fs⟩
    · rw [UncheckedFits, OwnShape, hΓ]
      simp [deserialize, hΓ]
    · have hfits : UncheckedFits Γ n v := by rw [UncheckedFits, hΓ]; trivial
      exact iff_of_true (ownShape_of_record hΓ (hdistinct _ hΓ)) hfits
  · rw [accepts_variant_iff hΓ, UncheckedFits, OwnShape, hΓ]
    constructor
    · rintro h id c w rfl hunit
      obtain ⟨_, _, _, heq, t, ht, hw⟩ := h ⟨id, c, w, _, rfl, hunit, .inl rfl⟩
      cases heq
      -- constructors have different names, so this is the one with `Unit`
      have heq : t = .prim .unit := by
        have hinj := List.inj_on_of_nodup_map hd ht hunit rfl
        exact (Prod.ext_iff.1 hinj).2
      subst heq
      exact deserialize_unit_iff.1 hw
    · rintro hfits ⟨id, c, w, t, rfl, ht, hpayload⟩
      refine ⟨id, c, w, rfl, t, ht, ?_⟩
      rcases hpayload with hunit | hpayload
      · obtain rfl := isUnit_iff.1 hunit
        exact deserialize_unit_iff.2 (hfits id c w rfl ht)
      · exact hpayload
  · have hfits : UncheckedFits Γ n v := by rw [UncheckedFits, hΓ]; trivial
    refine iff_of_true (fun h => ?_) hfits
    rw [OwnShape, hΓ]
    exact (accepts_enum_iff hΓ).1 h

/-- A record without fields and a variant with a `Unit` constructor. -/
def uncheckedEnv : TypeEnv String := fun n =>
  if n = "Ping" then some (.record [])
  else if n = "Light" then some (.variant [("On", .prim .unit), ("Dim", .prim .int64)] (by decide))
  else none

/-- A record with two fields. -/
def accountEnv : TypeEnv String := fun n =>
  if n = "Account" then some (.record [("owner", .prim .party), ("count", .prim .int64)])
  else none

/-- The fields of an account are accepted in another order than they are declared in, and make an
account. -/
theorem deserialize_ownShape_iff_account :
    OwnShape accountEnv "Account" []
      (.record ⟨none, [⟨some "count", .int64 7⟩, ⟨some "owner", .party ⟨"alice"⟩⟩]⟩ :
        DamlValue Int GregorianDay UtcInstant) := by
  have haccount : accountEnv "Account" =
      some (.record [("owner", .prim .party), ("count", .prim .int64)]) := rfl
  refine (deserialize_ownShape_iff accountEnv "Account" [] _ fun fs hfs => ?_).2 ?_ ?_
  · cases haccount.symm.trans hfs
    decide
  · rw [UncheckedFits, haccount]
    trivial
  · refine ⟨.record [.prim (.party ⟨"alice"⟩), .prim (.int64 7)], ?_⟩
    simp [deserialize, haccount, deserializeFields, takeField, RustTy.inst, deserializePrim]

/-- The deserialiser of a record without fields accepts a text. -/
theorem not_deserialize_ownShape :
    ¬ ∀ (Γ : TypeEnv String) (n : String) (v : DamlValue Int GregorianDay UtcInstant),
      (∃ x, deserialize Γ (.user n []) v = .ok x) → OwnShape Γ n [] v := by
  intro hall
  have hping : uncheckedEnv "Ping" = some (.record []) := rfl
  have haccept : ∃ x, deserialize uncheckedEnv (.user "Ping" [])
      (.text "pong" : DamlValue Int GregorianDay UtcInstant) = .ok x :=
    ⟨.record [], by simp only [deserialize, hping]⟩
  have hshape := hall uncheckedEnv "Ping" (.text "pong") haccept
  rw [OwnShape, hping] at hshape
  obtain ⟨r, hr, -⟩ := hshape
  cases hr

end DamlBindings.Grpc
