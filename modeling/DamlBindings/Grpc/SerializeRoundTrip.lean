import DamlBindings.Grpc.Serialize
import DamlBindings.Lib.Result

/-!
# Serialising a typed value and deserialising it again

Every well-typed Rust value comes back unchanged.  The one delicate case is a map with sorted
keys: it is re-collected in the order of the ledger values, which is not the order of the keys'
own type.  Nothing is lost in it because two keys whose ledger values compare as equal are equal
keys (`cmp_eq_of_serialize`), and nothing is moved because the entries determine the map.
-/

namespace DamlBindings.Grpc

open PartialCmp (andThen ofOrd Orders OrdersAt)

variable {N D T ι : Type}

/-! ### The order of Rust values is lawful -/

namespace RustValue

section Laws

variable [Ord N] [Ord D] [Ord T]

lemma partialCmpOption_eq (o p : Option (RustValue N D T)) :
    partialCmpOption o p = PartialCmp.option partialCmp o p := by
  cases o <;> cases p <;> rfl

lemma partialCmpList_eq (vs ws : List (RustValue N D T)) :
    partialCmpList vs ws = PartialCmp.list partialCmp vs ws := by
  induction vs generalizing ws with
  | nil => cases ws <;> rfl
  | cons v vs ih =>
    cases ws with
    | nil => rfl
    | cons w ws => exact congrArg (andThen (partialCmp v w)) (ih ws)

lemma partialCmpPairs_eq (m₁ m₂ : List (RustValue N D T × RustValue N D T)) :
    partialCmpPairs m₁ m₂ = PartialCmp.list (PartialCmp.pair partialCmp partialCmp) m₁ m₂ := by
  induction m₁ generalizing m₂ with
  | nil => cases m₂ <;> rfl
  | cons p m₁ ih =>
    cases m₂ with
    | nil => rfl
    | cons q m₂ => exact congrArg (andThen (PartialCmp.pair partialCmp partialCmp p q)) (ih m₂)

lemma comparators_eq (m : List (String × RustValue N D T)) :
    comparators m = AssocMap.mapValues partialCmp m := by
  induction m with
  | nil => rfl
  | cons p m ih => exact congrArg ((p.1, partialCmp p.2) :: ·) ih

/-- Text maps compare by size, then by their entries in the order of their keys. -/
def textMapCmp (m₁ m₂ : List (String × RustValue N D T)) : Option Ordering :=
  andThen (ofOrd m₁.length m₂.length)
    (PartialCmp.list (PartialCmp.pair ofOrd partialCmp) (AssocMap.sortByKey compare m₁)
      (AssocMap.sortByKey compare m₂))

lemma partialCmp_textMap (m₁ m₂ : List (String × RustValue N D T)) :
    partialCmp (.textMap m₁) (.textMap m₂) = textMapCmp m₁ m₂ := by
  show (if m₁.length = m₂.length then
      PartialCmp.list (PartialCmp.pair ofOrd fun c v => c v)
        (AssocMap.sortByKey compare (comparators m₁)) (AssocMap.sortByKey compare m₂)
    else ofOrd m₁.length m₂.length) = _
  rw [DamlValue.ite_length_eq, comparators_eq, AssocMap.sortByKey_mapValues,
    DamlValue.list_pair_mapValues, textMapCmp]

lemma partialCmp_optional (o p : Option (RustValue N D T)) :
    partialCmp (.optional o) (.optional p) = PartialCmp.option partialCmp o p :=
  partialCmpOption_eq o p

lemma partialCmp_list (vs ws : List (RustValue N D T)) :
    partialCmp (.list vs) (.list ws) = PartialCmp.list partialCmp vs ws := partialCmpList_eq vs ws

lemma partialCmp_record (vs ws : List (RustValue N D T)) :
    partialCmp (.record vs) (.record ws) = PartialCmp.list partialCmp vs ws :=
  partialCmpList_eq vs ws

lemma partialCmp_genMap (m₁ m₂ : List (RustValue N D T × RustValue N D T)) :
    partialCmp (.genMap m₁) (.genMap m₂) =
      PartialCmp.list (PartialCmp.pair partialCmp partialCmp) m₁ m₂ := partialCmpPairs_eq m₁ m₂

lemma partialCmp_variant (i j : Nat) (o p : Option (RustValue N D T)) :
    partialCmp (.variant i o) (.variant j p) =
      andThen (ofOrd i j) (PartialCmp.option partialCmp o p) :=
  congrArg _ (partialCmpOption_eq o p)

lemma partialCmp_enum (i j : Nat) :
    (partialCmp (.enum i) (.enum j : RustValue N D T)) = ofOrd i j := rfl

lemma partialCmp_of_ordinal_ne (a b : RustValue N D T) (h : a.ordinal ≠ b.ordinal) :
    partialCmp a b = some (compare a.ordinal b.ordinal) := by
  fun_cases partialCmp a b <;> first | rfl | exact absurd rfl h

lemma orders_of_constructor {α : Type*} {f : α → RustValue N D T}
    {cmp : α → α → Option Ordering} {x : α} (hx : Orders cmp x)
    (hf : ∀ x y, partialCmp (f x) (f y) = cmp x y)
    (hord : ∀ b : RustValue N D T, b.ordinal = (f x).ordinal → ∃ y, f y = b) :
    Orders partialCmp (f x) :=
  OrdersAt.ofKey ordinal partialCmp_of_ordinal_ne ((OrdersAt.map hf hx).mono hord)

variable [Std.TransOrd N] [Std.TransOrd D] [Std.TransOrd T]

/-- The comparison is lawful as seen from any value. -/
theorem orders (a : RustValue N D T) : Orders partialCmp a := by
  induction a with
  -- primitives are compared as the values they are serialised to
  | prim p =>
    have hp : Orders primCmp p := (DamlValue.orders p.toDamlValue).comap
    refine orders_of_constructor hp (fun _ _ => rfl) fun b hb => ?_
    cases b <;> simp_all [ordinal]
  | box v ih =>
    refine orders_of_constructor ih (fun _ _ => rfl) fun b hb => ?_
    cases b <;> simp_all [ordinal]
  | optional o ih =>
    refine orders_of_constructor (PartialCmp.orders_option ih) partialCmp_optional fun b hb => ?_
    cases b <;> simp_all [ordinal]
  | list vs ih =>
    refine orders_of_constructor (PartialCmp.orders_list ih) partialCmp_list fun b hb => ?_
    cases b <;> simp_all [ordinal]
  | textMap m ih =>
    have hm : Orders textMapCmp m :=
      OrdersAt.andThen (PartialCmp.orders_ofOrd _) (PartialCmp.orders_list fun p hp =>
        PartialCmp.orders_pair (PartialCmp.orders_ofOrd _) (ih p (AssocMap.mem_sortByKey.1 hp)))
    refine orders_of_constructor hm partialCmp_textMap fun b hb => ?_
    cases b <;> simp_all [ordinal]
  | genMap m ih =>
    refine orders_of_constructor (PartialCmp.orders_list fun p hp =>
      PartialCmp.orders_pair (ih p hp).1 (ih p hp).2) partialCmp_genMap fun b hb => ?_
    cases b <;> simp_all [ordinal]
  | record vs ih =>
    refine orders_of_constructor (PartialCmp.orders_list ih) partialCmp_record fun b hb => ?_
    cases b <;> simp_all [ordinal]
  | variant i o ih =>
    have hx : Orders (fun x y : Nat × Option (RustValue N D T) =>
        andThen (ofOrd x.1 y.1) (PartialCmp.option partialCmp x.2 y.2)) (i, o) :=
      OrdersAt.andThen (PartialCmp.orders_ofOrd _) (PartialCmp.orders_option ih)
    refine orders_of_constructor (f := fun x => .variant x.1 x.2) hx
      (fun _ _ => partialCmp_variant ..) fun b hb => ?_
    cases b <;> simp_all [ordinal]
  | enum i =>
    refine orders_of_constructor (PartialCmp.orders_ofOrd i) (fun _ _ => rfl) fun b hb => ?_
    cases b <;> simp_all [ordinal]

lemma partialCmp_eq_some_cmp (a b : RustValue N D T) : partialCmp a b = some (cmp a b) := by
  obtain ⟨o, ho⟩ := Option.isSome_iff_exists.1 ((orders a).total b trivial)
  rw [cmp, ho, Option.getD_some]

instance : Std.TransCmp (cmp : RustValue N D T → RustValue N D T → Ordering) where
  eq_swap {a b} := by simpa [partialCmp_eq_some_cmp] using (orders b).swap a trivial
  isLE_trans {a b c} hab hbc := by
    have h := (orders a).trans trivial trivial (partialCmp_eq_some_cmp a b)
      (partialCmp_eq_some_cmp b c) hab hbc
    rw [partialCmp_eq_some_cmp, Option.some.injEq] at h
    rw [h]
    cases hab' : cmp a b <;> simp_all

end Laws

end RustValue

/-! ### What the helpers of the two functions do -/

section Helpers

variable [Ord N] [Ord D] [Ord T] {Γ : TypeEnv ι} {t k : RustTy ι} {args : List (RustTy ι)}

lemma serialize_optional_none (t : RustTy ι) :
    serialize Γ (.optional t) (.optional none : RustValue N D T) = some (.optional none) := rfl

lemma serialize_optional_some (t : RustTy ι) (v : RustValue N D T) :
    serialize Γ (.optional t) (.optional (some v)) =
      (serialize Γ t v).map fun w => .optional (some w) := rfl

lemma serialize_list (t : RustTy ι) (vs : List (RustValue N D T)) :
    serialize Γ (.list t) (.list vs) = (serializeList Γ t vs).map .list := rfl

lemma serialize_textMap (t : RustTy ι) (m : List (String × RustValue N D T)) :
    serialize Γ (.textMap t) (.textMap m) =
      (serializeEntries Γ t m).map fun es => .textMap (AssocMap.ofList es) := rfl

lemma serialize_genMap (k t : RustTy ι) (m : List (RustValue N D T × RustValue N D T)) :
    serialize Γ (.genMap k t) (.genMap m) =
      (serializePairs Γ k t m).map fun es =>
        .genMap (AssocMap.ofListSorted DamlValue.cmp es) := rfl

lemma serializeList_cons (v : RustValue N D T) (vs : List (RustValue N D T)) :
    serializeList Γ t (v :: vs) = do return (← serialize Γ t v) :: (← serializeList Γ t vs) := rfl

lemma serializeEntries_cons (p : String × RustValue N D T) (m : List (String × RustValue N D T)) :
    serializeEntries Γ t (p :: m) =
      do return (p.1, ← serialize Γ t p.2) :: (← serializeEntries Γ t m) := rfl

lemma serializePairs_cons (p : RustValue N D T × RustValue N D T)
    (m : List (RustValue N D T × RustValue N D T)) :
    serializePairs Γ k t (p :: m) =
      do return (← serialize Γ k p.1, ← serialize Γ t p.2) :: (← serializePairs Γ k t m) := rfl

lemma serializeFields_cons (f : String × RustTy ι) (fs : List (String × RustTy ι))
    (v : RustValue N D T) (vs : List (RustValue N D T)) :
    serializeFields Γ args (f :: fs) (v :: vs) = do
      return ⟨some f.1, ← serialize Γ (f.2.inst args) v⟩ :: (← serializeFields Γ args fs vs) := rfl

lemma some_nil_eq_some {α β : Type*} {R : β → α → Prop} {xs : List α} :
    (some [] : Option (List α)) = some xs ↔ List.Forall₂ R [] xs := by
  cases xs <;> simp

lemma serializeList_eq_some {vs : List (RustValue N D T)} {ws : List (DamlValue N D T)} :
    serializeList Γ t vs = some ws ↔
      List.Forall₂ (fun v w => serialize Γ t v = some w) vs ws := by
  induction vs generalizing ws with
  | nil => exact some_nil_eq_some
  | cons v vs ih =>
    simp only [serializeList_cons, Option.bind_eq_bind, Option.bind_eq_some_iff, Option.pure_def,
      Option.some.injEq, ih, List.forall₂_cons_left_iff]
    exact ⟨fun ⟨w, hw, ws', hws, he⟩ => ⟨w, ws', hw, hws, he.symm⟩,
      fun ⟨w, ws', hw, hws, he⟩ => ⟨w, hw, ws', hws, he.symm⟩⟩

lemma serializeEntries_eq_some {m : List (String × RustValue N D T)}
    {es : List (String × DamlValue N D T)} :
    serializeEntries Γ t m = some es ↔
      List.Forall₂ (fun p q => p.1 = q.1 ∧ serialize Γ t p.2 = some q.2) m es := by
  induction m generalizing es with
  | nil => exact some_nil_eq_some
  | cons p m ih =>
    simp only [serializeEntries_cons, Option.bind_eq_bind, Option.bind_eq_some_iff, Option.pure_def,
      Option.some.injEq, ih]
    constructor
    · rintro ⟨w, hw, es', hes, rfl⟩
      exact .cons ⟨rfl, hw⟩ hes
    · rintro (_ | ⟨⟨hk, hw⟩, hes⟩)
      exact ⟨_, hw, _, hes, by rw [hk]⟩

lemma serializePairs_eq_some {m : List (RustValue N D T × RustValue N D T)}
    {es : List (DamlValue N D T × DamlValue N D T)} :
    serializePairs Γ k t m = some es ↔
      List.Forall₂ (fun p q => serialize Γ k p.1 = some q.1 ∧ serialize Γ t p.2 = some q.2)
        m es := by
  induction m generalizing es with
  | nil => exact some_nil_eq_some
  | cons p m ih =>
    simp only [serializePairs_cons, Option.bind_eq_bind, Option.bind_eq_some_iff, Option.pure_def,
      Option.some.injEq, ih]
    constructor
    · rintro ⟨a, ha, w, hw, es', hes, rfl⟩
      exact .cons ⟨ha, hw⟩ hes
    · rintro (_ | ⟨⟨ha, hw⟩, hes⟩)
      exact ⟨_, ha, _, hw, _, hes, rfl⟩

lemma serializeFields_eq_some {fs : List (String × RustTy ι)} {vs : List (RustValue N D T)}
    {gs : List (DamlRecordField (DamlValue N D T))} (hlen : fs.length = vs.length) :
    serializeFields Γ args fs vs = some gs ↔
      List.Forall₂ (fun p g => some p.1.1 = g.label ∧
        serialize Γ (p.1.2.inst args) p.2 = some g.value) (fs.zip vs) gs := by
  induction vs generalizing fs gs with
  | nil =>
    obtain rfl := List.length_eq_zero_iff.1 hlen
    exact some_nil_eq_some
  | cons v vs ih =>
    obtain ⟨f, fs, rfl⟩ := List.exists_cons_of_length_eq_add_one hlen
    simp only [serializeFields_cons, Option.bind_eq_bind, Option.bind_eq_some_iff, Option.pure_def,
      Option.some.injEq, ih (by simpa using hlen), List.zip_cons_cons]
    constructor
    · rintro ⟨w, hw, gs', hgs, rfl⟩
      exact .cons ⟨rfl, hw⟩ hgs
    · rintro (_ | ⟨⟨hl, hw⟩, hgs⟩)
      exact ⟨_, hw, _, hgs, by rw [hl]⟩

lemma deserializeList_eq_ok {ws : List (DamlValue N D T)} {vs : List (RustValue N D T)} :
    deserializeList Γ t ws = .ok vs ↔
      List.Forall₂ (fun w v => deserialize Γ t w = .ok v) ws vs := by
  induction ws generalizing vs with
  | nil => cases vs <;> simp [deserializeList]
  | cons w ws ih =>
    rw [deserializeList]
    simp only [Except.bind_eq_ok, Except.pure_eq_ok, ih, List.forall₂_cons_left_iff]
    constructor
    · rintro ⟨v, hv, vs', hvs, rfl⟩
      exact ⟨v, vs', hv, hvs, rfl⟩
    · rintro ⟨v, vs', hv, hvs, rfl⟩
      exact ⟨v, hv, vs', hvs, rfl⟩

lemma deserializeEntries_eq_ok {es : List (String × DamlValue N D T)}
    {m : List (String × RustValue N D T)} :
    deserializeEntries Γ t es = .ok m ↔
      List.Forall₂ (fun q p => q.1 = p.1 ∧ deserialize Γ t q.2 = .ok p.2) es m := by
  induction es generalizing m with
  | nil => cases m <;> simp [deserializeEntries]
  | cons q es ih =>
    rw [deserializeEntries]
    simp only [Except.bind_eq_ok, Except.pure_eq_ok, ih]
    constructor
    · rintro ⟨v, hv, m', hm, rfl⟩
      exact .cons ⟨rfl, hv⟩ hm
    · rintro (_ | ⟨⟨hk, hv⟩, hm⟩)
      exact ⟨_, hv, _, hm, by rw [hk]⟩

lemma deserializePairs_eq_ok {es : List (DamlValue N D T × DamlValue N D T)}
    {m : List (RustValue N D T × RustValue N D T)} :
    deserializePairs Γ k t es = .ok m ↔
      List.Forall₂ (fun q p => deserialize Γ k q.1 = .ok p.1 ∧ deserialize Γ t q.2 = .ok p.2)
        es m := by
  induction es generalizing m with
  | nil => cases m <;> simp [deserializePairs]
  | cons q es ih =>
    rw [deserializePairs]
    simp only [Except.bind_eq_ok, Except.pure_eq_ok, ih]
    constructor
    · rintro ⟨a, ha, v, hv, m', hm, rfl⟩
      exact .cons ⟨ha, hv⟩ hm
    · rintro (_ | ⟨⟨ha, hv⟩, hm⟩)
      exact ⟨_, ha, _, hv, _, hm, rfl⟩

/-- The fields of a serialised record are taken out one by one, each from the front. -/
lemma deserializeFields_eq_ok {fs : List (String × RustTy ι)} {vs : List (RustValue N D T)}
    {gs : List (DamlRecordField (DamlValue N D T))} (hlen : fs.length = vs.length)
    (h : List.Forall₂ (fun p g => some p.1.1 = g.label ∧
      deserialize Γ (p.1.2.inst args) g.value = .ok p.2) (fs.zip vs) gs) :
    deserializeFields Γ args fs gs = .ok vs := by
  induction vs generalizing fs gs with
  | nil =>
    obtain rfl := List.length_eq_zero_iff.1 hlen
    rw [deserializeFields]
  | cons v vs ih =>
    obtain ⟨f, fs, rfl⟩ := List.exists_cons_of_length_eq_add_one hlen
    rw [List.zip_cons_cons] at h
    obtain _ | @⟨_, g, _, gs, ⟨hl, hv⟩, htail⟩ := h
    have htake : takeField f.1 (g :: gs) = .ok (g.value, gs) := by
      rw [takeField, if_pos hl.symm]
    rw [deserializeFields]
    split
    next e he => rw [htake] at he; cases he
    next w rest hw =>
      rw [htake, Except.ok.injEq, Prod.mk.injEq] at hw
      obtain ⟨rfl, rfl⟩ := hw
      simp only [Except.bind_eq_ok, Except.pure_eq_ok]
      exact ⟨v, hv, vs, ih (by simpa using hlen) htail, rfl⟩

end Helpers

/-! ### Values whose ledger values compare as equal -/

section Reflect

variable [Ord N] [Ord D] [Ord T] {Γ : TypeEnv ι}

/-- If `a` and `b` are values of one type whose ledger values compare as equal, they compare as
equal themselves. -/
def Reflects (Γ : TypeEnv ι) (a b : RustValue N D T) : Prop :=
  ∀ t x y, HasTy Γ a t → HasTy Γ b t → serialize Γ t a = some x → serialize Γ t b = some y →
    DamlValue.partialCmp x y = some .eq → RustValue.partialCmp a b = some .eq

lemma reflects_optional {o o' : Option (RustValue N D T)}
    (h : ∀ v ∈ o, ∀ w ∈ o', Reflects Γ v w) : Reflects Γ (.optional o) (.optional o') := by
  intro t x y ha hb hx hy hxy
  cases ha with | optional ha => cases hb with | optional hb =>
  rcases o with _ | v <;> rcases o' with _ | w <;>
    simp only [serialize_optional_none, serialize_optional_some, Option.some.injEq,
      Option.map_eq_some_iff] at hx hy
  · rfl
  · obtain ⟨y, hy, rfl⟩ := hy
    subst hx
    simp [DamlValue.partialCmp_optional, PartialCmp.option] at hxy
  · obtain ⟨x, hx, rfl⟩ := hx
    subst hy
    simp [DamlValue.partialCmp_optional, PartialCmp.option] at hxy
  · obtain ⟨x, hx, rfl⟩ := hx
    obtain ⟨y, hy, rfl⟩ := hy
    exact h v rfl w rfl _ _ _ (ha v rfl) (hb w rfl) hx hy hxy

lemma reflects_list {vs vs' : List (RustValue N D T)}
    (h : ∀ v ∈ vs, ∀ w ∈ vs', Reflects Γ v w) : Reflects Γ (.list vs) (.list vs') := by
  intro t x y ha hb hx hy hxy
  cases ha with | list ha => cases hb with | list hb =>
  simp only [serialize_list, Option.map_eq_some_iff, serializeList_eq_some] at hx hy
  obtain ⟨ws, hws, rfl⟩ := hx
  obtain ⟨ws', hws', rfl⟩ := hy
  rw [DamlValue.partialCmp_list, PartialCmp.list_eq_some_eq] at hxy
  rw [RustValue.partialCmp_list, PartialCmp.list_eq_some_eq]
  exact hws.zigzag hws' hxy fun v hv w hw _ _ => h v hv w hw _ _ _ (ha v hv) (hb w hw)

lemma reflects_textMap {m m' : List (String × RustValue N D T)}
    (h : ∀ p ∈ m, ∀ q ∈ m', Reflects Γ p.2 q.2) : Reflects Γ (.textMap m) (.textMap m') := by
  intro t x y ha hb hx hy hxy
  cases ha with | textMap hnd ha => cases hb with | textMap hnd' hb =>
  simp only [serialize_textMap, Option.map_eq_some_iff, serializeEntries_eq_some] at hx hy
  obtain ⟨es, hes, rfl⟩ := hx
  obtain ⟨es', hes', rfl⟩ := hy
  rw [AssocMap.ofList_eq_self (AssocMap.keys_eq_of_forall₂ (hes.imp fun _ _ h => h.1) ▸ hnd),
    AssocMap.ofList_eq_self (AssocMap.keys_eq_of_forall₂ (hes'.imp fun _ _ h => h.1) ▸ hnd'),
    DamlValue.partialCmp_textMap, DamlValue.textMapCmp, PartialCmp.andThen_eq_some_eq,
    ofOrd_eq_some_eq, PartialCmp.list_eq_some_eq] at hxy
  rw [RustValue.partialCmp_textMap, RustValue.textMapCmp, PartialCmp.andThen_eq_some_eq,
    ofOrd_eq_some_eq, PartialCmp.list_eq_some_eq, hes.length_eq, hes'.length_eq]
  have hsorted := AssocMap.forall₂_sortByKey compare
    (R := fun v w => serialize Γ _ v = some w) hes
  have hsorted' := AssocMap.forall₂_sortByKey compare
    (R := fun v w => serialize Γ _ v = some w) hes'
  refine ⟨hxy.1, hsorted.zigzag hsorted' hxy.2 fun p hp q hq d e hpd hqe hde => ?_⟩
  rw [PartialCmp.pair, PartialCmp.andThen_eq_some_eq, ofOrd_eq_some_eq] at hde ⊢
  rw [AssocMap.mem_sortByKey] at hp hq
  exact ⟨by rw [hpd.1, hde.1, hqe.1],
    h p hp q hq _ _ _ (ha p hp) (hb q hq) hpd.2 hqe.2 hde.2⟩

/-- The fields of two records of one type, place by place. -/
lemma reflects_fields {args : List (RustTy ι)} {fs : List (String × RustTy ι)}
    {vs vs' : List (RustValue N D T)} {gs gs' : List (DamlRecordField (DamlValue N D T))}
    (h : ∀ v ∈ vs, ∀ w ∈ vs', Reflects Γ v w)
    (hlen : fs.length = vs.length) (hlen' : fs.length = vs'.length)
    (hvs : ∀ p ∈ fs.zip vs, HasTy Γ p.2 (p.1.2.inst args))
    (hvs' : ∀ p ∈ fs.zip vs', HasTy Γ p.2 (p.1.2.inst args))
    (hgs : serializeFields Γ args fs vs = some gs)
    (hgs' : serializeFields Γ args fs vs' = some gs')
    (hcmp : List.Forall₂ (fun f g => DamlValue.fieldCmp f g = some .eq) gs gs') :
    List.Forall₂ (fun v w => RustValue.partialCmp v w = some .eq) vs vs' := by
  rw [serializeFields_eq_some hlen] at hgs
  rw [serializeFields_eq_some hlen'] at hgs'
  induction fs generalizing vs vs' gs gs' with
  | nil =>
    rw [List.length_eq_zero_iff.1 hlen.symm, List.length_eq_zero_iff.1 hlen'.symm]
    exact .nil
  | cons f fs ih =>
    obtain ⟨v, vs, rfl⟩ := List.exists_cons_of_length_eq_add_one hlen.symm
    obtain ⟨w, vs', rfl⟩ := List.exists_cons_of_length_eq_add_one hlen'.symm
    simp only [List.zip_cons_cons, List.forall_mem_cons] at hvs hvs'
    obtain _ | ⟨⟨_, hx⟩, hgs⟩ := hgs
    obtain _ | ⟨⟨_, hy⟩, hgs'⟩ := hgs'
    obtain _ | ⟨hcmp₁, hcmp⟩ := hcmp
    refine .cons ?_ (ih (fun v hv w hw => h v (.tail _ hv) w (.tail _ hw)) (by simpa using hlen)
      (by simpa using hlen') hvs.2 hvs'.2 hgs hgs' hcmp)
    rw [DamlValue.fieldCmp, PartialCmp.andThen_eq_some_eq] at hcmp₁
    exact h v (.head _) w (.head _) _ _ _ hvs.1 hvs'.1 hx hy hcmp₁.2

lemma reflects_record {vs vs' : List (RustValue N D T)}
    (h : ∀ v ∈ vs, ∀ w ∈ vs', Reflects Γ v w) : Reflects Γ (.record vs) (.record vs') := by
  intro t x y ha hb hx hy hxy
  cases ha with | @record n args fs _ hΓ hlen ha =>
  cases hb with | @record _ _ fs' _ hΓ' hlen' hb =>
  obtain rfl : fs = fs' := by simpa [hΓ] using hΓ'
  simp only [serialize, hΓ, Option.map_eq_some_iff] at hx hy
  obtain ⟨gs, hgs, rfl⟩ := hx
  obtain ⟨gs', hgs', rfl⟩ := hy
  rw [DamlValue.partialCmp_record, PartialCmp.andThen_eq_some_eq,
    PartialCmp.list_eq_some_eq] at hxy
  rw [RustValue.partialCmp_record, PartialCmp.list_eq_some_eq]
  exact reflects_fields h hlen hlen' ha hb hgs hgs' hxy.2

/-- The constructors of a variant or an enum are told apart by their names. -/
lemma eq_of_getElem?_of_nodup {α : Type*} {l : List α} (h : l.Nodup) {i j : Nat} {a : α}
    (hi : l[i]? = some a) (hj : l[j]? = some a) : i = j := by
  obtain ⟨hi', hi⟩ := List.getElem?_eq_some_iff.1 hi
  obtain ⟨hj', hj⟩ := List.getElem?_eq_some_iff.1 hj
  exact h.getElem_inj_iff.1 (hi.trans hj.symm)

lemma reflects_variant {i j : Nat} {o o' : Option (RustValue N D T)}
    (h : ∀ v ∈ o, ∀ w ∈ o', Reflects Γ v w) : Reflects Γ (.variant i o) (.variant j o') := by
  intro t x y ha hb hx hy hxy
  -- the same name is the same constructor, so either both have a payload or none has
  cases ha with
  | @unitVariant n args cs hd _ c ty hΓ hc hu =>
    simp only [serialize, hΓ, hc, hu, if_true, Option.some.injEq] at hx
    subst hx
    cases hb with
    | @unitVariant _ _ cs' hd' _ c' ty' hΓ' hc' hu' =>
      obtain rfl : cs = cs' := by simpa [hΓ] using hΓ'
      simp only [serialize, hΓ, hc', hu', if_true, Option.some.injEq] at hy
      subst hy
      simp only [DamlValue.partialCmp_variant, PartialCmp.andThen_eq_some_eq,
        ofOrd_eq_some_eq] at hxy
      obtain rfl : i = j := eq_of_getElem?_of_nodup (l := cs.map Prod.fst) hd (a := c)
        (by simp [hc]) (by simp [hc', hxy.2.1])
      simp [RustValue.partialCmp_variant, PartialCmp.option, ofOrd]
    | @variant _ _ cs' hd' _ c' ty' v hΓ' hc' hu' hv =>
      obtain rfl : cs = cs' := by simpa [hΓ] using hΓ'
      simp only [serialize, hΓ, hc', hu', Bool.false_eq_true, if_false,
        Option.map_eq_some_iff] at hy
      obtain ⟨w, -, rfl⟩ := hy
      simp only [DamlValue.partialCmp_variant, PartialCmp.andThen_eq_some_eq,
        ofOrd_eq_some_eq] at hxy
      obtain rfl : i = j := eq_of_getElem?_of_nodup (l := cs.map Prod.fst) hd (a := c)
        (by simp [hc]) (by simp [hc', hxy.2.1])
      simp_all
  | @variant n args cs hd _ c ty v hΓ hc hu hv =>
    simp only [serialize, hΓ, hc, hu, Bool.false_eq_true, if_false, Option.map_eq_some_iff] at hx
    obtain ⟨x, hx, rfl⟩ := hx
    cases hb with
    | @unitVariant _ _ cs' hd' _ c' ty' hΓ' hc' hu' =>
      obtain rfl : cs = cs' := by simpa [hΓ] using hΓ'
      simp only [serialize, hΓ, hc', hu', if_true, Option.some.injEq] at hy
      subst hy
      simp only [DamlValue.partialCmp_variant, PartialCmp.andThen_eq_some_eq,
        ofOrd_eq_some_eq] at hxy
      obtain rfl : i = j := eq_of_getElem?_of_nodup (l := cs.map Prod.fst) hd (a := c)
        (by simp [hc]) (by simp [hc', hxy.2.1])
      simp_all
    | @variant _ _ cs' hd' _ c' ty' v' hΓ' hc' hu' hv' =>
      obtain rfl : cs = cs' := by simpa [hΓ] using hΓ'
      simp only [serialize, hΓ, hc', hu', Bool.false_eq_true, if_false,
        Option.map_eq_some_iff] at hy
      obtain ⟨y, hy, rfl⟩ := hy
      simp only [DamlValue.partialCmp_variant, PartialCmp.andThen_eq_some_eq,
        ofOrd_eq_some_eq] at hxy
      obtain rfl : i = j := eq_of_getElem?_of_nodup (l := cs.map Prod.fst) hd (a := c)
        (by simp [hc]) (by simp [hc', hxy.2.1])
      obtain ⟨-, rfl⟩ : c = c' ∧ ty = ty' := by simpa using hc.symm.trans hc'
      rw [RustValue.partialCmp_variant, PartialCmp.andThen_eq_some_eq, ofOrd_eq_some_eq]
      exact ⟨rfl, h v rfl v' rfl _ _ _ hv hv' hx hy hxy.2.2⟩

lemma reflects_enum {i j : Nat} : Reflects Γ (.enum i : RustValue N D T) (.enum j) := by
  intro t x y ha hb hx hy hxy
  cases ha with | @enum n args cs hd _ c hΓ hc =>
  cases hb with | @enum _ _ cs' hd' _ c' hΓ' hc' =>
  obtain rfl : cs = cs' := by simpa [hΓ] using hΓ'
  simp only [serialize, hΓ, hc, hc', Option.map_some, Option.some.injEq] at hx hy
  subst hx hy
  rw [DamlValue.partialCmp_enum, DamlEnum.partialCmp_eq_some_eq, DamlEnum.mk.injEq] at hxy
  obtain ⟨-, rfl⟩ := hxy
  rw [RustValue.partialCmp_enum, ofOrd_eq_some_eq]
  exact eq_of_getElem?_of_nodup hd hc hc'

variable [Std.TransOrd N] [Std.TransOrd D] [Std.TransOrd T]

/-- Distinct keys serialise to distinct keys, so that re-collecting the entries in the order of
the ledger values keeps them all. -/
lemma pairwise_serialized_keys {m : List (RustValue N D T × RustValue N D T)} {k t : RustTy ι}
    {es : List (DamlValue N D T × DamlValue N D T)}
    (h : ∀ p ∈ m, ∀ q ∈ m, Reflects Γ p.1 q.1)
    (hasc : (AssocMap.keys m).Pairwise fun a b => RustValue.cmp a b = .lt)
    (hk : ∀ p ∈ m, HasTy Γ p.1 k)
    (hes : List.Forall₂ (fun p q => serialize Γ k p.1 = some q.1 ∧
      serialize Γ t p.2 = some q.2) m es) :
    (AssocMap.keys es).Pairwise fun a b => DamlValue.cmp a b ≠ .eq := by
  have hes' := hes.imp_of_mem (S := fun p q => p ∈ m ∧ serialize Γ k p.1 = some q.1)
    fun p hp _ _ h => ⟨hp, h.1⟩
  refine List.pairwise_map.2 (hes'.pairwise (List.pairwise_map.1 hasc) ?_)
  rintro p p' q q' ⟨hp, hq⟩ ⟨hp', hq'⟩ hlt heq
  have hcmp := h p hp p' hp' _ _ _ (hk p hp) (hk p' hp') hq hq'
    (by rw [DamlValue.partialCmp_eq_some_cmp, heq])
  rw [RustValue.partialCmp_eq_some_cmp, hlt] at hcmp
  exact absurd hcmp (by simp)

lemma reflects_genMap {m m' : List (RustValue N D T × RustValue N D T)}
    (hkeys : ∀ p ∈ m ++ m', ∀ q ∈ m ++ m', Reflects Γ p.1 q.1)
    (hvals : ∀ p ∈ m, ∀ q ∈ m', Reflects Γ p.2 q.2) :
    Reflects Γ (.genMap m) (.genMap m') := by
  intro t x y ha hb hx hy hxy
  cases ha with | genMap hasc hak hav => cases hb with | genMap hasc' hbk hbv =>
  simp only [serialize_genMap, Option.map_eq_some_iff, serializePairs_eq_some] at hx hy
  obtain ⟨es, hes, rfl⟩ := hx
  obtain ⟨es', hes', rfl⟩ := hy
  rw [DamlValue.partialCmp_genMap, DamlValue.genMapCmp, PartialCmp.andThen_eq_some_eq,
    PartialCmp.list_eq_some_eq] at hxy
  rw [RustValue.partialCmp_genMap, PartialCmp.list_eq_some_eq]
  -- both maps in the order of their ledger values
  have hperm := AssocMap.perm_ofListSorted (pairwise_serialized_keys
    (fun p hp q hq => hkeys p (by simp [hp]) q (by simp [hq])) hasc hak hes)
  have hperm' := AssocMap.perm_ofListSorted (pairwise_serialized_keys
    (fun p hp q hq => hkeys p (by simp [hp]) q (by simp [hq])) hasc' hbk hes')
  obtain ⟨l, hml, hl⟩ := hes.exists_perm_left hperm.symm
  obtain ⟨l', hml', hl'⟩ := hes'.exists_perm_left hperm'.symm
  have hll' : List.Forall₂ (fun p q => PartialCmp.pair RustValue.partialCmp
      RustValue.partialCmp p q = some .eq) l l' := by
    refine hl.zigzag hl' hxy.2 fun p hp q hq d e hpd hqe hde => ?_
    rw [PartialCmp.pair, PartialCmp.andThen_eq_some_eq] at hde ⊢
    rw [← hml.mem_iff] at hp
    rw [← hml'.mem_iff] at hq
    exact ⟨hkeys p (by simp [hp]) q (by simp [hq]) _ _ _ (hak p hp) (hbk q hq) hpd.1 hqe.1 hde.1,
      hvals p hp q hq _ _ _ (hav p hp) (hbv q hq) hpd.2 hqe.2 hde.2⟩
  -- back in the order of the keys: the entries determine the map
  obtain ⟨l₂, hml₂, hl₂⟩ := List.Forall₂.exists_perm_right hml hll'
  suffices heq : l₂ = m' from heq ▸ hml₂
  refine AssocMap.eq_of_perm_of_pairwise_lt (hl₂.trans hml'.symm) ?_ hasc'
  refine List.pairwise_map.2 (hml₂.pairwise (List.pairwise_map.1 hasc) ?_)
  intro p p' q q' hpq hpq' hlt
  rw [PartialCmp.pair, PartialCmp.andThen_eq_some_eq, RustValue.partialCmp_eq_some_cmp,
    Option.some.injEq] at hpq hpq'
  rwa [← Std.TransCmp.congr_left hpq.1, ← Std.TransCmp.congr_right hpq'.1]

lemma sizeOf_fst_lt {α β : Type} [SizeOf α] [SizeOf β] {m : List (α × β)} {p : α × β}
    (hp : p ∈ m) : sizeOf p.1 < sizeOf m := by
  have := List.sizeOf_lt_of_mem hp
  cases p
  simp only [Prod.mk.sizeOf_spec] at this ⊢
  omega

lemma sizeOf_snd_lt {α β : Type} [SizeOf α] [SizeOf β] {m : List (α × β)} {p : α × β}
    (hp : p ∈ m) : sizeOf p.2 < sizeOf m := by
  have := List.sizeOf_lt_of_mem hp
  cases p
  simp only [Prod.mk.sizeOf_spec] at this ⊢
  omega

/-- Two well-typed values of one type whose ledger values compare as equal compare as equal.
The induction is on a bound of the sizes of both, since the keys on either side are compared
among themselves as well. -/
theorem reflects (a b : RustValue N D T) : Reflects Γ a b := by
  suffices hsize : ∀ n, ∀ a b : RustValue N D T, sizeOf a < n → sizeOf b < n →
      Reflects Γ a b from hsize (sizeOf a + sizeOf b + 1) a b (by omega) (by omega)
  intro n
  induction n with
  | zero => intro a b hlt; omega
  | succ n ih =>
    intro a b hsa hsb
    -- values of different shapes have no type in common
    have hshape : a.ordinal ≠ b.ordinal → Reflects Γ a b := by
      intro hne t x y ha hb
      cases ha <;> cases hb <;> simp_all [RustValue.ordinal]
    cases a with
    | prim p =>
      intro t x y ha hb hx hy hxy
      cases ha with | prim hp => cases hb with | prim hq =>
      cases hx
      cases hy
      exact hxy
    | box v =>
      intro t x y ha hb hx hy hxy
      cases ha with | box ha => cases hb with | box hb =>
      simp only [RustValue.box.sizeOf_spec] at hsa hsb
      rw [RustValue.partialCmp]
      exact ih v _ (by omega) (by omega) _ _ _ ha hb hx hy hxy
    | optional o =>
      cases b with
      | optional o' =>
        refine reflects_optional fun v hv w hw => ?_
        cases hv
        cases hw
        simp only [RustValue.optional.sizeOf_spec, Option.some.sizeOf_spec] at hsa hsb
        exact ih v w (by omega) (by omega)
      | _ => exact hshape (by simp [RustValue.ordinal])
    | list vs =>
      cases b with
      | list vs' =>
        refine reflects_list fun v hv w hw => ?_
        have := List.sizeOf_lt_of_mem hv
        have := List.sizeOf_lt_of_mem hw
        simp only [RustValue.list.sizeOf_spec] at hsa hsb
        exact ih v w (by omega) (by omega)
      | _ => exact hshape (by simp [RustValue.ordinal])
    | textMap m =>
      cases b with
      | textMap m' =>
        refine reflects_textMap fun p hp q hq => ?_
        have := sizeOf_snd_lt hp
        have := sizeOf_snd_lt hq
        simp only [RustValue.textMap.sizeOf_spec] at hsa hsb
        exact ih p.2 q.2 (by omega) (by omega)
      | _ => exact hshape (by simp [RustValue.ordinal])
    | genMap m =>
      cases b with
      | genMap m' =>
        simp only [RustValue.genMap.sizeOf_spec] at hsa hsb
        have hfst : ∀ p ∈ m ++ m', sizeOf p.1 < n := fun p hp => by
          rcases List.mem_append.1 hp with hp | hp <;> have := sizeOf_fst_lt hp <;> omega
        refine reflects_genMap (fun p hp q hq => ih p.1 q.1 (hfst p hp) (hfst q hq))
          fun p hp q hq => ?_
        have := sizeOf_snd_lt hp
        have := sizeOf_snd_lt hq
        exact ih p.2 q.2 (by omega) (by omega)
      | _ => exact hshape (by simp [RustValue.ordinal])
    | record vs =>
      cases b with
      | record vs' =>
        refine reflects_record fun v hv w hw => ?_
        have := List.sizeOf_lt_of_mem hv
        have := List.sizeOf_lt_of_mem hw
        simp only [RustValue.record.sizeOf_spec] at hsa hsb
        exact ih v w (by omega) (by omega)
      | _ => exact hshape (by simp [RustValue.ordinal])
    | variant i o =>
      cases b with
      | variant j o' =>
        refine reflects_variant fun v hv w hw => ?_
        cases hv
        cases hw
        simp only [RustValue.variant.sizeOf_spec, Option.some.sizeOf_spec] at hsa hsb
        exact ih v w (by omega) (by omega)
      | _ => exact hshape (by simp [RustValue.ordinal])
    | enum i =>
      cases b with
      | enum j => exact reflects_enum
      | _ => exact hshape (by simp [RustValue.ordinal])

end Reflect

/-! ### The round trip -/

lemma deserializePrim_toDamlValue {p : Prim N D T} {t : PrimTy} (h : p.HasTy t) :
    deserializePrim t p.toDamlValue = .ok p := by
  cases p <;> cases t <;> first | rfl | exact h.elim

/-- The name of a constructor leads back to its index. -/
lemma findIdx?_name {α : Type*} {f : α → String} {cs : List α} (hd : (cs.map f).Nodup)
    {i : Nat} {c : α} (hc : cs[i]? = some c) : cs.findIdx? (fun d => f d == f c) = some i := by
  obtain ⟨hi, rfl⟩ := List.getElem?_eq_some_iff.1 hc
  rw [List.findIdx?_eq_some_iff_getElem]
  refine ⟨hi, by simp, fun j hj he => ?_⟩
  have hj' : j < cs.length := hj.trans hi
  have heq : i = j := eq_of_getElem?_of_nodup hd (a := f cs[i]) (by simp [hi])
    (by simpa [hj'] using he)
  omega

section RoundTrip

variable [Ord N] [Ord D] [Ord T] [Std.TransOrd N] [Std.TransOrd D] [Std.TransOrd T]

/-- A well-typed value is serialised to a ledger value that is deserialised to it. -/
theorem deserialize_serialize {Γ : TypeEnv ι} {v : RustValue N D T} {t : RustTy ι}
    (h : HasTy Γ v t) : ∃ w, serialize Γ t v = some w ∧ deserialize Γ t w = .ok v := by
  induction h with
  | @prim p t hp =>
    refine ⟨p.toDamlValue, rfl, ?_⟩
    rw [deserialize, deserializePrim_toDamlValue hp]
    rfl
  | box _ ih =>
    obtain ⟨w, hw, hv⟩ := ih
    refine ⟨w, by rw [serialize, hw], ?_⟩
    rw [deserialize, hv]
    rfl
  | @optional o t _ ih =>
    rcases o with _ | v
    · exact ⟨.optional none, rfl, by rw [deserialize]⟩
    · obtain ⟨w, hw, hv⟩ := ih v rfl
      refine ⟨.optional (some w), by rw [serialize, hw]; rfl, ?_⟩
      rw [deserialize, hv]
      rfl
  | @list vs t _ ih =>
    obtain ⟨ws, hws⟩ := List.exists_forall₂ ih
    refine ⟨.list ws, ?_, ?_⟩
    · rw [serialize, serializeList_eq_some.2 (hws.imp fun _ _ h => h.1)]
      rfl
    · rw [deserialize, deserializeList_eq_ok.2 (hws.imp fun _ _ h => h.2).flip]
      rfl
  | @textMap m t hnd _ ih =>
    have hentry : ∀ p ∈ m, ∃ q : String × DamlValue N D T, p.1 = q.1 ∧
        serialize Γ t p.2 = some q.2 ∧ deserialize Γ t q.2 = .ok p.2 := fun p hp => by
      obtain ⟨w, hw⟩ := ih p hp
      exact ⟨(p.1, w), rfl, hw⟩
    obtain ⟨es, hes⟩ := List.exists_forall₂ hentry
    have hkeys := AssocMap.keys_eq_of_forall₂ (hes.imp fun _ _ h => h.1)
    refine ⟨.textMap es, ?_, ?_⟩
    · rw [serialize, serializeEntries_eq_some.2 (hes.imp fun _ _ h => ⟨h.1, h.2.1⟩),
        Option.map_some, AssocMap.ofList_eq_self (hkeys ▸ hnd)]
    · rw [deserialize, deserializeEntries_eq_ok.2 (hes.imp fun _ _ h => ⟨h.1.symm, h.2.2⟩).flip]
      exact congrArg (fun m => Except.ok (RustValue.textMap m)) (AssocMap.ofList_eq_self hnd)
  | @genMap m k t hasc hk _ ihk iht =>
    have hentry : ∀ p ∈ m, ∃ q : DamlValue N D T × DamlValue N D T,
        (serialize Γ k p.1 = some q.1 ∧ serialize Γ t p.2 = some q.2) ∧
          deserialize Γ k q.1 = .ok p.1 ∧ deserialize Γ t q.2 = .ok p.2 := fun p hp => by
      obtain ⟨a, ha⟩ := ihk p hp
      obtain ⟨w, hw⟩ := iht p hp
      exact ⟨(a, w), ⟨ha.1, hw.1⟩, ha.2, hw.2⟩
    obtain ⟨es, hes⟩ := List.exists_forall₂ hentry
    -- the ledger value has the same entries in another order; so has what is read back
    have hperm := AssocMap.perm_ofListSorted (pairwise_serialized_keys
      (fun p _ q _ => reflects p.1 q.1) hasc hk (hes.imp fun _ _ h => h.1))
    obtain ⟨m', hmm', hm'⟩ := hes.exists_perm_left hperm.symm
    refine ⟨.genMap (AssocMap.ofListSorted DamlValue.cmp es), ?_, ?_⟩
    · rw [serialize, serializePairs_eq_some.2 (hes.imp fun _ _ h => h.1)]
      rfl
    · rw [deserialize, deserializePairs_eq_ok.2 (hm'.imp fun _ _ h => h.2).flip]
      exact congrArg (fun m => Except.ok (RustValue.genMap m))
        (AssocMap.ofListSorted_of_perm hmm'.symm hasc)
  | @record n args fs vs hΓ hlen _ ih =>
    have hfield : ∀ p ∈ fs.zip vs, ∃ g : DamlRecordField (DamlValue N D T),
        some p.1.1 = g.label ∧ serialize Γ (p.1.2.inst args) p.2 = some g.value ∧
          deserialize Γ (p.1.2.inst args) g.value = .ok p.2 := fun p hp => by
      obtain ⟨w, hw⟩ := ih p hp
      exact ⟨⟨some p.1.1, w⟩, rfl, hw⟩
    obtain ⟨gs, hgs⟩ := List.exists_forall₂ hfield
    refine ⟨.record ⟨none, gs⟩, ?_, ?_⟩
    · simp only [serialize, hΓ, Option.map_eq_some_iff, serializeFields_eq_some hlen]
      exact ⟨gs, hgs.imp fun _ _ h => ⟨h.1, h.2.1⟩, rfl⟩
    · have hfields := deserializeFields_eq_ok hlen (hgs.imp fun _ _ h => ⟨h.1, h.2.2⟩)
      rcases fs with _ | ⟨f, fs⟩
      · obtain rfl := List.length_eq_zero_iff.1 hlen.symm
        simp only [deserialize, hΓ]
      · simp only [deserialize, hΓ, hfields]
        rfl
  | @unitVariant n args cs hd i c t hΓ hc hu =>
    refine ⟨.variant ⟨none, c, .unit⟩, by simp [serialize, hΓ, hc, hu], ?_⟩
    simp [deserialize, hΓ, findIdx?_name hd hc, hc, hu]
  | @variant n args cs hd i c t v hΓ hc hu _ ih =>
    obtain ⟨w, hw, hv⟩ := ih
    refine ⟨.variant ⟨none, c, w⟩, by simp [serialize, hΓ, hc, hu, hw], ?_⟩
    simp [deserialize, hΓ, findIdx?_name hd hc, hc, hu, hv]
  | @enum n args cs hd i c hΓ hc =>
    refine ⟨.enum ⟨none, c⟩, by simp [serialize, hΓ, hc], ?_⟩
    have hidx := findIdx?_name (f := id) (by simpa using hd) hc
    simp only [id_eq] at hidx
    simp [deserialize, hΓ, DamlValue.tryTakeEnum, hidx]

/-- A variant with a generic record in it, which has a map with sorted keys. -/
theorem deserialize_serialize_paint :
    let Γ : TypeEnv String := fun n =>
      if n = "Paint" then
        some (.variant [("Solid", .prim .unit), ("Mix", .user "Mix" [.prim .int64])] (by decide))
      else if n = "Mix" then
        some (.record [("amount", .var 0), ("tags", .genMap (.optional (.prim .text)) (.var 0))])
      else none
    let v : RustValue Int GregorianDay UtcInstant :=
      .variant 1 (some (.record [.prim (.int64 7), .genMap
        [(.optional none, .prim (.int64 1)),
          (.optional (some (.prim (.text "a"))), .prim (.int64 2))]]))
    ∃ w, serialize Γ (.user "Paint" []) v = some w ∧
      deserialize Γ (.user "Paint" []) w = .ok v := by
  intro Γ v
  have hkeys : ∀ p : RustValue Int GregorianDay UtcInstant, p = .optional none ∨
      p = .optional (some (.prim (.text "a"))) → HasTy Γ p (.optional (.prim .text)) := by
    rintro _ (rfl | rfl)
    · exact .optional (by simp)
    · exact .optional (by rintro _ ⟨⟩; exact .prim trivial)
  have htags : HasTy Γ (.genMap [(.optional none, .prim (.int64 1)),
      (.optional (some (.prim (.text "a"))), .prim (.int64 2))] :
        RustValue Int GregorianDay UtcInstant)
      (.genMap (.optional (.prim .text)) (.prim .int64)) :=
    .genMap (by decide) (by simpa using ⟨hkeys _ (.inl rfl), hkeys _ (.inr rfl)⟩)
      (by simpa using ⟨.prim trivial, .prim trivial⟩)
  have hmix : HasTy Γ (.record [.prim (.int64 7), .genMap [(.optional none, .prim (.int64 1)),
      (.optional (some (.prim (.text "a"))), .prim (.int64 2))]] :
        RustValue Int GregorianDay UtcInstant) (.user "Mix" [.prim .int64]) :=
    .record rfl rfl (by
      simp only [List.zip_cons_cons, List.zip_nil_right, List.forall_mem_cons]
      exact ⟨.prim trivial, htags, by simp⟩)
  exact deserialize_serialize (.variant rfl rfl rfl hmix)

end RoundTrip

end DamlBindings.Grpc
