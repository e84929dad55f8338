import DamlBindings.Grpc.External
import DamlBindings.Grpc.ValueOrd

/-!
# Ledger values are totally ordered

The comparison of `DamlValue`s always answers, is antisymmetric and transitive, and answers
`Equal` exactly for equal values.  The laws are proved at one value by induction on it, each
constructor from the combinators of `PartialCmp`.  The primitive orders (decimals, dates,
date-times) are assumed lawful.
-/

namespace DamlBindings.Grpc

open PartialCmp (andThen ofOrd Orders OrdersAt)

/-! ### Identifiers and enums -/

lemma DamlIdentifier.orders (i : DamlIdentifier) : Orders DamlIdentifier.partialCmp i :=
  OrdersAt.andThen (f := packageRef) (PartialCmp.orders_ofOrd _)
    (g := id) (OrdersAt.andThen (f := moduleName) (g := entityName)
      (PartialCmp.orders_ofOrd _) (PartialCmp.orders_ofOrd _))

lemma DamlEnum.orders (e : DamlEnum) : Orders DamlEnum.partialCmp e :=
  OrdersAt.andThen (f := enumId) (g := constructor)
    (PartialCmp.orders_option fun i _ => i.orders) (PartialCmp.orders_ofOrd _)

lemma ofOrd_eq_some_eq {α : Type*} [Ord α] [Std.LawfulEqOrd α] {a b : α} :
    ofOrd a b = some .eq ↔ a = b := by
  simp [ofOrd]

lemma option_eq_some_eq {α : Type*} {cmp : α → α → Option Ordering}
    (h : ∀ a b, cmp a b = some .eq ↔ a = b) {o p : Option α} :
    PartialCmp.option cmp o p = some .eq ↔ o = p := by
  cases o <;> cases p <;> simp [PartialCmp.option, h]

lemma DamlIdentifier.partialCmp_eq_some_eq {a b : DamlIdentifier} :
    a.partialCmp b = some .eq ↔ a = b := by
  cases a
  cases b
  simp [partialCmp, PartialCmp.andThen_eq_some_eq, ofOrd_eq_some_eq]

lemma DamlEnum.partialCmp_eq_some_eq {a b : DamlEnum} :
    a.partialCmp b = some .eq ↔ a = b := by
  cases a
  cases b
  simp [partialCmp, PartialCmp.andThen_eq_some_eq, ofOrd_eq_some_eq,
    option_eq_some_eq fun _ _ => DamlIdentifier.partialCmp_eq_some_eq]

namespace DamlValue

variable {N D T : Type}

/-! ### The helpers of the comparison are the library's combinators -/

section Helpers

variable [Ord N] [Ord D] [Ord T]

/-- The derived order of `DamlRecordField`. -/
def fieldCmp (f g : DamlRecordField (DamlValue N D T)) : Option Ordering :=
  andThen (PartialCmp.option ofOrd f.label g.label) (partialCmp f.value g.value)

lemma partialCmpFields_eq (fs gs : List (DamlRecordField (DamlValue N D T))) :
    partialCmpFields fs gs = PartialCmp.list fieldCmp fs gs := by
  induction fs generalizing gs with
  | nil => cases gs <;> rfl
  | cons f fs ih =>
    cases gs with
    | nil => rfl
    | cons g gs => exact congrArg (andThen (fieldCmp f g)) (ih gs)

lemma partialCmpList_eq (vs ws : List (DamlValue N D T)) :
    partialCmpList vs ws = PartialCmp.list partialCmp vs ws := by
  induction vs generalizing ws with
  | nil => cases ws <;> rfl
  | cons v vs ih =>
    cases ws with
    | nil => rfl
    | cons w ws => exact congrArg (andThen (partialCmp v w)) (ih ws)

lemma partialCmpPairs_eq (m₁ m₂ : List (DamlValue N D T × DamlValue N D T)) :
    partialCmpPairs m₁ m₂ = PartialCmp.list (PartialCmp.pair partialCmp partialCmp) m₁ m₂ := by
  induction m₁ generalizing m₂ with
  | nil => cases m₂ <;> rfl
  | cons p m₁ ih =>
    cases m₂ with
    | nil => rfl
    | cons q m₂ => exact congrArg (andThen (PartialCmp.pair partialCmp partialCmp p q)) (ih m₂)

lemma comparators_eq (m : List (String × DamlValue N D T)) :
    comparators m = AssocMap.mapValues partialCmp m := by
  induction m with
  | nil => rfl
  | cons p m ih => exact congrArg ((p.1, partialCmp p.2) :: ·) ih

lemma list_pair_mapValues {ν μ : Type*} (f : ν → μ → Option Ordering)
    (m₁ : List (String × ν)) (m₂ : List (String × μ)) :
    PartialCmp.list (PartialCmp.pair ofOrd fun c v => c v) (AssocMap.mapValues f m₁) m₂ =
      PartialCmp.list (PartialCmp.pair ofOrd f) m₁ m₂ := by
  induction m₁ generalizing m₂ with
  | nil => cases m₂ <;> rfl
  | cons p m₁ ih =>
    cases m₂ with
    | nil => rfl
    | cons q m₂ => exact congrArg (andThen _) (ih m₂)

/-- A size comparison before anything else. -/
lemma ite_length_eq {α β : Type*} (l : List α) (l' : List β) (r : Option Ordering) :
    (if l.length = l'.length then r else ofOrd l.length l'.length) =
      andThen (ofOrd l.length l'.length) r := by
  split
  next h => simp [h, ofOrd]
  next h =>
    refine (PartialCmp.andThen_of_ne_eq (fun he => h ?_) r).symm
    exact Std.LawfulEqOrd.eq_of_compare he

/-- Text maps compare by size, then by their entries in the order of their keys. -/
def textMapCmp (m₁ m₂ : List (String × DamlValue N D T)) : Option Ordering :=
  andThen (ofOrd m₁.length m₂.length)
    (PartialCmp.list (PartialCmp.pair ofOrd partialCmp) (AssocMap.sortByKey compare m₁)
      (AssocMap.sortByKey compare m₂))

/-- Gen maps compare by size, then by their entries. -/
def genMapCmp (m₁ m₂ : List (DamlValue N D T × DamlValue N D T)) : Option Ordering :=
  andThen (ofOrd m₁.length m₂.length)
    (PartialCmp.list (PartialCmp.pair partialCmp partialCmp) m₁ m₂)

lemma partialCmp_textMap (m₁ m₂ : List (String × DamlValue N D T)) :
    partialCmp (.textMap m₁) (.textMap m₂) = textMapCmp m₁ m₂ := by
  show (if m₁.length = m₂.length then
      PartialCmp.list (PartialCmp.pair ofOrd fun c v => c v)
        (AssocMap.sortByKey compare (comparators m₁)) (AssocMap.sortByKey compare m₂)
    else ofOrd m₁.length m₂.length) = _
  rw [ite_length_eq, comparators_eq, AssocMap.sortByKey_mapValues, list_pair_mapValues,
    textMapCmp]

lemma partialCmp_genMap (m₁ m₂ : List (DamlValue N D T × DamlValue N D T)) :
    partialCmp (.genMap m₁) (.genMap m₂) = genMapCmp m₁ m₂ := by
  show (if m₁.length = m₂.length then partialCmpPairs m₁ m₂
    else ofOrd m₁.length m₂.length) = _
  rw [ite_length_eq, partialCmpPairs_eq, genMapCmp]

lemma partialCmp_list (vs ws : List (DamlValue N D T)) :
    partialCmp (.list vs) (.list ws) = PartialCmp.list partialCmp vs ws := partialCmpList_eq vs ws

lemma partialCmp_record (id₁ id₂ : Option DamlIdentifier)
    (fs₁ fs₂ : List (DamlRecordField (DamlValue N D T))) :
    partialCmp (.record ⟨id₁, fs₁⟩) (.record ⟨id₂, fs₂⟩) =
      andThen (PartialCmp.option DamlIdentifier.partialCmp id₁ id₂)
        (PartialCmp.list fieldCmp fs₁ fs₂) :=
  congrArg _ (partialCmpFields_eq fs₁ fs₂)

lemma partialCmp_variant (id₁ id₂ : Option DamlIdentifier) (c₁ c₂ : String)
    (v₁ v₂ : DamlValue N D T) :
    partialCmp (.variant ⟨id₁, c₁, v₁⟩) (.variant ⟨id₂, c₂, v₂⟩) =
      andThen (PartialCmp.option DamlIdentifier.partialCmp id₁ id₂)
        (andThen (ofOrd c₁ c₂) (partialCmp v₁ v₂)) := rfl

lemma partialCmp_enum (e₁ e₂ : DamlEnum) :
    (partialCmp (.enum e₁) (.enum e₂ : DamlValue N D T)) = e₁.partialCmp e₂ := rfl

lemma partialCmp_optional (o p : Option (DamlValue N D T)) :
    partialCmp (.optional o) (.optional p) = PartialCmp.option partialCmp o p := by
  cases o <;> cases p <;> rfl

/-- Values of different constructors compare by their ordinals. -/
lemma partialCmp_of_ordinal_ne (a b : DamlValue N D T) (h : a.ordinal ≠ b.ordinal) :
    partialCmp a b = some (compare a.ordinal b.ordinal) := by
  fun_cases partialCmp a b <;> first | rfl | exact absurd rfl h

end Helpers

/-! ### The laws of the order -/

section Laws

variable [Ord N] [Ord D] [Ord T]

/-- The laws at a value follow from the laws of its constructor's contents. -/
lemma orders_of_constructor {α : Type*} {f : α → DamlValue N D T}
    {cmp : α → α → Option Ordering} {x : α} (hx : Orders cmp x)
    (hf : ∀ x y, partialCmp (f x) (f y) = cmp x y)
    (hord : ∀ b : DamlValue N D T, b.ordinal = (f x).ordinal → ∃ y, f y = b) :
    Orders partialCmp (f x) :=
  OrdersAt.ofKey ordinal partialCmp_of_ordinal_ne ((OrdersAt.map hf hx).mono hord)

variable [Std.TransOrd N] [Std.TransOrd D] [Std.TransOrd T]

/-- The comparison is lawful as seen from any value. -/
theorem orders (a : DamlValue N D T) : Orders partialCmp a := by
  induction a with
  | record r ih =>
    have hr : Orders (fun r s : DamlRecord (DamlValue N D T) =>
        andThen (PartialCmp.option DamlIdentifier.partialCmp r.recordId s.recordId)
          (PartialCmp.list fieldCmp r.fields s.fields)) r :=
      OrdersAt.andThen (PartialCmp.orders_option fun i _ => i.orders)
        (PartialCmp.orders_list fun f hf => OrdersAt.andThen
          (PartialCmp.orders_option fun _ _ => PartialCmp.orders_ofOrd _) (ih f hf))
    refine orders_of_constructor hr (fun r s => ?_) fun b hb => ?_
    · exact congrArg (andThen _) (partialCmpFields_eq r.fields s.fields)
    · cases b <;> simp_all [ordinal]
  | variant x ih =>
    have hx : Orders (fun x y : DamlVariant (DamlValue N D T) =>
        andThen (PartialCmp.option DamlIdentifier.partialCmp x.variantId y.variantId)
          (andThen (ofOrd x.constructor y.constructor) (partialCmp x.value y.value))) x :=
      OrdersAt.andThen (PartialCmp.orders_option fun i _ => i.orders)
        (g := id) (OrdersAt.andThen (PartialCmp.orders_ofOrd _) ih)
    refine orders_of_constructor hx (fun _ _ => rfl) fun b hb => ?_
    cases b <;> simp_all [ordinal]
  | list vs ih =>
    refine orders_of_constructor (PartialCmp.orders_list ih) partialCmpList_eq fun b hb => ?_
    cases b <;> simp_all [ordinal]
  | optional o ih =>
    refine orders_of_constructor (PartialCmp.orders_option ih) partialCmp_optional fun b hb => ?_
    cases b <;> simp_all [ordinal]
  | textMap m ih =>
    -- the entries are compared after sorting, and those are the entries of `m`
    have hm : Orders textMapCmp m :=
      OrdersAt.andThen (PartialCmp.orders_ofOrd _) (PartialCmp.orders_list fun p hp =>
        PartialCmp.orders_pair (PartialCmp.orders_ofOrd _) (ih p (AssocMap.mem_sortByKey.1 hp)))
    refine orders_of_constructor hm partialCmp_textMap fun b hb => ?_
    cases b <;> simp_all [ordinal]
  | genMap m ih =>
    -- the entries of a gen map are stored sorted and compared as they are
    have hm : Orders genMapCmp m :=
      OrdersAt.andThen (g := id) (PartialCmp.orders_ofOrd _) (PartialCmp.orders_list fun p hp =>
        PartialCmp.orders_pair (ih p hp).1 (ih p hp).2)
    refine orders_of_constructor hm partialCmp_genMap fun b hb => ?_
    cases b <;> simp_all [ordinal]
  | enum e =>
    refine orders_of_constructor e.orders (fun _ _ => rfl) fun b hb => ?_
    cases b <;> simp_all [ordinal]
  | contractId c =>
    have hc : Orders (fun c d : DamlContractId => ofOrd c.contractId d.contractId) c :=
      (PartialCmp.orders_ofOrd c.contractId).comap
    refine orders_of_constructor hc (fun _ _ => rfl) fun b hb => ?_
    cases b <;> simp_all [ordinal]
  | party p =>
    have hp : Orders (fun p q : DamlParty => ofOrd p.party q.party) p :=
      (PartialCmp.orders_ofOrd p.party).comap
    refine orders_of_constructor hp (fun _ _ => rfl) fun b hb => ?_
    cases b <;> simp_all [ordinal]
  | unit =>
    refine orders_of_constructor (f := fun _ : Unit => .unit)
      (PartialCmp.orders_ofOrd ()) (fun _ _ => rfl) fun b hb => ?_
    cases b <;> simp_all [ordinal]
  | int64 i =>
    refine orders_of_constructor (PartialCmp.orders_ofOrd i) (fun _ _ => rfl) fun b hb => ?_
    cases b <;> simp_all [ordinal]
  | numeric n =>
    refine orders_of_constructor (PartialCmp.orders_ofOrd n) (fun _ _ => rfl) fun b hb => ?_
    cases b <;> simp_all [ordinal]
  | text s =>
    refine orders_of_constructor (PartialCmp.orders_ofOrd s) (fun _ _ => rfl) fun b hb => ?_
    cases b <;> simp_all [ordinal]
  | timestamp t =>
    refine orders_of_constructor (PartialCmp.orders_ofOrd t) (fun _ _ => rfl) fun b hb => ?_
    cases b <;> simp_all [ordinal]
  | bool x =>
    refine orders_of_constructor (PartialCmp.orders_ofOrd x) (fun _ _ => rfl) fun b hb => ?_
    cases b <;> simp_all [ordinal]
  | date d =>
    refine orders_of_constructor (PartialCmp.orders_ofOrd d) (fun _ _ => rfl) fun b hb => ?_
    cases b <;> simp_all [ordinal]

end Laws

/-! ### The helpers of the equality -/

section BEqHelpers

variable [BEq N] [BEq D] [BEq T]

lemma beqFields_iff {fs gs : List (DamlRecordField (DamlValue N D T))} :
    beqFields fs gs ↔
      List.Forall₂ (fun f g => f.label = g.label ∧ f.value.beq g.value) fs gs := by
  induction fs generalizing gs with
  | nil =>
    cases gs with
    | nil => exact iff_of_true rfl .nil
    | cons g gs => exact iff_of_false Bool.false_ne_true fun h => nomatch h
  | cons f fs ih =>
    cases gs with
    | nil => exact iff_of_false Bool.false_ne_true fun h => nomatch h
    | cons g gs =>
      show (f.label == g.label && f.value.beq g.value && beqFields fs gs) = true ↔ _
      simp [ih]

lemma beqList_iff {vs ws : List (DamlValue N D T)} :
    beqList vs ws ↔ List.Forall₂ (fun v w => v.beq w) vs ws := by
  induction vs generalizing ws with
  | nil =>
    cases ws with
    | nil => exact iff_of_true rfl .nil
    | cons w ws => exact iff_of_false Bool.false_ne_true fun h => nomatch h
  | cons v vs ih =>
    cases ws with
    | nil => exact iff_of_false Bool.false_ne_true fun h => nomatch h
    | cons w ws =>
      show (v.beq w && beqList vs ws) = true ↔ _
      simp [ih]

lemma beqPairs_iff {m₁ m₂ : List (DamlValue N D T × DamlValue N D T)} :
    beqPairs m₁ m₂ ↔ List.Forall₂ (fun p q => p.1.beq q.1 ∧ p.2.beq q.2) m₁ m₂ := by
  induction m₁ generalizing m₂ with
  | nil =>
    cases m₂ with
    | nil => exact iff_of_true rfl .nil
    | cons q m₂ => exact iff_of_false Bool.false_ne_true fun h => nomatch h
  | cons p m₁ ih =>
    cases m₂ with
    | nil => exact iff_of_false Bool.false_ne_true fun h => nomatch h
    | cons q m₂ =>
      show (p.1.beq q.1 && p.2.beq q.2 && beqPairs m₁ m₂) = true ↔ _
      simp [ih]

lemma beqLookups_iff {m₁ m₂ : List (String × DamlValue N D T)} :
    beqLookups m₁ m₂ ↔ ∀ p ∈ m₁, ∃ w, m₂.lookup p.1 = some w ∧ p.2.beq w := by
  induction m₁ with
  | nil => exact iff_of_true rfl (List.forall_mem_nil _)
  | cons p m₁ ih =>
    rw [beqLookups, Bool.and_eq_true, ih, List.forall_mem_cons]
    cases m₂.lookup p.1 <;> simp

/-- Values of different constructors are not equal. -/
lemma beq_of_ordinal_ne (a b : DamlValue N D T) (h : a.ordinal ≠ b.ordinal) :
    a.beq b = false := by
  fun_cases beq a b <;> first | rfl | exact absurd rfl h

lemma beq_textMap_iff {m₁ m₂ : List (String × DamlValue N D T)}
    (h₁ : (AssocMap.keys m₁).Nodup) (h₂ : (AssocMap.keys m₂).Nodup) :
    beq (.textMap m₁) (.textMap m₂) ↔
      List.Forall₂ (fun p q => p.1 = q.1 ∧ p.2.beq q.2) (AssocMap.sortByKey compare m₁)
        (AssocMap.sortByKey compare m₂) := by
  rw [AssocMap.forall₂_sortByKey_iff compare (R := fun v w => v.beq w) h₁ h₂, beq,
    Bool.and_eq_true, beqLookups_iff, beq_iff_eq]

end BEqHelpers

/-! ### `Equal` means equal -/

section Equal

variable [Ord N] [Ord D] [Ord T] [BEq N] [BEq D] [BEq T]

/-- Values with different ordinals are neither `Equal` nor equal. -/
lemma eq_iff_of_ordinal_ne {a b : DamlValue N D T} (h : a.ordinal ≠ b.ordinal) :
    partialCmp a b = some .eq ↔ a.beq b := by
  simp [partialCmp_of_ordinal_ne a b h, beq_of_ordinal_ne a b h, h]

lemma ofOrd_eq_some_eq_iff_beq {α : Type*} [Ord α] [BEq α] [Std.LawfulBEqOrd α] {a b : α} :
    ofOrd a b = some .eq ↔ a == b := by
  simp [ofOrd, Std.LawfulBEqOrd.compare_eq_iff_beq]

variable [Std.LawfulBEqOrd N] [Std.LawfulBEqOrd D] [Std.LawfulBEqOrd T]

/-- The comparison answers `Equal` exactly for equal values. -/
theorem partialCmp_eq_some_eq {a b : DamlValue N D T} (ha : a.Valid) (hb : b.Valid) :
    partialCmp a b = some .eq ↔ a.beq b := by
  induction a generalizing b with
  | record r ih =>
    cases b with
    | record s =>
      cases ha with | record ha => cases hb with | record hb =>
      have hfs : PartialCmp.list fieldCmp r.fields s.fields = some .eq ↔
          beqFields r.fields s.fields := by
        rw [PartialCmp.list_eq_some_eq, beqFields_iff]
        refine List.forall₂_congr_of_mem fun f hf g hg => ?_
        rw [fieldCmp, PartialCmp.andThen_eq_some_eq, option_eq_some_eq fun _ _ => ofOrd_eq_some_eq]
        exact and_congr_right fun _ => ih f hf (ha f hf) (hb g hg)
      rw [partialCmp, partialCmpFields_eq, PartialCmp.andThen_eq_some_eq, hfs, beq,
        option_eq_some_eq fun _ _ => DamlIdentifier.partialCmp_eq_some_eq]
      simp
    | _ => exact eq_iff_of_ordinal_ne (by simp [ordinal])
  | variant x ih =>
    cases b with
    | variant y =>
      cases ha with | variant ha => cases hb with | variant hb =>
      rw [partialCmp, PartialCmp.andThen_eq_some_eq, PartialCmp.andThen_eq_some_eq, ih ha hb,
        ofOrd_eq_some_eq, option_eq_some_eq fun _ _ => DamlIdentifier.partialCmp_eq_some_eq, beq]
      simp [and_assoc]
    | _ => exact eq_iff_of_ordinal_ne (by simp [ordinal])
  | list vs ih =>
    cases b with
    | list ws =>
      cases ha with | list ha => cases hb with | list hb =>
      rw [partialCmp, partialCmpList_eq, PartialCmp.list_eq_some_eq, beq, beqList_iff]
      exact List.forall₂_congr_of_mem fun v hv w hw => ih v hv (ha v hv) (hb w hw)
    | _ => exact eq_iff_of_ordinal_ne (by simp [ordinal])
  | optional o ih =>
    cases b with
    | optional p =>
      cases ha with | optional ha => cases hb with | optional hb =>
      rw [partialCmp_optional]
      -- `None` is `Equal` to `None` only
      rcases o with _ | v <;> rcases p with _ | w
      · simp [PartialCmp.option, beq]
      · simp [PartialCmp.option, beq]
      · simp [PartialCmp.option, beq]
      · simpa only [PartialCmp.option, beq] using ih v rfl (ha v rfl) (hb w rfl)
    | _ => exact eq_iff_of_ordinal_ne (by simp [ordinal])
  | textMap m ih =>
    cases b with
    | textMap m' =>
      cases ha with | textMap hnd ha => cases hb with | textMap hnd' hb =>
      -- the equality looks each key up, the comparison walks both maps sorted; they agree as no
      -- key occurs twice in a valid map
      have hentries : PartialCmp.list (PartialCmp.pair ofOrd partialCmp)
          (AssocMap.sortByKey compare m) (AssocMap.sortByKey compare m') = some .eq ↔
          beq (.textMap m) (.textMap m') := by
        rw [PartialCmp.list_eq_some_eq, beq_textMap_iff hnd hnd']
        refine List.forall₂_congr_of_mem fun p hp q hq => ?_
        rw [AssocMap.mem_sortByKey] at hp hq
        rw [PartialCmp.pair, PartialCmp.andThen_eq_some_eq, ofOrd_eq_some_eq,
          ih p hp (ha p hp) (hb q hq)]
      rw [partialCmp_textMap, textMapCmp, PartialCmp.andThen_eq_some_eq, hentries,
        ofOrd_eq_some_eq, and_iff_right_iff_imp, beq, Bool.and_eq_true, beq_iff_eq]
      exact And.left
    | _ => exact eq_iff_of_ordinal_ne (by simp [ordinal])
  | genMap m ih =>
    cases b with
    | genMap m' =>
      cases ha with | genMap _ hka ha => cases hb with | genMap _ hkb hb =>
      have hentries : PartialCmp.list (PartialCmp.pair partialCmp partialCmp) m m' = some .eq ↔
          beqPairs m m' := by
        rw [PartialCmp.list_eq_some_eq, beqPairs_iff]
        refine List.forall₂_congr_of_mem fun p hp q hq => ?_
        rw [PartialCmp.pair, PartialCmp.andThen_eq_some_eq,
          (ih p hp).1 (hka p hp) (hkb q hq), (ih p hp).2 (ha p hp) (hb q hq)]
      rw [partialCmp_genMap, genMapCmp, PartialCmp.andThen_eq_some_eq, hentries,
        ofOrd_eq_some_eq, beq, and_iff_right_iff_imp, beqPairs_iff]
      exact List.Forall₂.length_eq
    | _ => exact eq_iff_of_ordinal_ne (by simp [ordinal])
  | enum e =>
    cases b with
    | enum e' => simp [partialCmp, beq, DamlEnum.partialCmp_eq_some_eq]
    | _ => exact eq_iff_of_ordinal_ne (by simp [ordinal])
  | contractId c =>
    cases b with
    | contractId d =>
      cases c
      cases d
      simp [partialCmp, beq, ofOrd_eq_some_eq]
    | _ => exact eq_iff_of_ordinal_ne (by simp [ordinal])
  | party p =>
    cases b with
    | party q =>
      cases p
      cases q
      simp [partialCmp, beq, ofOrd_eq_some_eq]
    | _ => exact eq_iff_of_ordinal_ne (by simp [ordinal])
  | int64 i =>
    cases b with
    | int64 j => simp [partialCmp, beq, ofOrd_eq_some_eq]
    | _ => exact eq_iff_of_ordinal_ne (by simp [ordinal])
  | text s =>
    cases b with
    | text t => simp [partialCmp, beq, ofOrd_eq_some_eq]
    | _ => exact eq_iff_of_ordinal_ne (by simp [ordinal])
  | bool x =>
    cases b with
    | bool y => simp [partialCmp, beq, ofOrd_eq_some_eq]
    | _ => exact eq_iff_of_ordinal_ne (by simp [ordinal])
  | unit =>
    cases b with
    | unit => simp [partialCmp, beq]
    | _ => exact eq_iff_of_ordinal_ne (by simp [ordinal])
  | numeric n =>
    cases b with
    | numeric n' => simp only [partialCmp, beq, ofOrd_eq_some_eq_iff_beq]
    | _ => exact eq_iff_of_ordinal_ne (by simp [ordinal])
  | timestamp t =>
    cases b with
    | timestamp t' => simp only [partialCmp, beq, ofOrd_eq_some_eq_iff_beq]
    | _ => exact eq_iff_of_ordinal_ne (by simp [ordinal])
  | date d =>
    cases b with
    | date d' => simp only [partialCmp, beq, ofOrd_eq_some_eq_iff_beq]
    | _ => exact eq_iff_of_ordinal_ne (by simp [ordinal])

end Equal

/-! ### The total order -/

section Cmp

variable [Ord N] [Ord D] [Ord T] [Std.TransOrd N] [Std.TransOrd D] [Std.TransOrd T]

/-- The `expect` in `Ord::cmp` never fails. -/
lemma partialCmp_eq_some_cmp (a b : DamlValue N D T) : partialCmp a b = some (cmp a b) := by
  obtain ⟨o, ho⟩ := Option.isSome_iff_exists.1 ((orders a).total b trivial)
  rw [cmp, ho, Option.getD_some]

lemma cmp_swap (a b : DamlValue N D T) : cmp b a = (cmp a b).swap := by
  have h := (orders a).swap b trivial
  simpa [partialCmp_eq_some_cmp] using h

lemma cmp_trans {a b c : DamlValue N D T} (hab : (cmp a b).isLE) (hbc : (cmp b c).isLE) :
    cmp a c = (cmp a b).then (cmp b c) := by
  have h := (orders a).trans trivial trivial (partialCmp_eq_some_cmp a b)
    (partialCmp_eq_some_cmp b c) hab hbc
  simpa [partialCmp_eq_some_cmp] using h

instance : Std.TransCmp (cmp : DamlValue N D T → DamlValue N D T → Ordering) where
  eq_swap := cmp_swap _ _
  isLE_trans {a b c} hab hbc := by
    rw [cmp_trans hab hbc]
    cases h : cmp a b <;> simp_all

lemma cmp_eq_eq_iff [BEq N] [BEq D] [BEq T] [Std.LawfulBEqOrd N] [Std.LawfulBEqOrd D]
    [Std.LawfulBEqOrd T] {a b : DamlValue N D T} (ha : a.Valid) (hb : b.Valid) :
    cmp a b = .eq ↔ a.beq b := by
  rw [← partialCmp_eq_some_eq ha hb, partialCmp_eq_some_cmp, Option.some.injEq]

/-- `DamlValue` is totally ordered consistently with its equality. -/
theorem isTotalOrder [BEq N] [BEq D] [BEq T] [Std.LawfulBEqOrd N] [Std.LawfulBEqOrd D]
    [Std.LawfulBEqOrd T] (a b c : DamlValue N D T) (ha : a.Valid) (hb : b.Valid) :
    partialCmp a b = some (cmp a b) ∧ cmp a a = .eq ∧ cmp b a = (cmp a b).swap ∧
      ((cmp a b).isLE → (cmp b c).isLE → cmp a c = (cmp a b).then (cmp b c)) ∧
      (cmp a b = .eq ↔ a.beq b) :=
  ⟨partialCmp_eq_some_cmp a b, Std.ReflCmp.compare_self, cmp_swap a b, cmp_trans,
    cmp_eq_eq_iff ha hb⟩

/-- Three values of different shapes, two of them with text maps inside. -/
theorem isTotalOrder_nested :
    let a : DamlValue Int GregorianDay UtcInstant :=
      .optional (some (.textMap [("b", .int64 2), ("a", .int64 1)]))
    let b : DamlValue Int GregorianDay UtcInstant :=
      .optional (some (.textMap [("a", .int64 1), ("b", .int64 3)]))
    let c : DamlValue Int GregorianDay UtcInstant := .list [.unit]
    cmp a b = .lt ∧ cmp b c = .lt ∧ cmp a c = (cmp a b).then (cmp b c) := by
  intro a b c
  have ha : a.Valid :=
    .optional (by rintro _ ⟨⟩; exact .textMap (by decide) (by simp [Valid.int64]))
  have hb : b.Valid :=
    .optional (by rintro _ ⟨⟩; exact .textMap (by decide) (by simp [Valid.int64]))
  have hab : cmp a b = .lt := by decide
  have hbc : cmp b c = .lt := by decide
  obtain ⟨_, _, _, htrans, _⟩ := isTotalOrder a b c ha hb
  exact ⟨hab, hbc, htrans (by simp [hab]) (by simp [hbc])⟩

end Cmp

end DamlValue

end DamlBindings.Grpc
