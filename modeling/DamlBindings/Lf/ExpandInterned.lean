import DamlBindings.Lib.Expansion
import DamlBindings.Lf.Termination
import DamlBindings.Lf.TypeReferences

/-!
# Expanded types

Where every entry of the tables of interned kinds and types refers only to entries in front of it,
a type can be expanded: every reference is replaced by the entry it stands for, all the way down.
The conversion of a type is the conversion of the expanded type.
-/

namespace DamlBindings.Lf

open Proto

/-- A reference to an interned kind or to an interned type. -/
inductive TableRef where
  | kind (i : Int)
  | type (i : Int)
deriving DecidableEq, Repr

/-! ### Induction on kinds and types -/

namespace Proto

/-- Induction on a kind, with the hypothesis for the kinds in its parts. -/
lemma Kind.parts_induction {motive : Kind → Prop}
    (h : ∀ k, (∀ k', .kind k' ∈ k.parts → motive k') → motive k) (k : Kind) : motive k := by
  induction hsize : sizeOf k using Nat.strong_induction_on generalizing k with
  | h n ih =>
    refine h k fun k' hk' => ?_
    have hlt : sizeOf k' < sizeOf k := smaller_kind k _ hk'
    exact ih (sizeOf k') (hsize ▸ hlt) k' rfl

/-- Induction on a type, with the hypothesis for the types in its parts. -/
lemma Ty.parts_induction {motive : Ty → Prop}
    (h : ∀ t, (∀ t', .type t' ∈ t.parts → motive t') → motive t) (t : Ty) : motive t := by
  induction hsize : sizeOf t using Nat.strong_induction_on generalizing t with
  | h n ih =>
    refine h t fun t' ht' => ?_
    have hlt : sizeOf t' < sizeOf t := smaller_type t _ ht'
    exact ih (sizeOf t') (hsize ▸ hlt) t' rfl

end Proto

/-! ### References -/

mutual

/-- The interned kinds that a kind refers to. -/
def Proto.Kind.refs : Kind → List TableRef
  | .star => []
  | .nat => []
  | .arrow params result => kindsRefs params ++ optionKindRefs result
  | .internedKind i => [.kind i]
  | .unset => []
termination_by structural k => k

def kindsRefs : List Kind → List TableRef
  | [] => []
  | k :: ks => k.refs ++ kindsRefs ks
termination_by structural ks => ks

def optionKindRefs : Option Kind → List TableRef
  | none => []
  | some k => k.refs
termination_by structural o => o

end

def Proto.TypeVarWithKind.refs (v : TypeVarWithKind) : List TableRef := optionKindRefs v.kind

mutual

/-- The interned kinds and types that a type refers to. -/
def Proto.Ty.refs : Ty → List TableRef
  | .var _ args => typesRefs args
  | .con _ args => typesRefs args
  | .syn _ args => typesRefs args
  | .builtin _ args => typesRefs args
  | .forAll vars body => vars.flatMap TypeVarWithKind.refs ++ optionTypeRefs body
  | .struct fields => fieldsRefs fields
  | .nat _ => []
  | .internedType i => [.type i]
  | .tapp => []
  | .unset => []
termination_by structural t => t

def typesRefs : List Ty → List TableRef
  | [] => []
  | t :: ts => t.refs ++ typesRefs ts
termination_by structural ts => ts

def optionTypeRefs : Option Ty → List TableRef
  | none => []
  | some t => t.refs
termination_by structural o => o

def fieldsRefs : List (FieldWithType Ty) → List TableRef
  | [] => []
  | ⟨_, ty⟩ :: fs => optionTypeRefs ty ++ fieldsRefs fs
termination_by structural fs => fs

end

/-- The references in a part of a message. -/
def Proto.Part.refs : Proto.Part → List TableRef
  | .kind k => k.refs
  | .type t => t.refs
  | .internedKind i => [.kind i]
  | .internedType i => [.type i]
  | _ => []

/-- The part is an expression, or a reference to one. -/
def Proto.Part.isExpr : Proto.Part → Bool
  | .expr _ => true
  | .internedExpr _ => true
  | _ => false

section Refs

lemma kindsRefs_eq (ks : List Kind) : kindsRefs ks = ks.flatMap Kind.refs := by
  induction ks with
  | nil => rfl
  | cons k ks ih => exact congrArg (k.refs ++ ·) ih

lemma optionKindRefs_eq (o : Option Kind) : optionKindRefs o = (field .kind o).refs := by
  cases o <;> rfl

lemma typesRefs_eq (ts : List Ty) : typesRefs ts = ts.flatMap Ty.refs := by
  induction ts with
  | nil => rfl
  | cons t ts ih => exact congrArg (t.refs ++ ·) ih

lemma optionTypeRefs_eq (o : Option Ty) : optionTypeRefs o = (field .type o).refs := by
  cases o <;> rfl

lemma refs_typevar (v : TypeVarWithKind) : v.refs = v.parts.flatMap Proto.Part.refs := by
  simp [TypeVarWithKind.refs, TypeVarWithKind.parts, optionKindRefs_eq, Proto.Part.refs]

lemma fieldsRefs_eq_flatMap (fs : List (FieldWithType Ty)) :
    fieldsRefs fs = fs.flatMap fun f => optionTypeRefs f.type := by
  induction fs with
  | nil => rfl
  | cons f fs ih => exact congrArg (optionTypeRefs f.type ++ ·) ih

lemma fieldsRefs_eq (fs : List (FieldWithType Ty)) :
    fieldsRefs fs = (fs.flatMap FieldWithType.parts).flatMap Proto.Part.refs := by
  rw [fieldsRefs_eq_flatMap, List.flatMap_assoc]
  refine List.flatMap_congr fun f _ => ?_
  simp [FieldWithType.parts, optionTypeRefs_eq, Proto.Part.refs]

/-- A kind refers to what its parts refer to. -/
lemma Proto.Kind.refs_eq (k : Kind) : k.refs = k.parts.flatMap Proto.Part.refs := by
  cases k with
  | arrow params result =>
    show kindsRefs params ++ optionKindRefs result = _
    simp [Kind.parts, kindsRefs_eq, optionKindRefs_eq, List.flatMap_map, Proto.Part.refs]
  | star => rfl
  | nat => rfl
  | internedKind i => rfl
  | unset => rfl

lemma typesRefs_eq_parts (ts : List Ty) :
    typesRefs ts = (ts.map Proto.Part.type).flatMap Proto.Part.refs := by
  rw [typesRefs_eq, List.flatMap_map]
  rfl

/-- A type refers to what its parts refer to. -/
lemma Proto.Ty.refs_eq (t : Ty) : t.refs = t.parts.flatMap Proto.Part.refs := by
  cases t with
  | var v args => exact typesRefs_eq_parts args
  | con c args =>
    have hname : (field .tycon c).refs = [] := by cases c <;> rfl
    show typesRefs args = _
    simpa [Ty.parts, hname] using typesRefs_eq_parts args
  | syn s args =>
    have hname : (field .tysyn s).refs = [] := by cases s <;> rfl
    show typesRefs args = _
    simpa [Ty.parts, hname] using typesRefs_eq_parts args
  | builtin b args =>
    show typesRefs args = _
    simpa [Ty.parts, Proto.Part.refs] using typesRefs_eq_parts args
  | forAll vars body =>
    show vars.flatMap TypeVarWithKind.refs ++ optionTypeRefs body = _
    have hvars : vars.flatMap TypeVarWithKind.refs =
        (vars.flatMap TypeVarWithKind.parts).flatMap Proto.Part.refs := by
      rw [List.flatMap_assoc]
      exact List.flatMap_congr fun v _ => refs_typevar v
    simp [Ty.parts, hvars, optionTypeRefs_eq]
  | struct fields => exact fieldsRefs_eq fields
  | nat n => rfl
  | internedType i => rfl
  | tapp => rfl
  | unset => rfl

/-- A kind refers to kinds. -/
lemma Proto.Kind.type_notMem_refs (k : Kind) (i : Int) : .type i ∉ k.refs := by
  induction k using Kind.parts_induction with
  | h k ih =>
    cases k with
    | star => exact List.not_mem_nil
    | nat => exact List.not_mem_nil
    | unset => exact List.not_mem_nil
    | internedKind j => simp [Kind.refs_eq, Kind.parts, Proto.Part.refs]
    | arrow params result =>
      intro hi
      rw [Kind.refs_eq] at hi
      obtain ⟨p, hp, hi⟩ := List.mem_flatMap.1 hi
      rcases List.mem_append.1 hp with hmem | hmem
      · obtain ⟨k, -, rfl⟩ := List.mem_map.1 hmem
        exact ih k hp hi
      · rcases result with _ | k
        · cases List.mem_singleton.1 hmem
          cases hi
        · cases List.mem_singleton.1 hmem
          exact ih k hp hi

lemma isExpr_field {α : Type} {part : α → Proto.Part} (h : ∀ a, (part a).isExpr = false)
    (o : Option α) : (field part o).isExpr = false := by
  cases o with
  | none => rfl
  | some a => exact h a

lemma Proto.Kind.isExpr_of_mem_parts {k : Kind} {p : Proto.Part} (hp : p ∈ k.parts) :
    p.isExpr = false := by
  cases k with
  | arrow params result =>
    simp only [Kind.parts, List.mem_append, List.mem_map, List.mem_singleton] at hp
    rcases hp with ⟨k, -, rfl⟩ | rfl
    · rfl
    · exact isExpr_field (fun _ => rfl) result
  | star => cases hp
  | nat => cases hp
  | internedKind i => cases List.mem_singleton.1 hp; rfl
  | unset => cases List.mem_singleton.1 hp; rfl

lemma Proto.Ty.isExpr_of_mem_parts {t : Ty} {p : Proto.Part} (hp : p ∈ t.parts) :
    p.isExpr = false := by
  have hargs : ∀ args : List Ty, p ∈ args.map Part.type → p.isExpr = false := by
    intro args hp
    obtain ⟨t, -, rfl⟩ := List.mem_map.1 hp
    rfl
  cases t with
  | var v args =>
    rcases List.mem_cons.1 hp with rfl | hp
    · rfl
    · exact hargs args hp
  | con c args =>
    rcases List.mem_cons.1 hp with rfl | hp
    · exact isExpr_field (fun _ => rfl) c
    · exact hargs args hp
  | syn s args =>
    rcases List.mem_cons.1 hp with rfl | hp
    · exact isExpr_field (fun _ => rfl) s
    · exact hargs args hp
  | builtin b args =>
    rcases List.mem_append.1 hp with hp | hp
    · rcases List.mem_cons.1 hp with rfl | hp
      · rfl
      · exact hargs args hp
    · cases List.mem_singleton.1 hp
      rfl
  | forAll vars body =>
    rcases List.mem_append.1 hp with hp | hp
    · obtain ⟨v, -, hp⟩ := List.mem_flatMap.1 hp
      rcases List.mem_cons.1 hp with rfl | hp
      · rfl
      · cases List.mem_singleton.1 hp
        exact isExpr_field (fun _ => rfl) v.kind
    · cases List.mem_singleton.1 hp
      exact isExpr_field (fun _ => rfl) body
  | struct fields =>
    obtain ⟨f, -, hp⟩ := List.mem_flatMap.1 hp
    rcases List.mem_cons.1 hp with rfl | hp
    · rfl
    · cases List.mem_singleton.1 hp
      exact isExpr_field (fun _ => rfl) f.type
  | nat n => cases List.mem_singleton.1 hp; rfl
  | internedType i => cases List.mem_singleton.1 hp; rfl
  | tapp => cases List.mem_singleton.1 hp; rfl
  | unset => cases List.mem_singleton.1 hp; rfl

end Refs

/-! ### Expansion -/

namespace DamlPackageTables

mutual

/-- A kind whose references are replaced by the entries of a table; a reference out of range is
kept. -/
def expandKind (kinds : List Kind) : Kind → Kind
  | .star => .star
  | .nat => .nat
  | .arrow params result => .arrow (expandKinds kinds params) (expandOptionKind kinds result)
  | .internedKind i => (entryAt kinds i).getD (.internedKind i)
  | .unset => .unset
termination_by structural k => k

def expandKinds (kinds : List Kind) : List Kind → List Kind
  | [] => []
  | k :: ks => expandKind kinds k :: expandKinds kinds ks
termination_by structural ks => ks

def expandOptionKind (kinds : List Kind) : Option Kind → Option Kind
  | none => none
  | some k => some (expandKind kinds k)
termination_by structural o => o

end

def expandTypevar (kinds : List Kind) (v : TypeVarWithKind) : TypeVarWithKind :=
  { v with kind := expandOptionKind kinds v.kind }

mutual

/-- A type whose references are replaced by the entries of the two tables. -/
def expandType (kinds : List Kind) (types : List Ty) : Ty → Ty
  | .var v args => .var v (expandTypes kinds types args)
  | .con c args => .con c (expandTypes kinds types args)
  | .syn s args => .syn s (expandTypes kinds types args)
  | .builtin b args => .builtin b (expandTypes kinds types args)
  | .forAll vars body =>
    .forAll (vars.map (expandTypevar kinds)) (expandOptionType kinds types body)
  | .struct fields => .struct (expandFields kinds types fields)
  | .nat n => .nat n
  | .internedType i => (entryAt types i).getD (.internedType i)
  | .tapp => .tapp
  | .unset => .unset
termination_by structural t => t

def expandTypes (kinds : List Kind) (types : List Ty) : List Ty → List Ty
  | [] => []
  | t :: ts => expandType kinds types t :: expandTypes kinds types ts
termination_by structural ts => ts

def expandOptionType (kinds : List Kind) (types : List Ty) : Option Ty → Option Ty
  | none => none
  | some t => some (expandType kinds types t)
termination_by structural o => o

def expandFields (kinds : List Kind) (types : List Ty) :
    List (FieldWithType Ty) → List (FieldWithType Ty)
  | [] => []
  | ⟨name, ty⟩ :: fs => ⟨name, expandOptionType kinds types ty⟩ :: expandFields kinds types fs
termination_by structural fs => fs

end

section Map

variable (kinds : List Kind) (types : List Ty)

@[simp] lemma expandKinds_eq (ks : List Kind) :
    expandKinds kinds ks = ks.map (expandKind kinds) := by
  induction ks with
  | nil => rfl
  | cons k ks ih => exact congrArg (expandKind kinds k :: ·) ih

@[simp] lemma expandOptionKind_eq (o : Option Kind) :
    expandOptionKind kinds o = o.map (expandKind kinds) := by
  cases o <;> rfl

@[simp] lemma expandTypes_eq (ts : List Ty) :
    expandTypes kinds types ts = ts.map (expandType kinds types) := by
  induction ts with
  | nil => rfl
  | cons t ts ih => exact congrArg (expandType kinds types t :: ·) ih

@[simp] lemma expandOptionType_eq (o : Option Ty) :
    expandOptionType kinds types o = o.map (expandType kinds types) := by
  cases o <;> rfl

/-- A field with its type expanded. -/
def expandField (f : FieldWithType Ty) : FieldWithType Ty :=
  { f with type := f.type.map (expandType kinds types) }

@[simp] lemma expandFields_eq (fs : List (FieldWithType Ty)) :
    expandFields kinds types fs = fs.map (expandField kinds types) := by
  induction fs with
  | nil => rfl
  | cons f fs ih =>
    have hf : expandOptionType kinds types f.type = f.type.map (expandType kinds types) :=
      expandOptionType_eq kinds types f.type
    show (⟨f.fieldInternedStr, expandOptionType kinds types f.type⟩ :: expandFields kinds types fs
      : List (FieldWithType Ty)) = _
    rw [hf, ih]
    rfl

end Map

/-! ### Expansion is local -/

section Local

variable {kinds kinds' : List Kind} {types types' : List Ty}

lemma entryAt_eq_some {α : Type} {T : List α} {i : Int} {a : α} :
    entryAt T i = some a ↔ 0 ≤ i ∧ T[i.toNat]? = some a := by
  unfold entryAt
  split_ifs with hi
  · simp
    omega
  · simp [Int.not_lt.1 hi]

lemma entryAt_eq_none {α : Type} {T : List α} {i : Int} :
    entryAt T i = none ↔ ¬ (0 ≤ i ∧ i.toNat < T.length) := by
  unfold entryAt
  split_ifs with hi
  · simp
    omega
  · simp [Int.not_lt.1 hi]

lemma entryAt_congr {α : Type} {T T' : List α} {i : Int}
    (h : ∀ k : ℕ, i = k → T[k]? = T'[k]?) : entryAt T i = entryAt T' i := by
  unfold entryAt
  split_ifs with hi
  · rfl
  · exact h i.toNat (by omega)

/-- What a part of a kind refers to, the kind refers to. -/
lemma mem_refs_of_kindPart {k : Kind} {p : Proto.Part} {r : TableRef} (hp : p ∈ k.parts)
    (hr : r ∈ p.refs) : r ∈ k.refs := by
  rw [Kind.refs_eq]
  exact List.mem_flatMap.2 ⟨p, hp, hr⟩

/-- What a part of a type refers to, the type refers to. -/
lemma mem_refs_of_typePart {t : Ty} {p : Proto.Part} {r : TableRef} (hp : p ∈ t.parts)
    (hr : r ∈ p.refs) : r ∈ t.refs := by
  rw [Ty.refs_eq]
  exact List.mem_flatMap.2 ⟨p, hp, hr⟩

lemma expandKind_congr (k : Kind) (h : ∀ i : ℕ, .kind i ∈ k.refs → kinds[i]? = kinds'[i]?) :
    expandKind kinds k = expandKind kinds' k := by
  induction k using Kind.parts_induction with
  | h k ih =>
    have hpart : ∀ k', .kind k' ∈ k.parts → expandKind kinds k' = expandKind kinds' k' :=
      fun k' hk' => ih k' hk' fun i hi => h i (mem_refs_of_kindPart hk' hi)
    cases k with
    | star => rfl
    | nat => rfl
    | unset => rfl
    | internedKind i =>
      have hentry : entryAt kinds i = entryAt kinds' i := entryAt_congr fun k hk =>
        h k (hk ▸ List.mem_singleton_self _)
      exact congrArg (fun o => o.getD (.internedKind i)) hentry
    | arrow params result =>
      have hparams : params.map (expandKind kinds) = params.map (expandKind kinds') :=
        List.map_congr_left fun k hk => hpart k (by simp [Kind.parts, hk])
      have hresult : result.map (expandKind kinds) = result.map (expandKind kinds') :=
        Option.map_congr fun k hk => hpart k (by simp [Kind.parts, Option.mem_def.1 hk])
      show Kind.arrow (expandKinds kinds params) (expandOptionKind kinds result) =
        .arrow (expandKinds kinds' params) (expandOptionKind kinds' result)
      rw [expandKinds_eq, expandKinds_eq, hparams, expandOptionKind_eq, expandOptionKind_eq,
        hresult]

lemma expandType_congr (t : Ty) (h : ∀ i : ℕ, .type i ∈ t.refs → types[i]? = types'[i]?) :
    expandType kinds types t = expandType kinds types' t := by
  induction t using Ty.parts_induction with
  | h t ih =>
    have hpart : ∀ t', .type t' ∈ t.parts →
        expandType kinds types t' = expandType kinds types' t' :=
      fun t' ht' => ih t' ht' fun i hi => h i (mem_refs_of_typePart ht' hi)
    have hargs : ∀ args : List Ty, (∀ a ∈ args, .type a ∈ t.parts) →
        expandTypes kinds types args = expandTypes kinds types' args := by
      intro args hmem
      rw [expandTypes_eq, expandTypes_eq]
      exact List.map_congr_left fun a ha => hpart a (hmem a ha)
    have hfield : ∀ o : Option Ty, (∀ a ∈ o, .type a ∈ t.parts) →
        expandOptionType kinds types o = expandOptionType kinds types' o := by
      intro o hmem
      rw [expandOptionType_eq, expandOptionType_eq]
      exact Option.map_congr fun a ha => hpart a (hmem a ha)
    cases t with
    | var v args => exact congrArg (Ty.var v) (hargs args (by simp [Ty.parts]))
    | con c args => exact congrArg (Ty.con c) (hargs args (by simp +contextual [Ty.parts]))
    | syn c args => exact congrArg (Ty.syn c) (hargs args (by simp +contextual [Ty.parts]))
    | builtin b args => exact congrArg (Ty.builtin b) (hargs args (by simp [Ty.parts]))
    | forAll vars body =>
      exact congrArg (Ty.forAll _) (hfield body (by simp +contextual [Ty.parts]))
    | struct fields =>
      have hmap : fields.map (expandField kinds types) = fields.map (expandField kinds types') := by
        refine List.map_congr_left fun f hf => ?_
        have hty : ∀ a ∈ f.type, .type a ∈ (Ty.struct fields).parts := by
          intro a ha
          refine List.mem_flatMap.2 ⟨f, hf, ?_⟩
          simp [FieldWithType.parts, Option.mem_def.1 ha]
        have htype := hfield f.type hty
        rw [expandOptionType_eq, expandOptionType_eq] at htype
        exact congrArg (FieldWithType.mk f.fieldInternedStr) htype
      show Ty.struct (expandFields kinds types fields) = .struct (expandFields kinds types' fields)
      rw [expandFields_eq, expandFields_eq, hmap]
    | internedType i =>
      -- the table is only read at the references in the type
      have hentry : entryAt types i = entryAt types' i := entryAt_congr fun k hk =>
        h k (hk ▸ List.mem_singleton_self _)
      exact congrArg (fun o => o.getD (.internedType i)) hentry
    | nat n => rfl
    | tapp => rfl
    | unset => rfl

end Local

/-! ### References in expansions -/

section Refs

variable {kinds : List Kind} {types : List Ty} {p : TableRef → Prop}

/-- A reference in an expanded kind is one without an entry, or it is in an entry. -/
lemma refs_expandKind (k : Kind)
    (hnone : ∀ i, .kind i ∈ k.refs → entryAt kinds i = none → p (.kind i))
    (hsome : ∀ i e, .kind i ∈ k.refs → entryAt kinds i = some e → ∀ r ∈ e.refs, p r) :
    ∀ r ∈ (expandKind kinds k).refs, p r := by
  induction k using Kind.parts_induction with
  | h k ih =>
    have hpart : ∀ k', .kind k' ∈ k.parts → ∀ r ∈ (expandKind kinds k').refs, p r :=
      fun k' hk' => ih k' hk' (fun i hi => hnone i (mem_refs_of_kindPart hk' hi))
        fun i e hi => hsome i e (mem_refs_of_kindPart hk' hi)
    intro r hr
    cases k with
    | star => cases hr
    | nat => cases hr
    | unset => cases hr
    | internedKind i =>
      have hi : .kind i ∈ (Kind.internedKind i).refs := List.mem_singleton_self _
      change r ∈ ((entryAt kinds i).getD (.internedKind i)).refs at hr
      -- a reference without an entry stays, any other is replaced by its entry
      rcases hentry : entryAt kinds i with _ | e <;> rw [hentry] at hr
      · cases List.mem_singleton.1 hr
        exact hnone i hi hentry
      · exact hsome i e hi hentry r hr
    | arrow params result =>
      change r ∈ kindsRefs (expandKinds kinds params) ++
        optionKindRefs (expandOptionKind kinds result) at hr
      rcases List.mem_append.1 hr with hr | hr
      · rw [kindsRefs_eq, expandKinds_eq, List.flatMap_map] at hr
        obtain ⟨k', hk', hr⟩ := List.mem_flatMap.1 hr
        exact hpart k' (by simp [Kind.parts, hk']) r hr
      · rcases result with _ | k'
        · cases hr
        · exact hpart k' (by simp [Kind.parts]) r hr

/-- A reference in an expanded type is one without an entry, or it is in an entry or in an
expanded kind. -/
lemma refs_expandType (t : Ty) (hkind : ∀ k, ∀ r ∈ (expandKind kinds k).refs, p r)
    (hnone : ∀ i, .type i ∈ t.refs → entryAt types i = none → p (.type i))
    (hsome : ∀ i e, .type i ∈ t.refs → entryAt types i = some e → ∀ r ∈ e.refs, p r) :
    ∀ r ∈ (expandType kinds types t).refs, p r := by
  induction t using Ty.parts_induction with
  | h t ih =>
    have hpart : ∀ t', .type t' ∈ t.parts → ∀ r ∈ (expandType kinds types t').refs, p r :=
      fun t' ht' => ih t' ht' (fun i hi => hnone i (mem_refs_of_typePart ht' hi))
        fun i e hi => hsome i e (mem_refs_of_typePart ht' hi)
    have hargs : ∀ args : List Ty, (∀ a ∈ args, .type a ∈ t.parts) →
        ∀ r ∈ typesRefs (expandTypes kinds types args), p r := by
      intro args hmem r hr
      rw [typesRefs_eq, expandTypes_eq, List.flatMap_map] at hr
      obtain ⟨a, ha, hr⟩ := List.mem_flatMap.1 hr
      exact hpart a (hmem a ha) r hr
    have hfield : ∀ o : Option Ty, (∀ a ∈ o, .type a ∈ t.parts) →
        ∀ r ∈ optionTypeRefs (expandOptionType kinds types o), p r := by
      intro o hmem r hr
      rcases o with _ | a
      · cases hr
      · exact hpart a (hmem a rfl) r hr
    cases t with
    | var v args => exact hargs args (by simp [Ty.parts])
    | con c args => exact hargs args (by simp +contextual [Ty.parts])
    | syn s args => exact hargs args (by simp +contextual [Ty.parts])
    | builtin b args => exact hargs args (by simp [Ty.parts])
    | forAll vars body =>
      intro r hr
      rcases List.mem_append.1 hr with hr | hr
      · rw [List.flatMap_map] at hr
        obtain ⟨v, -, hr⟩ := List.mem_flatMap.1 hr
        change r ∈ optionKindRefs (expandOptionKind kinds v.kind) at hr
        rcases hv : v.kind with _ | k <;> rw [hv] at hr
        · cases hr
        · exact hkind k r hr
      · exact hfield body (by simp +contextual [Ty.parts]) r hr
    | struct fields =>
      intro r hr
      change r ∈ fieldsRefs (expandFields kinds types fields) at hr
      rw [fieldsRefs_eq_flatMap, expandFields_eq, List.flatMap_map] at hr
      obtain ⟨f, hf, hr⟩ := List.mem_flatMap.1 hr
      have hty : ∀ a ∈ f.type, .type a ∈ (Ty.struct fields).parts := by
        intro a ha
        refine List.mem_flatMap.2 ⟨f, hf, ?_⟩
        simp [FieldWithType.parts, Option.mem_def.1 ha]
      refine hfield f.type hty r ?_
      rw [expandOptionType_eq]
      exact hr
    | internedType i =>
      have hi : .type i ∈ (Ty.internedType i).refs := List.mem_singleton_self _
      intro r hr
      change r ∈ ((entryAt types i).getD (.internedType i)).refs at hr
      -- as for kinds: a reference without an entry stays
      rcases hentry : entryAt types i with _ | e <;> rw [hentry] at hr
      · cases List.mem_singleton.1 hr
        exact hnone i hi hentry
      · exact hsome i e hi hentry r hr
    | nat n => exact List.forall_mem_nil _
    | tapp => exact List.forall_mem_nil _
    | unset => exact List.forall_mem_nil _

/-- Where the references of an expanded entry are those of the entries used, or have no entry,
an expansion by the whole expanded table has no reference into the table. -/
lemma refs_of_expandTable {α : Type} (ref : Int → TableRef) {subst : List α → α → α}
    {refs : α → List TableRef} {table : List α}
    (hsubst : ∀ T a, (∀ i, ref i ∈ refs a → entryAt T i = none → p (ref i)) →
      (∀ i e, ref i ∈ refs a → entryAt T i = some e → ∀ r ∈ refs e, p r) →
      ∀ r ∈ refs (subst T a), p r)
    (hdescends : Expansion.Descends (fun a (i : ℕ) => ref i ∈ refs a) table)
    (hrange : ∀ i, ¬ (0 ≤ i ∧ i.toNat < table.length) → p (ref i)) (a : α) :
    ∀ r ∈ refs (subst (Expansion.expandTable subst table) a), p r := by
  have hentries : ∀ e ∈ Expansion.expandTable subst table, ∀ r ∈ refs e, p r := by
    refine Expansion.expandTable_induction hdescends fun e T hbelow hlen => ?_
    refine hsubst T e (fun i hi hnone => hrange i ?_) fun i b hi hb => ?_
    · rintro ⟨hpos, -⟩
      have hlt := hlen i.toNat (by rwa [Int.toNat_of_nonneg hpos])
      exact entryAt_eq_none.1 hnone ⟨hpos, hlt⟩
    · obtain ⟨hpos, hb⟩ := entryAt_eq_some.1 hb
      exact hbelow i.toNat (by rwa [Int.toNat_of_nonneg hpos]) b hb
  refine hsubst _ a (fun i _ hnone => hrange i ?_) fun i b _ hb => ?_
  · have hout := entryAt_eq_none.1 hnone
    rwa [Expansion.length_expandTable] at hout
  · exact hentries b (List.mem_of_getElem? (entryAt_eq_some.1 hb).2)

end Refs

/-! ### What converts alike -/

section Refines

open Run (Refines)

lemma required_map {α β γ : Type} (o : Option α) (g : α → β) (f : β → ConvertRun γ) :
    required (o.map g) f = required o fun a => f (g a) := by
  cases o <;> rfl

lemma refines_mapM_map {α β γ : Type} {f : α → ConvertRun γ} {f' : β → ConvertRun γ} {g : α → β}
    (as : List α) (hf : ∀ a ∈ as, Refines (f a) (f' (g a))) :
    Refines (as.mapM f) ((as.map g).mapM f') := by
  rw [List.mapM_map]
  exact .mapM as hf

/-- A reference to an entry, or the entry in its place. -/
lemma refines_interned {α β : Type} {what : String} {table table' : List α} {i : Int}
    {ref : α} {expand : α → α} {f : Nat → α → ConvertRun β} {fuel : Nat}
    (hmono : ∀ a, Run.Monotone fun fuel => f fuel a)
    (href : f (fuel + 1) ref = Run.lift (tableGet what table i) >>= f fuel)
    (htable : entryAt table' i = (entryAt table i).map expand)
    (ih : ∀ a, Refines (f fuel a) (f fuel (expand a))) :
    Refines (f (fuel + 1) ref) (f (fuel + 1) ((entryAt table' i).getD ref)) := by
  rw [htable]
  rcases hentry : entryAt table i with _ | a
  · exact .refl _
  · have hget : tableGet what table i = .ok a := tableGet_eq_ok_iff.2 hentry
    rw [href, hget]
    exact (ih a).trans (hmono (expand a) fuel)

end Refines

/-! ### The tables, expanded -/

variable (P : DamlPackageTables)

def expandedKinds : List Kind := Expansion.expandTable expandKind P.internedKinds

def expandedTypes : List Ty :=
  Expansion.expandTable (expandType P.expandedKinds) P.internedTypes

/-- A kind with every reference replaced by the kind that it stands for. -/
def expandedKind (k : Kind) : Kind := expandKind P.expandedKinds k

/-- A type with every reference replaced by the kind or the type that it stands for. -/
def expandedType (t : Ty) : Ty := expandType P.expandedKinds P.expandedTypes t

/-- A reference that has an entry. -/
def InRange : TableRef → Prop
  | .kind i => 0 ≤ i ∧ i.toNat < P.internedKinds.length
  | .type i => 0 ≤ i ∧ i.toNat < P.internedTypes.length

/-- The entries of the tables of kinds and of types refer to entries of smaller index. -/
structure TablesDescend : Prop where
  kinds : ∀ (k : ℕ) e, P.internedKinds[k]? = some e → ∀ i : Int, .kind i ∈ e.refs → 0 ≤ i ∧ i < k
  types : ∀ (k : ℕ) e, P.internedTypes[k]? = some e → ∀ i : Int, .type i ∈ e.refs → 0 ≤ i ∧ i < k

section Tables

variable {P} (h : P.TablesDescend)

include h

/-- A reference between kinds, for the expansion. -/
lemma TablesDescend.descends_kinds :
    Expansion.Descends (fun k (i : ℕ) => .kind i ∈ k.refs) P.internedKinds := by
  intro k e he j hj
  have := (h.kinds k e he j hj).2
  omega

lemma entryAt_expandedKinds (i : Int) :
    entryAt P.expandedKinds i = (entryAt P.internedKinds i).map P.expandedKind := by
  have hlocal : Expansion.Local expandKind fun k i => .kind i ∈ k.refs :=
    fun k _ _ hk => expandKind_congr k hk
  unfold entryAt
  split_ifs
  · rfl
  · exact Expansion.getElem?_expandTable hlocal h.descends_kinds i.toNat

/-- A reference between types, for the expansion. -/
lemma TablesDescend.descends_types :
    Expansion.Descends (fun t (i : ℕ) => .type i ∈ t.refs) P.internedTypes := by
  intro k e he j hj
  have := (h.types k e he j hj).2
  omega

lemma entryAt_expandedTypes (i : Int) :
    entryAt P.expandedTypes i = (entryAt P.internedTypes i).map P.expandedType := by
  have hlocal : Expansion.Local (expandType P.expandedKinds) fun t i => .type i ∈ t.refs :=
    fun t _ _ ht => expandType_congr t ht
  unfold entryAt
  split_ifs
  · rfl
  · exact Expansion.getElem?_expandTable hlocal h.descends_types i.toNat

/-! ### The conversion of an expanded type -/

open Run (Refines)

lemma convertKind_expandedKind (fuel : Nat) (k : Kind) :
    Refines (P.convertKind fuel k) (P.convertKind fuel (P.expandedKind k)) := by
  induction fuel generalizing k with
  | zero => exact .outOfFuel _
  | succ fuel ih =>
    cases k with
    | star => exact .refl _
    | nat => exact .refl _
    | unset => exact .refl _
    | internedKind i =>
      exact refines_interned convertKind_monotone rfl (entryAt_expandedKinds h i) ih
    | arrow params result =>
      have hexpand : P.expandedKind (.arrow params result) =
          .arrow (params.map P.expandedKind) (result.map P.expandedKind) := by
        show Kind.arrow (expandKinds _ params) (expandOptionKind _ result) = _
        rw [expandKinds_eq, expandOptionKind_eq]
        rfl
      rw [hexpand]
      refine .seq (.map _ (refines_mapM_map params fun k _ => ih k)) ?_
      rw [required_map]
      exact required_refines fun k _ => ih k

lemma convertTypevar_expandTypevar (fuel : Nat) (v : TypeVarWithKind) :
    Refines (P.convertTypevarWithKind fuel v)
      (P.convertTypevarWithKind fuel (expandTypevar P.expandedKinds v)) := by
  refine .seq (.refl _) ?_
  show Refines _ (required (expandOptionKind P.expandedKinds v.kind) (P.convertKind fuel))
  rw [expandOptionKind_eq, required_map]
  exact required_refines fun k _ => convertKind_expandedKind h fuel k

lemma convertType_expandedType_refines (fuel : Nat) (t : Ty) :
    Refines (P.convertType fuel t) (P.convertType fuel (P.expandedType t)) := by
  induction fuel generalizing t with
  | zero => exact .outOfFuel _
  | succ fuel ih =>
    have hargs : ∀ args : List Ty, Refines (args.mapM (P.convertType fuel))
        ((expandTypes P.expandedKinds P.expandedTypes args).mapM (P.convertType fuel)) := by
      intro args
      rw [expandTypes_eq]
      exact refines_mapM_map args fun t _ => ih t
    have hfield : ∀ o : Option Ty, Refines (required o (P.convertType fuel))
        (required (expandOptionType P.expandedKinds P.expandedTypes o) (P.convertType fuel)) := by
      intro o
      rw [expandOptionType_eq, required_map]
      exact required_refines fun t _ => ih t
    cases t with
    | var v args => exact .seq (.refl _) (hargs args)
    | con c args => exact .seq (.refl _) (hargs args)
    | syn s args => exact .seq (.refl _) (hargs args)
    | builtin b args => exact .bind (.refl _) fun _ => .bind (hargs args) fun _ => .refl _
    | forAll vars body =>
      exact .seq (.map _ (refines_mapM_map vars fun v _ => convertTypevar_expandTypevar h fuel v))
        (hfield body)
    | struct fields =>
      show Refines _ (DamlType.struct <$> (expandFields P.expandedKinds P.expandedTypes fields).mapM
        (P.convertFieldWith (P.convertType fuel)))
      rw [expandFields_eq]
      refine .map _ (refines_mapM_map fields fun f _ => .seq (.refl _) ?_)
      have hf := hfield f.type
      rwa [expandOptionType_eq] at hf
    | internedType i =>
      exact refines_interned convertType_monotone rfl (entryAt_expandedTypes h i) ih
    | nat n => exact .refl _
    | tapp => exact .refl _
    | unset => exact .refl _

/-! ### Nothing is left to expand -/

lemma not_inRange_of_refs_expandedKind (k : Kind) :
    ∀ r ∈ (P.expandedKind k).refs, ¬ P.InRange r := by
  refine refs_of_expandTable .kind (fun T k => refs_expandKind k) h.descends_kinds ?_ k
  exact fun i hrange hi => hrange hi

lemma not_inRange_of_refs_expandedType (t : Ty) :
    ∀ r ∈ (P.expandedType t).refs, ¬ P.InRange r := by
  refine refs_of_expandTable .type (fun T t => refs_expandType t ?_) h.descends_types ?_ t
  · exact not_inRange_of_refs_expandedKind h
  · exact fun i hrange hi => hrange hi

/-! ### The conversion stops -/

end Tables

/-- The place of a reference when the kinds are put in front of the types. -/
def place : TableRef → ℕ
  | .kind i => i.toNat
  | .type i => P.internedKinds.length + i.toNat

/-- The reference to an entry; expressions are referred to from expressions only. -/
def entryPlace : P.InternedRef → ℕ
  | .inl i => i
  | .inr (.inl i) => P.internedKinds.length + i
  | .inr (.inr _) => 0

/-- The references that have an entry have places below a bound. -/
def RefsBelow (b : ℕ) (refs : List TableRef) : Prop := ∀ r ∈ refs, P.InRange r → P.place r < b

/-- The message is a kind or a type whose references have places below a bound. -/
def Below (b : ℕ) : ProtoNode → Prop
  | .kind k => P.RefsBelow b k.refs
  | .type t => P.RefsBelow b t.refs
  | .expr _ => False

section Stops

variable {P}

/-- The parts of a kind or of a type are no expressions. -/
lemma below_of_part {b : ℕ} {n : ProtoNode} (hn : P.Below b n) {p : Proto.Part} (hp : p ∈ n.parts) :
    P.RefsBelow b p.refs ∧ p.isExpr = false := by
  cases n with
  | kind k => exact ⟨fun r hr => hn r (mem_refs_of_kindPart hp hr), Kind.isExpr_of_mem_parts hp⟩
  | type t => exact ⟨fun r hr => hn r (mem_refs_of_typePart hp hr), Ty.isExpr_of_mem_parts hp⟩
  | expr e => exact hn.elim

/-- A reference into a table goes to the entry at its place. -/
lemma internedPart_eq_ref {n : ℕ} {inj : Fin n → P.InternedRef} {i : Int} {r : P.InternedRef}
    (h : P.internedPart inj i = .ref r) :
    ∃ h : 0 ≤ i ∧ i.toNat < n, inj ⟨i.toNat, h.2⟩ = r := by
  unfold internedPart at h
  split_ifs at h with hin
  exact ⟨hin, by simpa using h⟩

/-- A reference goes below the bound, and the entry that it goes to refers below its own place. -/
lemma TablesDescend.entryPlace_lt (h : P.TablesDescend) {b : ℕ} {p : Proto.Part} {r : P.InternedRef}
    (hstep : P.step p = .ref r) (hp : p.isExpr = false) (hb : P.RefsBelow b p.refs) :
    P.entryPlace r < b ∧ P.Below (P.entryPlace r) (P.internedEntry r) := by
  cases p with
  | internedKind i =>
    obtain ⟨hin, rfl⟩ := internedPart_eq_ref hstep
    refine ⟨hb (.kind i) (List.mem_singleton_self _) hin, fun ref href _ => ?_⟩
    have hentry : P.internedKinds[i.toNat]? = some P.internedKinds[i.toNat] :=
      List.getElem?_eq_getElem hin.2
    cases ref with
    | kind j =>
      obtain ⟨hj, hlt⟩ := h.kinds _ _ hentry j href
      show j.toNat < i.toNat
      omega
    | type j => exact absurd href (Kind.type_notMem_refs _ j)
  | internedType i =>
    obtain ⟨hin, rfl⟩ := internedPart_eq_ref hstep
    refine ⟨hb (.type i) (List.mem_singleton_self _) hin, fun ref href hrange => ?_⟩
    have hentry : P.internedTypes[i.toNat]? = some P.internedTypes[i.toNat] :=
      List.getElem?_eq_getElem hin.2
    -- the kinds stand before the types: an interned type may refer to any interned kind
    cases ref with
    | kind j =>
      have hj : j.toNat < P.internedKinds.length := hrange.2
      show j.toNat < P.internedKinds.length + i.toNat
      omega
    | type j =>
      obtain ⟨hj, hlt⟩ := h.types _ _ hentry j href
      show P.internedKinds.length + j.toNat < P.internedKinds.length + i.toNat
      omega
  | internedExpr i => cases hp
  | _ => cases hstep

lemma TablesDescend.not_reachesCycle (h : P.TablesDescend) (t : Ty) :
    ¬ P.grammar.ReachesCycle (.type t) := by
  -- inside a message the bound stays, through a reference it goes down to the place of the entry
  have hsub : ∀ {b : ℕ} {n m : ProtoNode}, Traversal.Part.sub m ∈ P.grammar.parts n →
      P.Below b n → P.Below b m := by
    intro b n m hm hn
    obtain ⟨p, hp, hstep⟩ := List.mem_map.1 hm
    obtain ⟨hrefs, hexpr⟩ := below_of_part hn hp
    cases p with
    | kind k => cases hstep; exact hrefs
    | type t => cases hstep; exact hrefs
    | expr e => cases hexpr
    | internedKind i => exact absurd hstep (internedPart_ne_sub _ i m)
    | internedType i => exact absurd hstep (internedPart_ne_sub _ i m)
    | internedExpr i => exact absurd hstep (internedPart_ne_sub _ i m)
    | _ => cases hstep
  have href : ∀ {b : ℕ} {n : ProtoNode} {r : P.InternedRef},
      Traversal.Part.ref r ∈ P.grammar.parts n → P.Below b n →
      P.entryPlace r < b ∧ P.Below (P.entryPlace r) (P.internedEntry r) := by
    intro b n r hr hn
    obtain ⟨p, hp, hstep⟩ := List.mem_map.1 hr
    obtain ⟨hrefs, hexpr⟩ := below_of_part hn hp
    exact h.entryPlace_lt hstep hexpr hrefs
  have hroot : P.Below (P.internedKinds.length + P.internedTypes.length) (.type t) := by
    intro ref _ hrange
    cases ref with
    | kind i => exact Nat.lt_add_right _ hrange.2
    | type i => exact Nat.add_lt_add_left hrange.2 _
  exact Traversal.Grammar.not_reachesCycle_of_rank P.Below P.entryPlace hsub href hroot

end Stops

/-- Where every interned kind and type refers only to entries of smaller index, the conversion of a
type stops, and with the same result or the same error as the conversion of the expanded type, in
which nothing is left to look up. -/
theorem convertType_expandedType (h : P.TablesDescend) (t : Ty) :
    (∀ r ∈ (P.expandedType t).refs, ¬ P.InRange r) ∧
      ∃ r, Run.Returns (P.convertType · t) r ∧
        Run.Returns (P.convertType · (P.expandedType t)) r := by
  refine ⟨not_inRange_of_refs_expandedType h t, ?_⟩
  obtain ⟨fuel, hfuel⟩ := (exists_convertOutcome_iff (.type t)).2 (h.not_reachesCycle t)
  have hstops : P.convertType fuel t ≠ .error .outOfFuel :=
    fun hout => hfuel (Run.outcome_eq_outOfFuel.2 hout)
  obtain ⟨r, hr⟩ := Run.exists_lift hstops
  refine ⟨r, ⟨fuel, hr⟩, fuel, ?_⟩
  rw [← hr]
  exact (convertType_expandedType_refines h fuel t).eq_of_ne hstops

/-- A package with a kind that refers to a kind and a type that refers to a type. -/
def sharedTables : DamlPackageTables where
  name := "shared"
  languageVersion := .lv2 .v1
  packageId := "pkg"
  internedStrings := ["a"]
  internedDottedNames := []
  internedTypes := [.builtin 2 [], .builtin 10 [.internedType 0]]
  internedKinds := [.star, .arrow [.internedKind 0] (some (.internedKind 0))]
  internedExprs := []
  pkgNames := [("pkg", "shared")]

lemma sharedTables_descend : sharedTables.TablesDescend := by
  constructor
  · intro k e he i hi
    rcases k with _ | _ | k
    · cases he
      cases hi
    · cases he
      obtain rfl : i = 0 := by
        change TableRef.kind i ∈ [.kind 0, .kind 0] at hi
        simpa using hi
      decide
    · cases he
  · intro k e he i hi
    rcases k with _ | _ | k
    · cases he
      cases hi
    · cases he
      obtain rfl : i = 0 := by
        change TableRef.type i ∈ [.type 0] at hi
        simpa using hi
      decide
    · cases he

/-- `forall (a : * -> *). List (List Int64)`, where the kind and the inner list are interned. -/
def sharedType : Ty :=
  .forAll [⟨0, some (.internedKind 1)⟩] (some (.builtin 10 [.internedType 1]))

theorem convertType_expandedType_shared :
    ((∀ r ∈ (sharedTables.expandedType sharedType).refs, ¬ sharedTables.InRange r) ∧
      ∃ r, Run.Returns (sharedTables.convertType · sharedType) r ∧
        Run.Returns (sharedTables.convertType · (sharedTables.expandedType sharedType)) r) ∧
    sharedTables.expandedType sharedType =
      .forAll [⟨0, some (.arrow [.star] (some .star))⟩]
        (some (.builtin 10 [.builtin 10 [.builtin 2 []]])) :=
  ⟨convertType_expandedType sharedTables sharedTables_descend sharedType, rfl⟩

end DamlPackageTables

end DamlBindings.Lf
