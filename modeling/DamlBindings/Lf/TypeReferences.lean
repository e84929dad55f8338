import DamlBindings.Lf.ConvertType
import DamlBindings.Lf.Visitor

/-!
# The references of a type

Which type-constructor and type-synonym references of a type on the wire are still reported when
the converted type is visited.  The arguments of a builtin type that has no room for them are
converted and then dropped; everything else is kept.
-/

namespace DamlBindings.Lf

open Proto

/-- A reference to a type constructor or to a type synonym. -/
inductive TypeRef where
  | con (id : TypeConId)
  | syn (id : TypeSynId)
deriving DecidableEq, Repr

/-- The builtin types whose conversion keeps their arguments. -/
def BuiltinType.hasRoom : BuiltinType → Bool
  | .numeric | .contractId | .optional | .list | .genmap | .textmap => true
  | _ => false

/-- The names that visiting a type reports through `pre_visit_tycon_name`. -/
def DamlType.tyconNames (t : DamlType) : List DamlTyConName := visited Element.tyconName? t.accept

lemma DamlType.visited_accept : (fun t : DamlType => visited Element.tyconName? t.accept) =
    DamlType.tyconNames := rfl

@[simp] lemma DamlTyConName.visited_accept (n : DamlTyConName) :
    visited Element.tyconName? n.accept = [n] := by
  rcases n with c | c | c <;> rfl

section Accept

attribute [local simp] DamlKind.accept DamlType.accept Element.tyconName?

mutual

@[simp] lemma DamlKind.visited_accept (k : DamlKind) :
    visited Element.tyconName? k.accept = [] := by
  match k with
  | .star => rfl
  | .nat => rfl
  | .arrow params result =>
    simp [visited_acceptKinds params, DamlKind.visited_accept result]

lemma visited_acceptKinds (ks : List DamlKind) :
    visited Element.tyconName? (acceptKinds ks) = [] := by
  match ks with
  | [] => rfl
  | k :: ks =>
    change visited Element.tyconName? (k.accept ++ acceptKinds ks) = []
    rw [visited_append, DamlKind.visited_accept k, visited_acceptKinds ks, List.append_nil]

end

@[simp] lemma DamlTypeVarWithKind.visited_accept (v : DamlTypeVarWithKind) :
    visited Element.tyconName? v.accept = [] := by
  simp [DamlTypeVarWithKind.accept]

namespace DamlType

section TyconNames

variable (args : List DamlType) (n : DamlTyConName)

@[simp] lemma tyconNames_var (v : String) :
    tyconNames (.var v args) = args.flatMap tyconNames := by
  simp [tyconNames, visited_accept]

@[simp] lemma tyconNames_tyCon :
    tyconNames (.tyCon n args) = n :: args.flatMap tyconNames := by
  simp [tyconNames, visited_accept]

@[simp] lemma tyconNames_syn : tyconNames (.syn n args) = n :: args.flatMap tyconNames := by
  simp [tyconNames, visited_accept]

@[simp] lemma tyconNames_contractId (inner : Option DamlType) :
    tyconNames (.contractId inner) = inner.toList.flatMap tyconNames := by
  simp [tyconNames, visited_accept]

@[simp] lemma tyconNames_forAll (vars : List DamlTypeVarWithKind) (body : DamlType) :
    tyconNames (.forAll vars body) = body.tyconNames := by
  simp [tyconNames]

@[simp] lemma tyconNames_struct (fields : List (DamlField DamlType)) :
    tyconNames (.struct fields) = fields.flatMap fun f => f.ty.tyconNames := by
  simp [tyconNames, DamlField.accept]

@[simp] lemma tyconNames_nat (k : Nat) : tyconNames (.nat k) = [] := rfl

end TyconNames

end DamlType

/-- What visiting a converted builtin type reports: its arguments, or nothing. -/
lemma tyconNames_of_builtinType {kind : BuiltinType} {args : List DamlType} {d : DamlType}
    (h : DamlPackageTables.builtinType kind args = .ok d) :
    d.tyconNames = if kind.hasRoom then args.flatMap DamlType.tyconNames else [] := by
  by_cases hkind : kind = .contractId
  · subst hkind
    simp only [DamlPackageTables.builtinType] at h
    split_ifs at h with hlen
    cases h
    match args with
    | [] => rfl
    | [a] => simp [BuiltinType.hasRoom]
    | a :: b :: args => simp at hlen
  · cases kind <;> simp only [DamlPackageTables.builtinType, Except.ok.injEq] at h <;>
      first
      | exact absurd rfl hkind
      | (subst h; simp [DamlType.tyconNames, BuiltinType.hasRoom, DamlType.visited_accept])

end Accept

namespace DamlPackageTables

variable (P : DamlPackageTables)

/-- A reference resolved to a name. -/
def convertTypeRef : TypeRef → DamlLfConvertResult DamlTyConName
  | .con id => P.convertTyconId id
  | .syn id => P.convertTysynId id

/-- The entry of an interning table at an index, if there is one. -/
def entryAt {α : Type} (table : List α) (index : Int) : Option α :=
  if index < 0 then none else table[index.toNat]?

lemma tableGet_eq_ok_iff {α : Type} {what : String} {table : List α} {index : Int} {a : α} :
    tableGet what table index = .ok a ↔ entryAt table index = some a := by
  rw [tableGet_eq_ok, entryAt]
  split_ifs with h
  · simp
    omega
  · simp [Int.not_lt.1 h]

/-- All references that occur in a type, with the interned types it refers to expanded.  The
fuel bounds the depth of the expansion. -/
def typeRefs : Nat → Ty → List TypeRef
  | 0, _ => []
  | fuel + 1, t =>
    match t with
    | .var _ args => args.flatMap (typeRefs fuel)
    | .con c args => c.toList.map .con ++ args.flatMap (typeRefs fuel)
    | .syn s args => s.toList.map .syn ++ args.flatMap (typeRefs fuel)
    | .builtin _ args => args.flatMap (typeRefs fuel)
    | .forAll _ body => body.toList.flatMap (typeRefs fuel)
    | .struct fields => fields.flatMap fun f => f.type.toList.flatMap (typeRefs fuel)
    | .internedType i => (entryAt P.internedTypes i).toList.flatMap (typeRefs fuel)
    | .nat _ => []
    | .tapp => []
    | .unset => []

/-- The references that occur in the arguments of a builtin type that has no room for them. -/
def lostTypeRefs : Nat → Ty → List TypeRef
  | 0, _ => []
  | fuel + 1, t =>
    match t with
    | .var _ args => args.flatMap (lostTypeRefs fuel)
    | .con _ args => args.flatMap (lostTypeRefs fuel)
    | .syn _ args => args.flatMap (lostTypeRefs fuel)
    | .builtin b args =>
      if (BuiltinType.tryFrom b).any BuiltinType.hasRoom then args.flatMap (lostTypeRefs fuel)
      else args.flatMap (P.typeRefs fuel)
    | .forAll _ body => body.toList.flatMap (lostTypeRefs fuel)
    | .struct fields => fields.flatMap fun f => f.type.toList.flatMap (lostTypeRefs fuel)
    | .internedType i => (entryAt P.internedTypes i).toList.flatMap (lostTypeRefs fuel)
    | .nat _ => []
    | .tapp => []
    | .unset => []

/-- The other references. -/
def keptTypeRefs : Nat → Ty → List TypeRef
  | 0, _ => []
  | fuel + 1, t =>
    match t with
    | .var _ args => args.flatMap (keptTypeRefs fuel)
    | .con c args => c.toList.map .con ++ args.flatMap (keptTypeRefs fuel)
    | .syn s args => s.toList.map .syn ++ args.flatMap (keptTypeRefs fuel)
    | .builtin b args =>
      if (BuiltinType.tryFrom b).any BuiltinType.hasRoom then args.flatMap (keptTypeRefs fuel)
      else []
    | .forAll _ body => body.toList.flatMap (keptTypeRefs fuel)
    | .struct fields => fields.flatMap fun f => f.type.toList.flatMap (keptTypeRefs fuel)
    | .internedType i => (entryAt P.internedTypes i).toList.flatMap (keptTypeRefs fuel)
    | .nat _ => []
    | .tapp => []
    | .unset => []

variable {P}

/-- Every reference is either kept or lost. -/
lemma typeRefs_perm (fuel : Nat) (t : Ty) :
    (P.typeRefs fuel t).Perm (P.keptTypeRefs fuel t ++ P.lostTypeRefs fuel t) := by
  induction fuel generalizing t with
  | zero => exact .refl _
  | succ fuel ih =>
    have hargs : ∀ args : List Ty, (args.flatMap (P.typeRefs fuel)).Perm
        (args.flatMap (P.keptTypeRefs fuel) ++ args.flatMap (P.lostTypeRefs fuel)) := by
      intro args
      exact (List.Perm.flatMap_left args fun t _ => ih t).trans
        (List.flatMap_append_perm args _ _).symm
    cases t with
    | var v args => exact hargs args
    | con c args =>
      simp only [typeRefs, keptTypeRefs, lostTypeRefs, List.append_assoc]
      exact (hargs args).append_left _
    | syn s args =>
      simp only [typeRefs, keptTypeRefs, lostTypeRefs, List.append_assoc]
      exact (hargs args).append_left _
    | builtin b args =>
      simp only [typeRefs, keptTypeRefs, lostTypeRefs]
      split_ifs
      · exact hargs args
      · exact .refl _
    | forAll vars body => exact hargs body.toList
    | struct fields =>
      exact (List.Perm.flatMap_left fields fun f _ => hargs f.type.toList).trans
        (List.flatMap_append_perm fields _ _).symm
    | internedType i => exact hargs (entryAt P.internedTypes i).toList
    | nat n => exact .refl _
    | tapp => exact .refl _
    | unset => exact .refl _

/-! ### Converted types -/

section Converted

variable {fuel m : Nat} {d : DamlType}

/-- What holds of the references of every argument holds of the references of all of them. -/
lemma flatMap_names {α β : Type} {as : List α} {bs : List β} {refs : α → List TypeRef}
    {names : β → List DamlTyConName}
    (h : List.Forall₂ (fun a b => List.Forall₂ (fun r n => P.convertTypeRef r = .ok n)
      (refs a) (names b)) as bs) :
    List.Forall₂ (fun r n => P.convertTypeRef r = .ok n) (as.flatMap refs) (bs.flatMap names) :=
  List.rel_flatMap h fun _ _ hab => hab

/-- The names that visiting a converted type reports are those of the references kept. -/
lemma keptTypeRefs_convertType {t : Ty} (h : P.convertType fuel t = .ok d) (hm : fuel ≤ m) :
    List.Forall₂ (fun r n => P.convertTypeRef r = .ok n) (P.keptTypeRefs m t) d.tyconNames := by
  induction fuel generalizing t d m with
  | zero => cases h
  | succ fuel ih =>
    -- the references are read with at least the fuel of the conversion, so both go down together
    obtain ⟨m, rfl⟩ : ∃ k, m = k + 1 := ⟨m - 1, by omega⟩
    have hm : fuel ≤ m := by omega
    have hargs : ∀ {args : List Ty} {ds : List DamlType},
        args.mapM (P.convertType fuel) = .ok ds →
        List.Forall₂ (fun r n => P.convertTypeRef r = .ok n)
          (args.flatMap (P.keptTypeRefs m)) (ds.flatMap DamlType.tyconNames) := by
      intro args ds hds
      exact flatMap_names ((Except.mapM_eq_ok.1 hds).imp fun a b hab => ih hab hm)
    cases t with
    | var v args =>
      simp only [convertType, Except.seq_eq_ok, Except.map_eq_ok] at h
      obtain ⟨_, ⟨s, -, rfl⟩, ds, hds, rfl⟩ := h
      rw [DamlType.tyconNames_var]
      exact hargs hds
    | con c args =>
      simp only [convertType, Except.seq_eq_ok, Except.map_eq_ok, tycon_eq_ok] at h
      obtain ⟨_, ⟨n, ⟨id, rfl, hid⟩, rfl⟩, ds, hds, rfl⟩ := h
      simpa [keptTypeRefs] using ⟨hid, hargs hds⟩
    | syn s args =>
      simp only [convertType, Except.seq_eq_ok, Except.map_eq_ok, tysyn_eq_ok] at h
      obtain ⟨_, ⟨n, ⟨id, rfl, hid⟩, rfl⟩, ds, hds, rfl⟩ := h
      simpa [keptTypeRefs] using ⟨hid, hargs hds⟩
    | builtin b args =>
      simp only [convertType, Except.bind_eq_ok, Run.lift_eq_ok, req_eq_ok] at h
      obtain ⟨kind, hkind, ds, hds, hd⟩ := h
      -- a builtin type keeps all of its arguments or none of them
      rw [tyconNames_of_builtinType hd, keptTypeRefs, hkind, Option.any_some]
      split_ifs
      · exact hargs hds
      · exact .nil
    | forAll vars body =>
      simp only [convertType, Except.seq_eq_ok, Except.map_eq_ok, required_eq_ok] at h
      obtain ⟨_, ⟨vs, -, rfl⟩, b, ⟨t, rfl, hb⟩, rfl⟩ := h
      simpa [keptTypeRefs] using ih hb hm
    | struct fields =>
      simp only [convertType, Except.map_eq_ok] at h
      obtain ⟨fs, hfs, rfl⟩ := h
      rw [DamlType.tyconNames_struct]
      refine flatMap_names ((Except.mapM_eq_ok.1 hfs).imp fun f g hfg => ?_)
      simp only [convertFieldWith, Except.seq_eq_ok, Except.map_eq_ok, required_eq_ok] at hfg
      obtain ⟨_, ⟨s, -, rfl⟩, b, ⟨t, ht, hb⟩, rfl⟩ := hfg
      simpa [ht] using ih hb hm
    | nat n =>
      simp only [convertType, convertNat, Run.lift_eq_ok] at h
      split_ifs at h
      cases h
      exact .nil
    | internedType i =>
      simp only [convertType, Except.bind_eq_ok, Run.lift_eq_ok, tableGet_eq_ok_iff] at h
      obtain ⟨t, ht, hd⟩ := h
      simpa [keptTypeRefs, ht] using ih hd hm
    | tapp => cases h
    | unset => cases h

/-- When a type converts, every reference in it, kept or lost, resolves to a name. -/
lemma typeRefs_convertType {t : Ty} (h : P.convertType fuel t = .ok d) (hm : fuel ≤ m) {r : TypeRef}
    (hr : r ∈ P.typeRefs m t) : ∃ n, P.convertTypeRef r = .ok n := by
  induction fuel generalizing t d m with
  | zero => cases h
  | succ fuel ih =>
    obtain ⟨m, rfl⟩ : ∃ k, m = k + 1 := ⟨m - 1, by omega⟩
    have hm : fuel ≤ m := by omega
    have hargs : ∀ {args : List Ty} {ds : List DamlType},
        args.mapM (P.convertType fuel) = .ok ds → r ∈ args.flatMap (P.typeRefs m) →
        ∃ n, P.convertTypeRef r = .ok n := by
      intro args ds hds hr
      obtain ⟨a, ha, hr⟩ := List.mem_flatMap.1 hr
      obtain ⟨b, -, hb⟩ := (Except.mapM_eq_ok.1 hds).exists_right ha
      exact ih hb hm hr
    cases t with
    | var v args =>
      simp only [convertType, Except.seq_eq_ok, Except.map_eq_ok] at h
      obtain ⟨_, -, ds, hds, rfl⟩ := h
      exact hargs hds hr
    | con c args =>
      simp only [convertType, Except.seq_eq_ok, Except.map_eq_ok, tycon_eq_ok] at h
      obtain ⟨_, ⟨n, ⟨id, rfl, hid⟩, rfl⟩, ds, hds, rfl⟩ := h
      rcases List.mem_append.1 hr with hr | hr
      · obtain rfl : r = .con id := by simpa using hr
        exact ⟨n, hid⟩
      · exact hargs hds hr
    | syn s args =>
      simp only [convertType, Except.seq_eq_ok, Except.map_eq_ok, tysyn_eq_ok] at h
      obtain ⟨_, ⟨n, ⟨id, rfl, hid⟩, rfl⟩, ds, hds, rfl⟩ := h
      rcases List.mem_append.1 hr with hr | hr
      · obtain rfl : r = .syn id := by simpa using hr
        exact ⟨n, hid⟩
      · exact hargs hds hr
    | builtin b args =>
      simp only [convertType, Except.bind_eq_ok, Run.lift_eq_ok, req_eq_ok] at h
      obtain ⟨kind, -, ds, hds, -⟩ := h
      exact hargs hds hr
    | forAll vars body =>
      simp only [convertType, Except.seq_eq_ok, required_eq_ok] at h
      obtain ⟨_, -, b, ⟨t, rfl, hb⟩, -⟩ := h
      exact ih hb hm (by simpa [typeRefs] using hr)
    | struct fields =>
      simp only [convertType, Except.map_eq_ok] at h
      obtain ⟨fs, hfs, -⟩ := h
      obtain ⟨f, hf, hr⟩ := List.mem_flatMap.1 hr
      obtain ⟨g, -, hfg⟩ := (Except.mapM_eq_ok.1 hfs).exists_right hf
      simp only [convertFieldWith, Except.seq_eq_ok, required_eq_ok] at hfg
      obtain ⟨_, -, b, ⟨t, ht, hb⟩, -⟩ := hfg
      exact ih hb hm (by simpa [ht] using hr)
    | nat n => cases hr
    | internedType i =>
      simp only [convertType, Except.bind_eq_ok, Run.lift_eq_ok, tableGet_eq_ok_iff] at h
      obtain ⟨t, ht, hd⟩ := h
      exact ih hd hm (by simpa [typeRefs, ht] using hr)
    | tapp => cases hr
    | unset => cases hr

/-- Visiting a converted type reports exactly the references that occur in the type, each as
often as it occurs, if and only if none of them is in the arguments of a builtin type that has
no room for arguments. -/
theorem tyconNames_perm_typeRefs_iff {t : Ty} (h : P.convertType fuel t = .ok d) (hm : fuel ≤ m) :
    ∃ names, (P.typeRefs m t).mapM P.convertTypeRef = .ok names ∧
      (d.tyconNames.Perm names ↔ P.lostTypeRefs m t = []) := by
  have hkept := keptTypeRefs_convertType h hm
  obtain ⟨names, hnames⟩ := List.exists_forall₂ fun r hr => typeRefs_convertType h hm hr
  refine ⟨names, Except.mapM_eq_ok.2 hnames, ?_, ?_⟩
  · intro hperm
    have hlen := (typeRefs_perm (P := P) m t).length_eq
    rw [List.length_append, hnames.length_eq, ← hperm.length_eq, ← hkept.length_eq] at hlen
    exact List.length_eq_zero_iff.1 (by omega)
  · intro hlost
    have hperm := typeRefs_perm (P := P) m t
    rw [hlost, List.append_nil] at hperm
    obtain ⟨kept, hkept', hnames'⟩ := hnames.exists_perm_right hperm.symm
    have hunique : ∀ {rs ns ns'}, List.Forall₂ (fun r n => P.convertTypeRef r = .ok n) rs ns →
        List.Forall₂ (fun r n => P.convertTypeRef r = .ok n) rs ns' → ns = ns' := by
      intro rs ns ns' h h'
      exact Except.ok.inj ((Except.mapM_eq_ok.2 h).symm.trans (Except.mapM_eq_ok.2 h'))
    rw [hunique hkept hkept']
    exact hnames'

end Converted

/-- A package `pkg` with the data type `M:T` and nothing interned but its names. -/
def smallTables : DamlPackageTables where
  name := "small"
  languageVersion := .lv2 .v1
  packageId := "pkg"
  internedStrings := ["M", "T"]
  internedDottedNames := [[0], [1]]
  internedTypes := []
  internedKinds := []
  internedExprs := []
  pkgNames := [("pkg", "small")]

/-- The reference to `M:T` from its own package. -/
def smallTyconId : TypeConId := ⟨some ⟨some .selfPackageId, 0⟩, 1⟩

/-- The name it resolves to. -/
def smallTyconName : DamlTyConName := .absolute ⟨"T", "pkg", "small", ["M"]⟩

/-- A list of `M:T` keeps its reference. -/
theorem tyconNames_perm_typeRefs_iff_list :
    ∃ names, (smallTables.typeRefs 2 (.builtin 10 [.con (some smallTyconId) []])).mapM
        smallTables.convertTypeRef = .ok names ∧
      ((DamlType.list [.tyCon smallTyconName []]).tyconNames.Perm names ↔
        smallTables.lostTypeRefs 2 (.builtin 10 [.con (some smallTyconId) []]) = []) := by
  have h : smallTables.convertType 2 (.builtin 10 [.con (some smallTyconId) []]) =
      .ok (.list [.tyCon smallTyconName []]) := rfl
  exact tyconNames_perm_typeRefs_iff h (Nat.le_refl 2)

/-- The function type `M:T -> M:T` converts, with two references to `M:T` in it, and visiting the
converted type reports none. -/
theorem tyconNames_function_type :
    smallTables.convertType 2
        (.builtin 16 [.con (some smallTyconId) [], .con (some smallTyconId) []]) = .ok .arrow ∧
      (smallTables.typeRefs 2
        (.builtin 16 [.con (some smallTyconId) [], .con (some smallTyconId) []])).mapM
          smallTables.convertTypeRef = .ok [smallTyconName, smallTyconName] ∧
      ¬ DamlType.arrow.tyconNames.Perm [smallTyconName, smallTyconName] := by
  refine ⟨rfl, rfl, ?_⟩
  have hnames : DamlType.arrow.tyconNames = [] := rfl
  simp [hnames]

end DamlPackageTables

end DamlBindings.Lf
