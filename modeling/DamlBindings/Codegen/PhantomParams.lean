import DamlBindings.Codegen.Generics

/-!
# Phantom members

A definition of Rust has to use its type parameters.  The renderer adds a `PhantomData` member for a
parameter that occurs in no field.  It looks for the parameter in all of a type, and `quote_type`
leaves some of the arguments out.
-/

namespace DamlBindings.Lf.DamlType

open Worklist

/-! ### The type variables in a type -/

/-- The types that a type is made of, where a type variable stands for itself alone. -/
def contents : DamlType → List DamlType
  | .var _ _ => []
  | t => t.components

/-- The type variable occurs in the type, at any depth. -/
def OccursVar (t : DamlType) (v : String) : Prop :=
  ∃ args, Reaches contents t (.var v args)

variable {t : DamlType} {v : String}

lemma contents_subset (t : DamlType) : t.contents ⊆ t.components := by
  cases t <;> simp [contents]

lemma occursVar_iff :
    OccursVar t v ↔ (∃ args, t = .var v args) ∨ ∃ c ∈ t.contents, OccursVar c v := by
  constructor
  · rintro ⟨args, hreach⟩
    rcases reaches_iff.1 hreach with heq | ⟨c, hc, hreach⟩
    · exact .inl ⟨args, heq.symm⟩
    · exact .inr ⟨c, hc, args, hreach⟩
  · rintro (⟨args, rfl⟩ | ⟨c, hc, args, hreach⟩)
    · exact ⟨args, .refl⟩
    · exact ⟨args, reaches_iff.2 (.inr ⟨c, hc, hreach⟩)⟩

lemma anyContainsTypeVar_iff {ts : List DamlType} :
    anyContainsTypeVar v ts = true ↔ ∃ c ∈ ts, containsTypeVar v c = true := by
  induction ts with
  | nil => simp [anyContainsTypeVar]
  | cons t ts ih => simp [anyContainsTypeVar, ih]

lemma innerContainsTypeVar_iff {o : Option DamlType} :
    innerContainsTypeVar v o = true ↔ ∃ c ∈ o.toList, containsTypeVar v c = true := by
  cases o <;> simp [innerContainsTypeVar]

lemma fieldsContainTypeVar_iff {fs : List (DamlField DamlType)} :
    fieldsContainTypeVar v fs = true ↔ ∃ c ∈ fs.map DamlField.ty, containsTypeVar v c = true := by
  induction fs with
  | nil => simp [fieldsContainTypeVar]
  | cons f fs ih => simp [fieldsContainTypeVar, ih]

/-- What the renderer asks of a type is whether the variable occurs in it. -/
lemma containsTypeVar_iff_occursVar : containsTypeVar v t = true ↔ OccursVar t v := by
  induction t using shrinks_components.wellFounded.induction with
  | _ t ih =>
    have hstep : containsTypeVar v t = true ↔
        (∃ args, t = .var v args) ∨ ∃ c ∈ t.contents, containsTypeVar v c = true := by
      cases t <;> simp [containsTypeVar, contents, components, anyContainsTypeVar_iff,
        innerContainsTypeVar_iff, fieldsContainTypeVar_iff]
    rw [hstep, occursVar_iff]
    exact or_congr_right (exists_congr fun c => and_congr_right fun hc =>
      ih c (t.contents_subset hc))

end DamlBindings.Lf.DamlType

namespace DamlBindings.Codegen

open Lf Worklist

/-! ### The members that are added -/

/-- A list that is filtered before a map and after it gives the same only if the conditions agree:
the condition after it keeps all copies of a value or none. -/
lemma map_filter_eq_filter_map_iff {α β : Type} {l : List α} {p : α → Bool} {f : α → β}
    {q : β → Bool} : (l.filter p).map f = (l.map f).filter q ↔ ∀ a ∈ l, p a = q (f a) := by
  classical
  rw [List.filter_map]
  constructor
  · intro h a ha
    rcases hq : q (f a) with - | -
    · by_contra hp
      rw [Bool.not_eq_false] at hp
      have hmem : f a ∈ (l.filter p).map f := List.mem_map_of_mem (List.mem_filter.2 ⟨ha, hp⟩)
      rw [h] at hmem
      obtain ⟨b, hb, heq⟩ := List.mem_map.1 hmem
      have hqb : q (f b) = true := (List.mem_filter.1 hb).2
      rw [heq, hq] at hqb
      cases hqb
    · -- as many copies of the value are kept before the map as there are
      have hcount := congrArg (List.count (f a)) h
      rw [List.count_eq_countP, List.countP_map, List.countP_filter, List.count_eq_countP,
        List.countP_map, List.countP_filter] at hcount
      have hall : l.countP (fun b => (((· == f a) ∘ f) b) && (q ∘ f) b) =
          l.countP ((· == f a) ∘ f) := by
        refine List.countP_congr fun b _ => ?_
        simp only [Function.comp_apply, Bool.and_eq_true, beq_iff_eq, and_iff_left_iff_imp]
        rintro heq
        rw [heq, hq]
      rw [hall, List.countP_eq_length_filter, List.countP_eq_length_filter] at hcount
      have hsub : (l.filter fun b => (((· == f a) ∘ f) b) && p b).Sublist
          (l.filter ((· == f a) ∘ f)) := by
        rw [← List.filter_filter]
        exact List.filter_sublist.filter _
      have hmem : a ∈ l.filter ((· == f a) ∘ f) := by
        refine List.mem_filter.2 ⟨ha, ?_⟩
        rw [Function.comp_apply, beq_iff_eq]
      rw [← hsub.eq_of_length hcount] at hmem
      have hkept := (List.mem_filter.1 hmem).2
      rw [Bool.and_eq_true] at hkept
      exact hkept.2
  · intro h
    exact congrArg (List.map f) (List.filter_congr h)

/-- A parameter that occurs in a field is rendered in one, and not only left out with a contract id
or an argument: some variable is rendered under its identifier.  A parameter under whose identifier
a variable is rendered occurs in a field itself. -/
structure PhantomsTold (N : Naming) (params : List DamlTypeVarWithKind)
    (fields : List (DamlField DamlType)) : Prop where
  rendered : ∀ p ∈ params, ∀ f ∈ fields, f.ty.OccursVar p.var →
    ∃ g ∈ fields, ∃ v, RendersVar g.ty v ∧
      N.toUppercase (sanitizeVarName v) = N.toUppercase (normalizeGenericParam p.var)
  occurs : ∀ p ∈ params, ∀ f ∈ fields, ∀ v, RendersVar f.ty v →
    N.toUppercase (sanitizeVarName v) = N.toUppercase (normalizeGenericParam p.var) →
    ∃ g ∈ fields, g.ty.OccursVar p.var

section Phantoms

variable {N : Naming} {params : List DamlTypeVarWithKind} {fields : List (DamlField DamlType)}
  {declared : List ParamTokens} {used phantoms : List String}

/-- A definition with the identifiers of the type variables that its fields are rendered with. -/
lemma phantoms_eq_iff (hdeclared : quoteBoundedParams N params = .ok declared)
    (hphantoms : phantoms =
      (unusedParams params fields).map fun p => N.toUppercase (normalizeGenericParam p.var))
    (hused : ∀ x, x ∈ used ↔
      ∃ f ∈ fields, ∃ v, RendersVar f.ty v ∧ N.toUppercase (sanitizeVarName v) = x) :
    (phantoms = (declared.map ParamTokens.ident).filter fun x => x ∉ used) ↔
      PhantomsTold N params fields := by
  rw [hphantoms, ← (forall₂_of_quoteBoundedParams hdeclared).map_eq, unusedParams,
    map_filter_eq_filter_map_iff]
  -- both lists are filters of the declared parameters, so they are compared parameter by parameter
  have hunused : ∀ p : DamlTypeVarWithKind,
      (!fields.any fun f => f.ty.containsTypeVar p.var) = decide (N.toUppercase
        (normalizeGenericParam p.var) ∉ used) ↔
      ((∃ f ∈ fields, f.ty.OccursVar p.var) ↔ ∃ f ∈ fields, ∃ v, RendersVar f.ty v ∧
        N.toUppercase (sanitizeVarName v) = N.toUppercase (normalizeGenericParam p.var)) := by
    intro p
    rw [Bool.eq_iff_iff, Bool.not_eq_true', ← Bool.not_eq_true, List.any_eq_true,
      decide_eq_true_eq, not_iff_not, hused]
    simp only [DamlType.containsTypeVar_iff_occursVar]
  simp only [hunused]
  constructor
  · intro h
    refine ⟨fun p hp f hf hoccurs => (h p hp).1 ⟨f, hf, hoccurs⟩, fun p hp f hf v hv heq => ?_⟩
    exact (h p hp).2 ⟨f, hf, v, hv, heq⟩
  · intro h p hp
    constructor
    · rintro ⟨f, hf, hoccurs⟩
      exact h.rendered p hp f hf hoccurs
    · rintro ⟨f, hf, v, hv, heq⟩
      exact h.occurs p hp f hf v hv heq

lemma phantoms_of_quotePhantomParam {phantoms : List PhantomTokens}
    (h : params.mapM (quotePhantomParam N) = .ok phantoms) :
    phantoms.map PhantomTokens.ident =
      params.map fun p => N.toUppercase (normalizeGenericParam p.var) :=
  Except.map_eq_of_mapM h fun _ _ ht => (quoteIdent_eq_ok.1 (quotePhantomParam_eq_ok.1 ht).2).2.symm

end Phantoms

/-- In every rendered record and every rendered variant the phantom members are those of the
declared parameters that no type of a field is rendered with, if and only if every parameter that
occurs in the Daml type of a field is rendered in one, and every parameter under whose identifier a
variable is rendered occurs in one. -/
theorem phantoms_eq_unused_iff (N : Naming) (ctx : RenderContext) (name : String)
    (fields : List (DamlField DamlType)) (params : List DamlTypeVarWithKind) :
    (∀ s, quoteStruct N name (supportedFields ctx fields) params = .ok s →
      (s.phantoms.map PhantomTokens.ident = (s.boundedParams.map ParamTokens.ident).filter
          (fun x => x ∉ s.body.flatMap fun f => f.ty.vars) ↔
        PhantomsTold N params (supportedFields ctx fields))) ∧
    ∀ s, quoteVariant N name (supportedFields ctx fields) params = .ok s →
      (s.phantoms = (s.boundedParams.map ParamTokens.ident).filter
          (fun x => x ∉ s.body.flatMap fun c => c.data.toList.flatMap TypeTokens.vars) ↔
        PhantomsTold N params (supportedFields ctx fields)) := by
  constructor
  · intro s h
    have hs := quotedStruct_of_ok h
    exact phantoms_eq_iff hs.boundedParams (phantoms_of_quotePhantomParam hs.phantoms) fun _ =>
      mem_vars_fields hs.body
  · intro s h
    have hs := quotedEnum_of_ok h
    have hidents := Except.map_eq_of_mapM (g := id) hs.phantoms fun _ _ hp =>
      (quoteIdent_eq_ok.1 hp).2.symm
    rw [List.map_id] at hidents
    exact phantoms_eq_iff hs.boundedParams hidents fun _ => mem_vars_constructors hs.body

/-- `data Cell a b = Cell with content : a`, with a phantom member for `b`. -/
theorem phantoms_eq_unused_iff_cell :
    (∃ s, quoteStruct wordNaming "Cell" (supportedFields emptyContext [⟨"content", .var "a" []⟩])
        [⟨"a", .star⟩, ⟨"b", .star⟩] = .ok s ∧
      (s.phantoms.map PhantomTokens.ident = (s.boundedParams.map ParamTokens.ident).filter
          (fun x => x ∉ s.body.flatMap fun f => f.ty.vars) ↔
        PhantomsTold wordNaming [⟨"a", .star⟩, ⟨"b", .star⟩]
          (supportedFields emptyContext [⟨"content", .var "a" []⟩]))) ∧
    ∃ s, quoteVariant wordNaming "Cell" (supportedFields emptyContext [⟨"Full", .var "a" []⟩])
        [⟨"a", .star⟩, ⟨"b", .star⟩] = .ok s ∧
      (s.phantoms = (s.boundedParams.map ParamTokens.ident).filter
          (fun x => x ∉ s.body.flatMap fun c => c.data.toList.flatMap TypeTokens.vars) ↔
        PhantomsTold wordNaming [⟨"a", .star⟩, ⟨"b", .star⟩]
          (supportedFields emptyContext [⟨"Full", .var "a" []⟩])) :=
  ⟨⟨_, rfl, (phantoms_eq_unused_iff wordNaming emptyContext "Cell" [⟨"content", .var "a" []⟩]
      [⟨"a", .star⟩, ⟨"b", .star⟩]).1 _ rfl⟩,
    ⟨_, rfl, (phantoms_eq_unused_iff wordNaming emptyContext "Cell" [⟨"Full", .var "a" []⟩]
      [⟨"a", .star⟩, ⟨"b", .star⟩]).2 _ rfl⟩⟩

/-- `data Holder a = Holder with holding : ContractId a` declares `A`, does not use it in the type
`DamlContractId`, and has no phantom member. -/
theorem not_phantoms_eq_unused_holder :
    ¬ ∀ (N : Naming) (ctx : RenderContext) (name : String) (fields : List (DamlField DamlType))
      (params : List DamlTypeVarWithKind) (s : StructTokens),
      quoteStruct N name (supportedFields ctx fields) params = .ok s →
      s.phantoms.map PhantomTokens.ident = (s.boundedParams.map ParamTokens.ident).filter
        fun x => x ∉ s.body.flatMap fun f => f.ty.vars := by
  intro hall
  have h := hall wordNaming emptyContext "Holder" [⟨"holding", .contractId (some (.var "a" []))⟩]
    [⟨"a", .star⟩] _ rfl
  exact absurd h (by decide)

end DamlBindings.Codegen
