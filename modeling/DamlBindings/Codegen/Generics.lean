import DamlBindings.Codegen.TypeRenderer
import Mathlib.Data.List.TakeWhile

/-!
# Type parameters in the generated code

`quote_generic_common.rs`, and the type definitions that `quote_main_struct.rs` and
`quote_variant.rs` quote.  A type variable is declared under the upper case of the text in front of
its first underscore, and used under the upper case of all of its name.
-/

namespace DamlBindings.Lf

/-- The kind is `DamlKind::Nat`. -/
def DamlKind.isNat : DamlKind → Bool
  | .nat => true
  | _ => false

namespace DamlType

mutual

/-- `DamlType::contains_type_var` -/
def containsTypeVar (typeVar : String) : DamlType → Bool
  | .var v _ => v == typeVar
  | .list args => anyContainsTypeVar typeVar args
  | .optional args => anyContainsTypeVar typeVar args
  | .textMap args => anyContainsTypeVar typeVar args
  | .genMap args => anyContainsTypeVar typeVar args
  | .numeric args => anyContainsTypeVar typeVar args
  | .contractId inner => innerContainsTypeVar typeVar inner
  | .tyCon _ args => anyContainsTypeVar typeVar args
  | .boxedTyCon _ args => anyContainsTypeVar typeVar args
  | .forAll _ body => containsTypeVar typeVar body
  | .struct fields => fieldsContainTypeVar typeVar fields
  | .syn _ args => anyContainsTypeVar typeVar args
  | .int64 | .text | .timestamp | .party | .bool | .unit | .date | .update | .arrow | .any
  | .typeRep | .bignumeric | .roundingMode | .anyException | .failureCategory => false
  | .nat _ => false
termination_by structural t => t

def anyContainsTypeVar (typeVar : String) : List DamlType → Bool
  | [] => false
  | t :: ts => containsTypeVar typeVar t || anyContainsTypeVar typeVar ts
termination_by structural ts => ts

def innerContainsTypeVar (typeVar : String) : Option DamlType → Bool
  | none => false
  | some t => containsTypeVar typeVar t
termination_by structural o => o

def fieldsContainTypeVar (typeVar : String) : List (DamlField DamlType) → Bool
  | [] => false
  | ⟨_, ty⟩ :: fs => containsTypeVar typeVar ty || fieldsContainTypeVar typeVar fs
termination_by structural fs => fs

end

end DamlType

end DamlBindings.Lf

namespace DamlBindings.Codegen

open Lf Worklist

/-- A type parameter where it is declared, with the bound `Nat` or without. -/
structure ParamTokens where
  ident : String
  nat : Bool

/-- A field, or an argument of a method: a label and a type. -/
structure FieldTokens where
  label : String
  ty : TypeTokens

/-- A field that only holds a type parameter. -/
structure PhantomTokens where
  label : String
  ident : String

/-- The tokens `pub struct name <..> { .. }` and the marker impls after it. -/
structure StructTokens where
  name : String
  boundedParams : List ParamTokens
  unboundedParams : List String
  body : List FieldTokens
  phantoms : List PhantomTokens

/-- A constructor of an enum, with its data. -/
structure ConstructorTokens where
  name : String
  data : Option TypeTokens

/-- The tokens `pub enum name <..> { .. }` and the marker impls after it. -/
structure EnumTokens where
  name : String
  boundedParams : List ParamTokens
  unboundedParams : List String
  body : List ConstructorTokens
  phantoms : List String

section Quote

variable (N : Naming)

/-- `quote_var` -/
def quoteVar (var : String) : Render String :=
  quoteIdent N (N.toUppercase (normalizeGenericParam var))

/-- `quote_type_var` -/
def quoteBoundedParam (typeVar : DamlTypeVarWithKind) : Render ParamTokens :=
  (fun ident => ⟨ident, typeVar.kind.isNat⟩) <$> quoteVar N typeVar.var

/-- `quote_bounded_params` -/
def quoteBoundedParams (params : List DamlTypeVarWithKind) : Render (List ParamTokens) :=
  params.mapM (quoteBoundedParam N)

/-- `quote_unbounded_params` -/
def quoteUnboundedParams (params : List DamlTypeVarWithKind) : Render (List String) :=
  params.mapM fun typeVar => quoteVar N typeVar.var

/-- The fields whose types can be rendered. -/
def supportedFields (ctx : RenderContext) (fields : List (DamlField DamlType)) :
    List (DamlField DamlType) :=
  fields.filter fun field => checkType ctx field.ty

/-- The parameters that no field contains. -/
def unusedParams (params : List DamlTypeVarWithKind) (fields : List (DamlField DamlType)) :
    List DamlTypeVarWithKind :=
  params.filter fun p => !fields.any fun f => f.ty.containsTypeVar p.var

/-- `label: ty`; the full renderer puts `pub` in front. -/
def quoteField (field : DamlField DamlType) : Render FieldTokens := do
  let label ← quoteEscapedIdent N field.name
  let ty ← quoteType N field.ty
  pure ⟨label, ty⟩

/-- The field of a parameter that is not used. -/
def quotePhantomParam (param : DamlTypeVarWithKind) : Render PhantomTokens := do
  let label ← quoteEscapedIdent N (makeIgnoredIdent param.var)
  let ident ← quoteVar N param.var
  pure ⟨label, ident⟩

/-- `quote_struct` -/
def quoteStruct (structName : String) (fields : List (DamlField DamlType))
    (params : List DamlTypeVarWithKind) : Render StructTokens := do
  let name ← quoteEscapedIdent N structName
  let boundedParams ← quoteBoundedParams N params
  let unboundedParams ← quoteUnboundedParams N params
  let body ← fields.mapM (quoteField N)
  let phantoms ← (unusedParams params fields).mapM (quotePhantomParam N)
  pure ⟨name, boundedParams, unboundedParams, body, phantoms⟩

/-- The type is `DamlType::Unit`. -/
def isUnit : DamlType → Bool
  | .unit => true
  | _ => false

/-- A constructor; one for the unit type has no data. -/
def quoteConstructor (field : DamlField DamlType) : Render ConstructorTokens := do
  let name ← quoteEscapedIdent N field.name
  if isUnit field.ty then pure ⟨name, none⟩
  else do
    let data ← quoteType N field.ty
    pure ⟨name, some data⟩

/-- `quote_variant` -/
def quoteVariant (variantName : String) (variants : List (DamlField DamlType))
    (params : List DamlTypeVarWithKind) : Render EnumTokens := do
  let name ← quoteEscapedIdent N variantName
  let boundedParams ← quoteBoundedParams N params
  let unboundedParams ← quoteUnboundedParams N params
  let body ← variants.mapM (quoteConstructor N)
  let phantoms ← (unusedParams params variants).mapM fun p => quoteVar N p.var
  pure ⟨name, boundedParams, unboundedParams, body, phantoms⟩

end Quote

/-! ### The identifiers of type variables -/

mutual

/-- The type variables in the tokens of a type. -/
def TypeTokens.vars : TypeTokens → List String
  | .var ident => [ident]
  | .path _ args => argsVars args
termination_by structural t => t

def argsVars : List TypeTokens → List String
  | [] => []
  | t :: ts => t.vars ++ argsVars ts
termination_by structural ts => ts

end

/-- The identifiers of type variables that are used in the definition. -/
def StructTokens.usedVars (s : StructTokens) : List String :=
  s.body.flatMap (fun f => f.ty.vars) ++ s.phantoms.map PhantomTokens.ident

/-- The identifiers of type variables that are used in the definition. -/
def EnumTokens.usedVars (s : EnumTokens) : List String :=
  s.body.flatMap (fun c => c.data.toList.flatMap TypeTokens.vars) ++ s.phantoms

/-- The upper case of a text has an underscore exactly if the text has one: letters are converted
one by one, and the underscore is the only one that gives an underscore. -/
def UppercaseKeepsUnderscore (N : Naming) : Prop :=
  ∀ value, '_' ∈ (N.toUppercase value).toList ↔ '_' ∈ value.toList

/-- The variables that are rendered in a type. -/
def RendersVar (t : DamlType) (v : String) : Prop :=
  ∃ args, Reaches DamlType.keptArguments t (.var v args)

/-- Every identifier that is used is declared, and parameters with distinct names are declared
under distinct identifiers. -/
structure WellScoped (params : List DamlTypeVarWithKind) (declared : List ParamTokens)
    (used : List String) : Prop where
  used : ∀ x ∈ used, x ∈ declared.map ParamTokens.ident
  distinct : ∀ a ∈ params.zip declared, ∀ b ∈ params.zip declared, a.1.var ≠ b.1.var →
    a.2.ident ≠ b.2.ident

/-- The variables that are rendered have no underscore and no space in their names and are
parameters, and the parameters differ in what is in front of the first underscore; all up to
case. -/
structure VarsApart (N : Naming) (params : List DamlTypeVarWithKind)
    (fields : List (DamlField DamlType)) : Prop where
  vars : ∀ f ∈ fields, ∀ v, RendersVar f.ty v → '_' ∉ v.toList ∧ ' ' ∉ v.toList ∧
    ∃ p ∈ params, N.toUppercase v = N.toUppercase (normalizeGenericParam p.var)
  params : ∀ p ∈ params, ∀ q ∈ params, p.var ≠ q.var →
    N.toUppercase (normalizeGenericParam p.var) ≠ N.toUppercase (normalizeGenericParam q.var)

section Scope

variable {N : Naming}

lemma quoteIdent_eq_ok {value ident : String} :
    quoteIdent N value = .ok ident ↔ N.isIdent value = true ∧ value = ident := by
  unfold quoteIdent
  split_ifs with h <;> simp [h]

lemma quoteEscapedIdent_eq_ok {value ident : String} :
    quoteEscapedIdent N value = .ok ident ↔
      N.isIdent (escapeIdentifier value) = true ∧ escapeIdentifier value = ident :=
  quoteIdent_eq_ok

/-- The segments of a path from the crate are rendered in snake case. -/
lemma quotePathSegments_eq_ok {path segments : List String} :
    quotePathSegments N path = .ok segments ↔
      path.map (toRustIdentifier N) = segments ∧ ∀ s ∈ segments, N.isIdent s = true := by
  rw [quotePathSegments, Except.mapM_eq_ok]
  simp only [quoteEscapedIdent_eq_ok]
  constructor
  · intro h
    refine ⟨(h.imp fun _ _ hs => hs.2).map_eq.trans (List.map_id _), fun s hs => ?_⟩
    obtain ⟨_, _, hident, rfl⟩ := h.exists_left hs
    exact hident
  · rintro ⟨rfl, hall⟩
    refine List.forall₂_map_right_iff.2 (List.forall₂_same.2 fun s hs => ⟨?_, rfl⟩)
    exact hall _ (List.mem_map_of_mem hs)

/-! ### What is quoted -/

lemma quoteField_eq_ok {f : DamlField DamlType} {t : FieldTokens} :
    quoteField N f = .ok t ↔
      quoteEscapedIdent N f.name = .ok t.label ∧ quoteType N f.ty = .ok t.ty := by
  simp only [quoteField, Except.bind_eq_ok, Except.pure_eq_ok]
  constructor
  · rintro ⟨label, hlabel, ty, hty, rfl⟩
    exact ⟨hlabel, hty⟩
  · rintro ⟨hlabel, hty⟩
    exact ⟨_, hlabel, _, hty, rfl⟩

/-- The data of a constructor: a type, unless it is the unit type. -/
def IsData (N : Naming) (ty : DamlType) (data : Option TypeTokens) : Prop :=
  if isUnit ty then data = none else ∃ tokens, quoteType N ty = .ok tokens ∧ data = some tokens

lemma quoteConstructor_eq_ok {f : DamlField DamlType} {c : ConstructorTokens} :
    quoteConstructor N f = .ok c ↔
      quoteEscapedIdent N f.name = .ok c.name ∧ IsData N f.ty c.data := by
  rw [quoteConstructor, Except.bind_eq_ok, IsData]
  split_ifs with hunit
  · constructor
    · rintro ⟨name, hname, h⟩
      cases h
      exact ⟨hname, rfl⟩
    · rintro ⟨hname, hdata⟩
      exact ⟨_, hname, by rw [← hdata]; rfl⟩
  · constructor
    · rintro ⟨name, hname, h⟩
      obtain ⟨data, hdata, h⟩ := Except.bind_eq_ok.1 h
      cases h
      exact ⟨hname, data, hdata, rfl⟩
    · rintro ⟨hname, tokens, htokens, hdata⟩
      exact ⟨_, hname, Except.bind_eq_ok.2 ⟨tokens, htokens, by rw [← hdata]; rfl⟩⟩

lemma quotePhantomParam_eq_ok {param : DamlTypeVarWithKind} {t : PhantomTokens} :
    quotePhantomParam N param = .ok t ↔
      quoteEscapedIdent N (makeIgnoredIdent param.var) = .ok t.label ∧
        quoteVar N param.var = .ok t.ident := by
  simp only [quotePhantomParam, Except.bind_eq_ok, Except.pure_eq_ok]
  constructor
  · rintro ⟨label, hlabel, ident, hident, rfl⟩
    exact ⟨hlabel, hident⟩
  · rintro ⟨hlabel, hident⟩
    exact ⟨_, hlabel, _, hident, rfl⟩

/-- The parts of a struct are quoted one by one. -/
structure QuotedStruct (N : Naming) (name : String) (fields : List (DamlField DamlType))
    (params : List DamlTypeVarWithKind) (s : StructTokens) : Prop where
  name : quoteEscapedIdent N name = .ok s.name
  boundedParams : quoteBoundedParams N params = .ok s.boundedParams
  body : fields.mapM (quoteField N) = .ok s.body
  phantoms : (unusedParams params fields).mapM (quotePhantomParam N) = .ok s.phantoms

lemma quotedStruct_of_ok {name : String} {fields : List (DamlField DamlType)}
    {params : List DamlTypeVarWithKind} {s : StructTokens}
    (h : quoteStruct N name fields params = .ok s) : QuotedStruct N name fields params s := by
  simp only [quoteStruct, Except.bind_eq_ok, Except.pure_eq_ok] at h
  obtain ⟨_, hname, _, hbounded, _, -, body, hbody, phantoms, hphantoms, rfl⟩ := h
  exact ⟨hname, hbounded, hbody, hphantoms⟩

/-- The parts of an enum are quoted one by one. -/
structure QuotedEnum (N : Naming) (name : String) (fields : List (DamlField DamlType))
    (params : List DamlTypeVarWithKind) (s : EnumTokens) : Prop where
  name : quoteEscapedIdent N name = .ok s.name
  boundedParams : quoteBoundedParams N params = .ok s.boundedParams
  body : fields.mapM (quoteConstructor N) = .ok s.body
  phantoms : (unusedParams params fields).mapM (fun p => quoteVar N p.var) = .ok s.phantoms

lemma quotedEnum_of_ok {name : String} {fields : List (DamlField DamlType)}
    {params : List DamlTypeVarWithKind} {s : EnumTokens}
    (h : quoteVariant N name fields params = .ok s) : QuotedEnum N name fields params s := by
  simp only [quoteVariant, Except.bind_eq_ok, Except.pure_eq_ok] at h
  obtain ⟨_, hname, _, hbounded, _, -, body, hbody, phantoms, hphantoms, rfl⟩ := h
  exact ⟨hname, hbounded, hbody, hphantoms⟩

/-! ### Variables -/

lemma argsVars_eq (ts : List TypeTokens) : argsVars ts = ts.flatMap TypeTokens.vars := by
  induction ts with
  | nil => rfl
  | cons t ts ih => exact congrArg (t.vars ++ ·) ih

lemma vars_path (p : RustPath) (args : List TypeTokens) :
    (TypeTokens.path p args).vars = args.flatMap TypeTokens.vars := argsVars_eq args

lemma rendersVar_iff {t : DamlType} {v : String} :
    RendersVar t v ↔ (∃ args, t = .var v args) ∨ ∃ a ∈ t.keptArguments, RendersVar a v := by
  constructor
  · rintro ⟨args, hreach⟩
    rcases reaches_iff.1 hreach with heq | ⟨a, ha, hreach⟩
    · exact .inl ⟨args, heq.symm⟩
    · exact .inr ⟨a, ha, args, hreach⟩
  · rintro (⟨args, rfl⟩ | ⟨a, ha, args, hreach⟩)
    · exact ⟨args, .refl⟩
    · exact ⟨args, reaches_iff.2 (.inr ⟨a, ha, hreach⟩)⟩

/-- The head of a type that is no variable is a path. -/
lemma vars_apply {t : DamlType} {head : TypeHead} (h : quoteHead N t = .ok head)
    (hvar : ∀ v args, t ≠ .var v args) (args : List TypeTokens) :
    (head.apply args).vars = args.flatMap TypeTokens.vars := by
  have hpath : ∀ {x : Render String},
      (fun ident => TypeHead.path (.name ident)) <$> x = .ok head →
      (head.apply args).vars = args.flatMap TypeTokens.vars := by
    intro x hx
    obtain ⟨ident, -, rfl⟩ := Except.map_eq_ok.1 hx
    exact vars_path _ args
  cases t with
  | var v args => exact absurd rfl (hvar v args)
  | tyCon tycon as =>
    obtain ⟨p, -, rfl⟩ := Except.map_eq_ok.1 h
    exact vars_path p args
  | boxedTyCon tycon as =>
    obtain ⟨p, -, rfl⟩ := Except.map_eq_ok.1 h
    show (TypeTokens.path (.name "Box") [.path p args]).vars = _
    rw [vars_path, List.flatMap_cons, vars_path, List.flatMap_nil, List.append_nil]
  | nat n => exact hpath h
  | list as => exact hpath h
  | optional as => exact hpath h
  | numeric as => exact hpath h
  | textMap as => exact hpath h
  | genMap as => exact hpath h
  | contractId inner => exact hpath h
  | int64 => exact hpath h
  | text => exact hpath h
  | timestamp => exact hpath h
  | party => exact hpath h
  | bool => exact hpath h
  | unit => exact hpath h
  | date => exact hpath h
  | _ => cases h

/-- The tokens of a type use the variables that are rendered. -/
lemma mem_vars_iff {t : DamlType} {tokens : TypeTokens} (h : quoteType N t = .ok tokens)
    {x : String} : x ∈ tokens.vars ↔
      ∃ v, RendersVar t v ∧ N.toUppercase (sanitizeVarName v) = x := by
  induction t using DamlType.arguments_induction generalizing tokens with
  | h t ih =>
    obtain ⟨head, hhead, args, hargs, rfl⟩ := quoteType_eq_ok.1 h
    have hquoted := Except.mapM_eq_ok.1 hargs
    by_cases hvar : ∃ v as, t = .var v as
    · obtain ⟨w, as, rfl⟩ := hvar
      obtain ⟨ident, hident, rfl⟩ := Except.map_eq_ok.1 hhead
      obtain ⟨-, rfl⟩ := quoteIdent_eq_ok.1 hident
      show x ∈ [N.toUppercase (sanitizeVarName w)] ↔ _
      rw [List.mem_singleton]
      constructor
      · rintro rfl
        exact ⟨w, ⟨as, .refl⟩, rfl⟩
      · rintro ⟨v, hv, rfl⟩
        obtain ⟨as', heq⟩ | ⟨a, ha, -⟩ := rendersVar_iff.1 hv
        · cases heq
          rfl
        · cases ha
    · have hne : ∀ v as, t ≠ .var v as := fun v as heq => hvar ⟨v, as, heq⟩
      rw [vars_apply hhead hne, List.mem_flatMap]
      constructor
      · rintro ⟨toks, htoks, hx⟩
        obtain ⟨a, ha, hquote⟩ := hquoted.exists_left htoks
        obtain ⟨v, hv, hx⟩ := (ih a (t.keptArguments_sublist.subset ha) hquote).1 hx
        exact ⟨v, rendersVar_iff.2 (.inr ⟨a, ha, hv⟩), hx⟩
      · rintro ⟨v, hv, hx⟩
        obtain ⟨as, heq⟩ | ⟨a, ha, hv⟩ := rendersVar_iff.1 hv
        · exact absurd heq (hne v as)
        · obtain ⟨toks, htoks, hquote⟩ := hquoted.exists_right ha
          exact ⟨toks, htoks, (ih a (t.keptArguments_sublist.subset ha) hquote).2 ⟨v, hv, hx⟩⟩

/-! ### Declared and used -/

lemma notMem_normalizeGenericParam (param : String) :
    '_' ∉ (normalizeGenericParam param).toList := by
  unfold normalizeGenericParam
  rw [String.toList_ofList]
  intro hmem
  have := List.mem_takeWhile_imp hmem
  simp at this

/-- A name without underscores and spaces is not changed. -/
lemma sanitizeVarName_of_notMem {var : String} (h : ' ' ∉ var.toList) :
    sanitizeVarName var = var := by
  unfold sanitizeVarName
  have hmap : var.toList.map (fun c => if c = ' ' then '_' else c) = var.toList := by
    refine (List.map_congr_left fun c hc => ?_).trans (List.map_id _)
    have hne : c ≠ ' ' := by
      rintro rfl
      exact h hc
    exact if_neg hne
  rw [hmap, String.ofList_toList]

lemma mem_sanitizeVarName {var : String} :
    '_' ∈ (sanitizeVarName var).toList ↔ '_' ∈ var.toList ∨ ' ' ∈ var.toList := by
  unfold sanitizeVarName
  rw [String.toList_ofList, List.mem_map]
  constructor
  · rintro ⟨c, hc, heq⟩
    split_ifs at heq with hspace
    · exact .inr (hspace ▸ hc)
    · exact .inl (heq ▸ hc)
  · rintro (h | h)
    · exact ⟨'_', h, rfl⟩
    · exact ⟨' ', h, rfl⟩

/-- A variable is used under the identifier of a parameter exactly if its name has no underscore
and no space and is that of the parameter, up to case and what the parameter loses. -/
lemma sanitize_eq_normalize_iff (hN : UppercaseKeepsUnderscore N) {v p : String} :
    N.toUppercase (sanitizeVarName v) = N.toUppercase (normalizeGenericParam p) ↔
      ('_' ∉ v.toList ∧ ' ' ∉ v.toList) ∧
        N.toUppercase v = N.toUppercase (normalizeGenericParam p) := by
  constructor
  · intro heq
    have hv : '_' ∉ (sanitizeVarName v).toList := by
      rw [← hN, heq, hN]
      exact notMem_normalizeGenericParam p
    rw [mem_sanitizeVarName, not_or] at hv
    rw [sanitizeVarName_of_notMem hv.2] at heq
    exact ⟨hv, heq⟩
  · rintro ⟨⟨-, hspace⟩, heq⟩
    rw [sanitizeVarName_of_notMem hspace]
    exact heq

/-- The identifiers that parameters are declared under. -/
lemma forall₂_of_quoteBoundedParams {params : List DamlTypeVarWithKind}
    {declared : List ParamTokens} (h : quoteBoundedParams N params = .ok declared) :
    List.Forall₂ (fun p t => N.toUppercase (normalizeGenericParam p.var) = t.ident)
      params declared := by
  refine (Except.mapM_eq_ok.1 h).imp fun p t hp => ?_
  obtain ⟨ident, hident, rfl⟩ := Except.map_eq_ok.1 hp
  exact (quoteIdent_eq_ok.1 hident).2

section Definition

variable {params : List DamlTypeVarWithKind} {declared : List ParamTokens}
  {fields : List (DamlField DamlType)} {used : List String}

/-- A definition that declares its parameters, and uses the variables of its fields and some of the
parameters. -/
lemma wellScoped_iff (hN : UppercaseKeepsUnderscore N)
    (hdeclared : quoteBoundedParams N params = .ok declared)
    (hfields : ∀ f ∈ fields, ∀ v, RendersVar f.ty v → N.toUppercase (sanitizeVarName v) ∈ used)
    (hused : ∀ x ∈ used,
      (∃ f ∈ fields, ∃ v, RendersVar f.ty v ∧ N.toUppercase (sanitizeVarName v) = x) ∨
        ∃ p ∈ params, N.toUppercase (normalizeGenericParam p.var) = x) :
    WellScoped params declared used ↔ VarsApart N params fields := by
  have hparams := forall₂_of_quoteBoundedParams hdeclared
  have hmem : ∀ x, x ∈ declared.map ParamTokens.ident ↔
      ∃ p ∈ params, N.toUppercase (normalizeGenericParam p.var) = x := by
    intro x
    have hmap : params.map (fun p => N.toUppercase (normalizeGenericParam p.var)) =
        declared.map ParamTokens.ident := hparams.map_eq
    rw [← hmap, List.mem_map]
  have hzip : ∀ p ∈ params, ∃ t, (p, t) ∈ params.zip declared := by
    intro p hp
    obtain ⟨i, hi, rfl⟩ := List.getElem_of_mem hp
    have hi' : i < declared.length := hparams.length_eq ▸ hi
    exact ⟨declared[i], List.mem_iff_getElem.2 ⟨i, by simp [hi, hi'], by simp⟩⟩
  have hident : ∀ a ∈ params.zip declared,
      N.toUppercase (normalizeGenericParam a.1.var) = a.2.ident := by
    intro a ha
    exact (List.forall₂_iff_zip.1 hparams).2 ha
  constructor
  · intro h
    refine ⟨fun f hf v hv => ?_, fun p hp q hq hne => ?_⟩
    · obtain ⟨p, hp, heq⟩ := (hmem _).1 (h.used _ (hfields f hf v hv))
      obtain ⟨⟨hunder, hspace⟩, heq⟩ := (sanitize_eq_normalize_iff hN).1 heq.symm
      exact ⟨hunder, hspace, p, hp, heq⟩
    · obtain ⟨t, ht⟩ := hzip p hp
      obtain ⟨u, hu⟩ := hzip q hq
      rw [hident _ ht, hident _ hu]
      exact h.distinct _ ht _ hu hne
  · intro h
    refine ⟨fun x hx => ?_, fun a ha b hb hne => ?_⟩
    · rw [hmem]
      rcases hused x hx with ⟨f, hf, v, hv, rfl⟩ | hphantom
      · obtain ⟨hunder, hspace, p, hp, heq⟩ := h.vars f hf v hv
        exact ⟨p, hp, ((sanitize_eq_normalize_iff hN).2 ⟨⟨hunder, hspace⟩, heq⟩).symm⟩
      · exact hphantom
    · rw [← hident a ha, ← hident b hb]
      exact h.params _ (List.of_mem_zip ha).1 _ (List.of_mem_zip hb).1 hne

end Definition

/-- The variables of a struct are those of its fields. -/
lemma mem_vars_fields {fields : List (DamlField DamlType)} {body : List FieldTokens}
    (h : fields.mapM (quoteField N) = .ok body) {x : String} :
    x ∈ body.flatMap (fun f => f.ty.vars) ↔
      ∃ f ∈ fields, ∃ v, RendersVar f.ty v ∧ N.toUppercase (sanitizeVarName v) = x :=
  Except.mem_flatMap_of_mapM h fun _ _ ht => mem_vars_iff (quoteField_eq_ok.1 ht).2

/-- The variables of a constructor are those of its data. -/
lemma mem_vars_data {ty : DamlType} {data : Option TypeTokens} (h : IsData N ty data)
    {x : String} : x ∈ data.toList.flatMap TypeTokens.vars ↔
      ∃ v, RendersVar ty v ∧ N.toUppercase (sanitizeVarName v) = x := by
  unfold IsData at h
  split_ifs at h with hunit
  · have hty : ty = .unit := by
      cases ty <;> first | rfl | cases hunit
    subst h hty
    simp only [Option.toList_none, List.flatMap_nil, List.not_mem_nil, false_iff]
    rintro ⟨v, hv, -⟩
    obtain ⟨as, heq⟩ | ⟨a, ha, -⟩ := rendersVar_iff.1 hv
    · cases heq
    · cases ha
  · obtain ⟨tokens, htokens, rfl⟩ := h
    simpa using mem_vars_iff htokens

lemma mem_vars_constructors {fields : List (DamlField DamlType)} {body : List ConstructorTokens}
    (h : fields.mapM (quoteConstructor N) = .ok body) {x : String} :
    x ∈ body.flatMap (fun c => c.data.toList.flatMap TypeTokens.vars) ↔
      ∃ f ∈ fields, ∃ v, RendersVar f.ty v ∧ N.toUppercase (sanitizeVarName v) = x :=
  Except.mem_flatMap_of_mapM h fun _ _ hc => mem_vars_data (quoteConstructor_eq_ok.1 hc).2

/-- The type variables of a struct are well scoped if and only if names are apart. -/
lemma wellScoped_struct_iff (hN : UppercaseKeepsUnderscore N) {name : String}
    {fields : List (DamlField DamlType)} {params : List DamlTypeVarWithKind} {s : StructTokens}
    (h : quoteStruct N name fields params = .ok s) :
    WellScoped params s.boundedParams s.usedVars ↔ VarsApart N params fields := by
  have hs := quotedStruct_of_ok h
  refine wellScoped_iff hN hs.boundedParams (fun f hf v hv => ?_) fun x hx => ?_
  · exact List.mem_append_left _ ((mem_vars_fields hs.body).2 ⟨f, hf, v, hv, rfl⟩)
  · rcases List.mem_append.1 hx with hx | hx
    · exact .inl ((mem_vars_fields hs.body).1 hx)
    · obtain ⟨t, ht, rfl⟩ := List.mem_map.1 hx
      obtain ⟨p, hp, hphantom⟩ := (Except.mapM_eq_ok.1 hs.phantoms).exists_left ht
      have hident := (quotePhantomParam_eq_ok.1 hphantom).2
      exact .inr ⟨p, List.mem_of_mem_filter hp, (quoteIdent_eq_ok.1 hident).2⟩

/-- The type variables of an enum are well scoped if and only if names are apart. -/
lemma wellScoped_enum_iff (hN : UppercaseKeepsUnderscore N) {name : String}
    {fields : List (DamlField DamlType)} {params : List DamlTypeVarWithKind} {s : EnumTokens}
    (h : quoteVariant N name fields params = .ok s) :
    WellScoped params s.boundedParams s.usedVars ↔ VarsApart N params fields := by
  have hs := quotedEnum_of_ok h
  refine wellScoped_iff hN hs.boundedParams (fun f hf v hv => ?_) fun x hx => ?_
  · exact List.mem_append_left _ ((mem_vars_constructors hs.body).2 ⟨f, hf, v, hv, rfl⟩)
  · rcases List.mem_append.1 hx with hx | hx
    · exact .inl ((mem_vars_constructors hs.body).1 hx)
    · obtain ⟨p, hp, hident⟩ := (Except.mapM_eq_ok.1 hs.phantoms).exists_left hx
      exact .inr ⟨p, List.mem_of_mem_filter hp, (quoteIdent_eq_ok.1 hident).2⟩

end Scope

/-- The type variables of every record and every variant that is rendered are well scoped if and
only if the variables in its supported fields have no underscore and no space in their names and are
parameters, and the parameters differ in what is in front of the first underscore. -/
theorem wellScoped_iff_varsApart {N : Naming} (hN : UppercaseKeepsUnderscore N)
    (ctx : RenderContext) (name : String) (fields : List (DamlField DamlType))
    (params : List DamlTypeVarWithKind) :
    (∀ s, quoteStruct N name (supportedFields ctx fields) params = .ok s →
      (WellScoped params s.boundedParams s.usedVars ↔
        VarsApart N params (supportedFields ctx fields))) ∧
    ∀ s, quoteVariant N name (supportedFields ctx fields) params = .ok s →
      (WellScoped params s.boundedParams s.usedVars ↔
        VarsApart N params (supportedFields ctx fields)) :=
  ⟨fun _ h => wellScoped_struct_iff hN h, fun _ h => wellScoped_enum_iff hN h⟩

/-- No other character of ASCII has an underscore for its upper case. -/
lemma toUpper_eq_underscore {c : Char} : c.toUpper = '_' ↔ c = '_' := by
  by_cases h : 'a'.val ≤ c.val ∧ c.val ≤ 'z'.val
  · have hval : c.toUpper.val = c.val + ('A'.val - 'a'.val) := by
      show (dite _ _ _ : Char).val = _
      rw [dif_pos h]
    constructor
    · intro heq
      rw [heq] at hval
      have h127 : c.val = 127 := by
        have := congrArg (· - ('A'.val - 'a'.val)) hval
        simpa using this.symm
      rw [h127] at h
      exact absurd h (by decide)
    · rintro rfl
      exact absurd h (by decide)
  · have hid : c.toUpper = c := by
      show (dite _ _ _ : Char) = _
      rw [dif_neg h]
    rw [hid]

lemma uppercaseKeepsUnderscore_wordNaming : UppercaseKeepsUnderscore wordNaming := by
  intro value
  show '_' ∈ (String.ofList (value.toList.map Char.toUpper)).toList ↔ _
  rw [String.toList_ofList, List.mem_map]
  constructor
  · rintro ⟨c, hc, heq⟩
    rwa [← toUpper_eq_underscore.1 heq]
  · exact fun h => ⟨'_', h, rfl⟩

lemma rendersVar_var_iff {v w : String} {as : List DamlType} :
    RendersVar (.var v as) w ↔ w = v := by
  rw [rendersVar_iff]
  constructor
  · rintro (⟨_, heq⟩ | ⟨a, ha, -⟩)
    · cases heq
      rfl
    · cases ha
  · rintro rfl
    exact .inl ⟨as, rfl⟩

/-- `data Pair a b = Pair with first : a; second : [b]`, and the variant with these constructors. -/
theorem wellScoped_iff_varsApart_pair :
    let fields := supportedFields emptyContext
      [⟨"First", .var "a" []⟩, ⟨"Second", .list [.var "b" []]⟩]
    let params : List DamlTypeVarWithKind := [⟨"a", .star⟩, ⟨"b", .star⟩]
    (∃ s, quoteStruct wordNaming "Pair" fields params = .ok s ∧
      WellScoped params s.boundedParams s.usedVars) ∧
    ∃ s, quoteVariant wordNaming "Pair" fields params = .ok s ∧
      WellScoped params s.boundedParams s.usedVars := by
  intro fields params
  have hvars : ∀ f ∈ fields, ∀ v, RendersVar f.ty v → v = "a" ∨ v = "b" := by
    intro f hf v hv
    obtain hf | hf : f = ⟨"First", .var "a" []⟩ ∨ f = ⟨"Second", .list [.var "b" []]⟩ := by
      simpa [fields, supportedFields] using (List.mem_filter.1 hf).1
    · subst hf
      exact .inl (rendersVar_var_iff.1 hv)
    · subst hf
      obtain ⟨_, heq⟩ | ⟨a, ha, hv⟩ := rendersVar_iff.1 hv
      · cases heq
      · obtain rfl := List.mem_singleton.1 ha
        exact .inr (rendersVar_var_iff.1 hv)
  have happart : VarsApart wordNaming params fields := by
    refine ⟨fun f hf v hv => ?_, by decide⟩
    obtain rfl | rfl := hvars f hf v hv <;> decide
  obtain ⟨hstruct, hvariant⟩ := wellScoped_iff_varsApart uppercaseKeepsUnderscore_wordNaming
    emptyContext "Pair" [⟨"First", .var "a" []⟩, ⟨"Second", .list [.var "b" []]⟩] params
  exact ⟨⟨_, rfl, (hstruct _ rfl).2 happart⟩, ⟨_, rfl, (hvariant _ rfl).2 happart⟩⟩

/-- `data Cell a_b = Cell with content : a_b` declares `A` and uses `A_B`. -/
theorem not_wellScoped_cell :
    ¬ ∀ (N : Naming) (ctx : RenderContext) (name : String) (fields : List (DamlField DamlType))
      (params : List DamlTypeVarWithKind), UppercaseKeepsUnderscore N →
      (∀ f ∈ fields, ∀ v, RendersVar f.ty v → ∃ p ∈ params, p.var = v) →
      ∀ s, quoteStruct N name (supportedFields ctx fields) params = .ok s →
        WellScoped params s.boundedParams s.usedVars := by
  intro hall
  have hscope : ∀ f ∈ [(⟨"content", .var "a_b" []⟩ : DamlField DamlType)], ∀ v,
      RendersVar f.ty v → ∃ p ∈ [(⟨"a_b", .star⟩ : DamlTypeVarWithKind)], p.var = v := by
    intro f hf v hv
    cases List.mem_singleton.1 hf
    exact ⟨_, List.mem_singleton_self _, (rendersVar_var_iff.1 hv).symm⟩
  have h := hall wordNaming emptyContext "Cell" [⟨"content", .var "a_b" []⟩] [⟨"a_b", .star⟩]
    uppercaseKeepsUnderscore_wordNaming hscope _ rfl
  have heq := List.mem_singleton.1 (h.used "A_B" (List.mem_singleton_self _))
  exact absurd heq (by decide)

end DamlBindings.Codegen
