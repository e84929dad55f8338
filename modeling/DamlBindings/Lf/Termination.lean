import DamlBindings.Lib.Traversal
import DamlBindings.Lf.Parts

/-!
# Termination of the conversion

The conversions of kinds, types and expressions follow the references into the interning tables
without any bound.  They stop, with a result or an error, if and only if no entry that they get
to is reached again from itself.
-/

namespace DamlBindings.Lf

open Proto Traversal

/-- A kind, a type or an expression. -/
inductive ProtoNode where
  | kind (k : Kind)
  | type (t : Ty)
  | expr (e : Expr)

/-- The size of the message. -/
noncomputable def ProtoNode.size : ProtoNode → Nat
  | .kind k => sizeOf k
  | .type t => sizeOf t
  | .expr e => sizeOf e

/-- The parts of the message. -/
def ProtoNode.parts : ProtoNode → List Proto.Part
  | .kind k => k.parts
  | .type t => t.parts
  | .expr e => e.parts

namespace DamlPackageTables

variable (P : DamlPackageTables)

/-- An entry of one of the three interning tables that the conversions recurse through. -/
abbrev InternedRef :=
  Fin P.internedKinds.length ⊕ Fin P.internedTypes.length ⊕ Fin P.internedExprs.length

/-- The message at a reference. -/
def internedEntry : P.InternedRef → ProtoNode
  | .inl i => .kind P.internedKinds[i]
  | .inr (.inl i) => .type P.internedTypes[i]
  | .inr (.inr i) => .expr P.internedExprs[i]

/-- A reference into a table with `n` entries: in range, or a failed test. -/
def internedPart {n : Nat} (inj : Fin n → P.InternedRef) (index : Int) :
    Traversal.Part ProtoNode P.InternedRef :=
  if h : 0 ≤ index ∧ index.toNat < n then .ref (inj ⟨index.toNat, h.2⟩) else .check false

/-- A part of a message as a step of the descent: a test, a message inside, or a reference. -/
def step : Proto.Part → Traversal.Part ProtoNode P.InternedRef
  | .missing => .check false
  | .check ok => .check ok
  | .string i => .check (P.resolveString i).isOk
  | .tycon id => .check (P.convertTyconId id).isOk
  | .tysyn id => .check (P.convertTysynId id).isOk
  | .value id => .check (P.convertValueId id).isOk
  | .kind k => .sub (.kind k)
  | .type t => .sub (.type t)
  | .expr e => .sub (.expr e)
  | .internedKind i => P.internedPart .inl i
  | .internedType i => P.internedPart (.inr ∘ .inl) i
  | .internedExpr i => P.internedPart (.inr ∘ .inr) i

end DamlPackageTables

/-! ### A message is larger than the messages inside it -/

section Size

/-- The size of the message in a part, if there is one. -/
noncomputable def Proto.Part.size : Proto.Part → Nat
  | .kind k => sizeOf k
  | .type t => sizeOf t
  | .expr e => sizeOf e
  | _ => 0

/-- All parts are smaller than `n`. -/
def Smaller (ps : List Proto.Part) (n : Nat) : Prop := ∀ p ∈ ps, p.size < n

variable {α : Type} [SizeOf α] {part : α → Proto.Part} {parts : α → List Proto.Part} {n : Nat}
  {ps qs : List Proto.Part}

@[simp] lemma smaller_nil : Smaller [] n := List.forall_mem_nil _

@[simp] lemma smaller_cons {p : Proto.Part} :
    Smaller (p :: ps) n ↔ p.size < n ∧ Smaller ps n := List.forall_mem_cons

@[simp] lemma smaller_append : Smaller (ps ++ qs) n ↔ Smaller ps n ∧ Smaller qs n :=
  List.forall_mem_append

lemma size_field (hpart : ∀ a, (part a).size ≤ sizeOf a) {o : Option α} (h : sizeOf o ≤ n) :
    (field part o).size < n := by
  rcases o with _ | a
  · have hnone : sizeOf (none : Option α) = 1 := rfl
    have hsize : (field part (none : Option α)).size = 0 := rfl
    omega
  · have hsome : sizeOf (some a) = 1 + sizeOf a := rfl
    have ha := hpart a
    show (part a).size < n
    omega

lemma smaller_fieldParts (hparts : ∀ a, Smaller (parts a) (sizeOf a)) {o : Option α}
    (h : sizeOf o ≤ n) : Smaller (fieldParts parts o) n := by
  rcases o with _ | a
  · have hnone : sizeOf (none : Option α) = 1 := rfl
    have hsize : Proto.Part.missing.size = 0 := rfl
    simp only [fieldParts_none, smaller_cons, smaller_nil, and_true]
    omega
  · have hsome : sizeOf (some a) = 1 + sizeOf a := rfl
    intro p hp
    have ha := hparts a p hp
    omega

lemma smaller_map (hpart : ∀ a, (part a).size ≤ sizeOf a) {as : List α} (h : sizeOf as ≤ n) :
    Smaller (as.map part) n := by
  refine List.forall_mem_map.2 fun a ha => ?_
  have hsize := List.sizeOf_lt_of_mem ha
  have ha := hpart a
  omega

lemma smaller_flatMap (hparts : ∀ a, Smaller (parts a) (sizeOf a)) {as : List α}
    (h : sizeOf as ≤ n) : Smaller (as.flatMap parts) n := by
  intro p hp
  obtain ⟨a, ha, hp⟩ := List.mem_flatMap.1 hp
  have hsize := List.sizeOf_lt_of_mem ha
  have hp := hparts a p hp
  omega

section Fields

variable {ok : Bool} {i : Int} {tycon : Option TypeConId} {tysyn : Option TypeSynId} {id : ValueId}
  {kind : Option Kind} {type : Option Ty} {expr : Option Expr}

@[simp] lemma size_missing : Proto.Part.missing.size = 0 := rfl

@[simp] lemma size_check : (Proto.Part.check ok).size = 0 := rfl

@[simp] lemma size_string : (Proto.Part.string i).size = 0 := rfl

@[simp] lemma size_value : (Proto.Part.value id).size = 0 := rfl

@[simp] lemma size_internedKind : (Proto.Part.internedKind i).size = 0 := rfl

@[simp] lemma size_internedType : (Proto.Part.internedType i).size = 0 := rfl

@[simp] lemma size_internedExpr : (Proto.Part.internedExpr i).size = 0 := rfl

lemma size_tycon (h : sizeOf tycon ≤ n) : (field .tycon tycon).size < n :=
  size_field (fun _ => Nat.zero_le _) h

lemma size_tysyn (h : sizeOf tysyn ≤ n) : (field .tysyn tysyn).size < n :=
  size_field (fun _ => Nat.zero_le _) h

lemma size_kind (h : sizeOf kind ≤ n) : (field .kind kind).size < n :=
  size_field (fun _ => le_rfl) h

lemma size_type (h : sizeOf type ≤ n) : (field .type type).size < n :=
  size_field (fun _ => le_rfl) h

lemma size_expr (h : sizeOf expr ≤ n) : (field .expr expr).size < n :=
  size_field (fun _ => le_rfl) h

lemma smaller_kinds {ks : List Kind} (h : sizeOf ks ≤ n) : Smaller (ks.map .kind) n :=
  smaller_map (fun _ => le_rfl) h

lemma smaller_types {ts : List Ty} (h : sizeOf ts ≤ n) : Smaller (ts.map .type) n :=
  smaller_map (fun _ => le_rfl) h

lemma smaller_exprs {es : List Expr} (h : sizeOf es ≤ n) : Smaller (es.map .expr) n :=
  smaller_map (fun _ => le_rfl) h

end Fields

lemma smaller_kind (k : Kind) : Smaller k.parts (sizeOf k) := by
  cases k <;> simp (disch := omega) [Kind.parts, smaller_kinds, size_kind]

lemma smaller_typevar (v : TypeVarWithKind) : Smaller v.parts (sizeOf v) := by
  cases v
  simp (disch := omega) [TypeVarWithKind.parts, size_kind]

lemma smaller_typevars {vs : List TypeVarWithKind} (h : sizeOf vs ≤ n) :
    Smaller (vs.flatMap TypeVarWithKind.parts) n := smaller_flatMap smaller_typevar h

lemma smaller_fields {fs : List (FieldWithType Ty)} (h : sizeOf fs ≤ n) :
    Smaller (fs.flatMap FieldWithType.parts) n := by
  refine smaller_flatMap (fun f => ?_) h
  cases f
  simp (disch := omega) [FieldWithType.parts, size_type]

lemma smaller_type (t : Ty) : Smaller t.parts (sizeOf t) := by
  cases t <;>
    simp (disch := omega) [Ty.parts, smaller_types, smaller_typevars, smaller_fields, size_tycon,
      size_tysyn, size_type]

lemma smaller_typeCon {c : Option TypeCon} (h : sizeOf c ≤ n) :
    Smaller (fieldParts TypeCon.parts c) n := by
  refine smaller_fieldParts (fun c => ?_) h
  cases c
  simp (disch := omega) [TypeCon.parts, smaller_types, size_tycon]

lemma smaller_varWithType (v : VarWithType) : Smaller v.parts (sizeOf v) := by
  cases v
  simp (disch := omega) [VarWithType.parts, size_type]

lemma smaller_varsWithType {vs : List VarWithType} (h : sizeOf vs ≤ n) :
    Smaller (vs.flatMap VarWithType.parts) n := smaller_flatMap smaller_varWithType h

lemma smaller_lit (l : BuiltinLit) : Smaller l.parts (sizeOf l) := by
  cases l <;> simp [BuiltinLit.parts]

lemma smaller_caseAlts {as : List (CaseAlt Expr)} (h : sizeOf as ≤ n) :
    Smaller (as.flatMap CaseAlt.parts) n := by
  refine smaller_flatMap (fun a => ?_) h
  rcases a with ⟨sum, body⟩
  cases sum <;> simp (disch := omega) [CaseAlt.parts, CaseAltSum.parts, size_expr, size_tycon]

lemma smaller_fieldExprs {fs : List (FieldWithExpr Expr)} (h : sizeOf fs ≤ n) :
    Smaller (fs.flatMap FieldWithExpr.parts) n := by
  refine smaller_flatMap (fun f => ?_) h
  cases f
  simp (disch := omega) [FieldWithExpr.parts, size_expr]

lemma smaller_bindings {bs : List (Binding Expr)} (h : sizeOf bs ≤ n) :
    Smaller (bs.flatMap Binding.parts) n := by
  refine smaller_flatMap (fun b => ?_) h
  rcases b with ⟨binder, bound⟩
  have hbinder : Smaller (fieldParts VarWithType.parts binder) (sizeOf binder) :=
    smaller_fieldParts smaller_varWithType le_rfl
  have hmono : Smaller (fieldParts VarWithType.parts binder)
      (1 + sizeOf binder + sizeOf bound) := fun p hp => by
    have := hbinder p hp
    omega
  simp (disch := omega) [Binding.parts, size_expr, hmono]

lemma smaller_block (b : Block Expr) : Smaller b.parts (sizeOf b) := by
  cases b
  simp (disch := omega) [Block.parts, smaller_bindings, size_expr]

lemma smaller_update (u : Update Expr) : Smaller u.parts (sizeOf u) := by
  cases u with
  | block b =>
    intro p hp
    have hb := smaller_block b p hp
    have hsize : sizeOf (Update.block b) = 1 + sizeOf b := rfl
    omega
  | exerciseInterface interface choice cid arg guard =>
    have hguard : ∀ {k : Nat}, sizeOf guard ≤ k → Smaller (guard.toList.map .expr) k := by
      intro k hk
      rcases guard with _ | e
      · simp
      · have hsome : sizeOf (some e) = 1 + sizeOf e := rfl
        simp only [Option.toList_some, List.map_cons, List.map_nil, smaller_cons, smaller_nil,
          and_true]
        show sizeOf e < k
        omega
    simp (disch := omega) [Update.parts, size_tycon, size_expr, hguard]
  | ledgerTimeLt e => simp [Update.parts, Proto.Part.size]
  | _ => simp (disch := omega) [Update.parts, size_tycon, size_type, size_expr]

lemma smaller_expr (e : Expr) : Smaller e.parts (sizeOf e) := by
  have hmono : ∀ {ps : List Proto.Part} {n k : Nat}, Smaller ps n → n ≤ k → Smaller ps k :=
    fun h hk p hp => (h p hp).trans_le hk
  cases e with
  | builtinLit lit => exact hmono (smaller_lit lit) (by simp)
  | letIn b => exact hmono (smaller_block b) (by simp)
  | update u => exact hmono (smaller_update u) (by simp)
  | typeRep ty => simp [Expr.parts, Proto.Part.size]
  | _ =>
    simp (disch := omega) [Expr.parts, size_tycon, size_type, size_expr, smaller_typeCon,
      smaller_fieldExprs, smaller_exprs, smaller_types, smaller_typevars, smaller_varsWithType,
      smaller_caseAlts]

lemma ProtoNode.smaller (n : ProtoNode) : Smaller n.parts n.size := by
  rcases n with k | t | e
  · exact smaller_kind k
  · exact smaller_type t
  · exact smaller_expr e

end Size

/-! ### The conversions are descents -/

namespace DamlPackageTables

variable {P : DamlPackageTables}

/-- A reference is no message inside. -/
lemma internedPart_ne_sub {k : Nat} (inj : Fin k → P.InternedRef) (i : Int) (n : ProtoNode) :
    P.internedPart inj i ≠ .sub n := by
  intro h
  unfold internedPart at h
  split_ifs at h

lemma step_eq_sub {p : Proto.Part} {n : ProtoNode} (h : P.step p = .sub n) : p.size = n.size := by
  cases p with
  | kind k => cases h; rfl
  | type t => cases h; rfl
  | expr e => cases h; rfl
  | internedKind i => exact absurd h (internedPart_ne_sub _ i n)
  | internedType i => exact absurd h (internedPart_ne_sub _ i n)
  | internedExpr i => exact absurd h (internedPart_ne_sub _ i n)
  | _ => cases h

variable (P) in
/-- The descent of the conversions through messages and interning tables. -/
noncomputable def grammar : Grammar ProtoNode P.InternedRef where
  parts n := n.parts.map P.step
  entry := P.internedEntry
  size := ProtoNode.size
  size_lt := by
    intro n m h
    obtain ⟨p, hp, hstep⟩ := List.mem_map.1 h
    exact step_eq_sub hstep ▸ n.smaller p hp

variable (P) in
/-- How the conversion of a message ends. -/
def convertOutcome (fuel : Nat) : ProtoNode → Outcome
  | .kind k => (P.convertKind fuel k).outcome
  | .type t => (P.convertType fuel t).outcome
  | .expr e => (P.convertExpr fuel e).outcome

variable (P) in
/-- How the conversion of a part ends, on the fuel left. -/
noncomputable def partOutcome (fuel : Nat) (p : Proto.Part) : Outcome :=
  P.grammar.runPart (P.convertOutcome fuel) (P.step p)

section Outcomes

open Outcome

variable (fuel : Nat)

lemma all_flatMap {α : Type} (f : Proto.Part → Outcome) (parts : α → List Proto.Part)
    (as : List α) :
    all ((as.flatMap parts).map f) = all (as.map fun a => all ((parts a).map f)) := by
  induction as with
  | nil => rfl
  | cons a as ih => simp [ih]

@[simp] lemma partOutcome_missing : P.partOutcome fuel .missing = .fail := rfl

@[simp] lemma partOutcome_check (b : Bool) : P.partOutcome fuel (.check b) = ofBool b := rfl

@[simp] lemma partOutcome_string (i : Int) :
    P.partOutcome fuel (.string i) = (P.string i).outcome := (Run.outcome_lift _).symm

@[simp] lemma partOutcome_value (id : ValueId) :
    P.partOutcome fuel (.value id) = ofBool (P.convertValueId id).isOk := rfl

@[simp] lemma partOutcome_kind (k : Kind) :
    P.partOutcome fuel (.kind k) = (P.convertKind fuel k).outcome := rfl

@[simp] lemma partOutcome_type (t : Ty) :
    P.partOutcome fuel (.type t) = (P.convertType fuel t).outcome := rfl

@[simp] lemma partOutcome_expr (e : Expr) :
    P.partOutcome fuel (.expr e) = (P.convertExpr fuel e).outcome := rfl

@[simp] lemma partOutcome_field_tycon (o : Option TypeConId) :
    P.partOutcome fuel (field .tycon o) = (P.tycon o).outcome := by
  cases o <;> simp [tycon] <;> rfl

@[simp] lemma partOutcome_field_tysyn (o : Option TypeSynId) :
    P.partOutcome fuel (field .tysyn o) = (P.tysyn o).outcome := by
  cases o <;> simp [tysyn] <;> rfl

@[simp] lemma partOutcome_field_kind (o : Option Kind) :
    P.partOutcome fuel (field .kind o) = (required o (P.convertKind fuel)).outcome := by
  cases o <;> rfl

@[simp] lemma partOutcome_field_type (o : Option Ty) :
    P.partOutcome fuel (field .type o) = (P.type fuel o).outcome := by
  cases o <;> rfl

@[simp] lemma partOutcome_field_expr (o : Option Expr) :
    P.partOutcome fuel (field .expr o) = (required o (P.convertExpr fuel)).outcome := by
  cases o <;> rfl

lemma outcome_required {α β : Type} {o : Option α} {f : α → ConvertRun β}
    {parts : α → List Proto.Part}
    (h : ∀ a, (f a).outcome = all ((parts a).map (P.partOutcome fuel))) :
    (required o f).outcome = all ((fieldParts parts o).map (P.partOutcome fuel)) := by
  cases o with
  | none => rfl
  | some a => exact h a

lemma outcome_flatMap {α β : Type} {as : List α} {f : α → ConvertRun β}
    {parts : α → List Proto.Part}
    (h : ∀ a, (f a).outcome = all ((parts a).map (P.partOutcome fuel))) :
    all ((as.flatMap parts).map (P.partOutcome fuel)) = all (as.map fun a => (f a).outcome) := by
  rw [all_flatMap]
  simp only [h]

/-- A reference into an interning table: out of range, or the entry converted in its place. -/
lemma outcome_interned {α β : Type} {what : String} {table : List α} {i : Int}
    {inj : Fin table.length → P.InternedRef} {f : α → ConvertRun β}
    (h : ∀ j, (f table[j]).outcome = P.convertOutcome fuel (P.internedEntry (inj j))) :
    (Run.lift (tableGet what table i) >>= f).outcome =
      P.grammar.runPart (P.convertOutcome fuel) (P.internedPart inj i) := by
  unfold tableGet internedPart
  by_cases hneg : i < 0
  · rw [if_pos hneg, dif_neg (by omega)]
    rfl
  rw [if_neg hneg]
  by_cases hlen : i.toNat < table.length
  · rw [dif_pos ⟨by omega, hlen⟩, List.getElem?_eq_getElem hlen]
    exact h ⟨i.toNat, hlen⟩
  · rw [dif_neg (fun hi => hlen hi.2), List.getElem?_eq_none (by omega)]
    rfl

@[simp] lemma partOutcome_comp_kind :
    P.partOutcome fuel ∘ .kind = fun k => (P.convertKind fuel k).outcome := rfl

@[simp] lemma partOutcome_comp_type :
    P.partOutcome fuel ∘ .type = fun t => (P.convertType fuel t).outcome := rfl

@[simp] lemma partOutcome_comp_expr :
    P.partOutcome fuel ∘ .expr = fun e => (P.convertExpr fuel e).outcome := rfl

lemma outcome_convertKind (k : Kind) : (P.convertKind (fuel + 1) k).outcome =
    all (k.parts.map (P.partOutcome fuel)) := by
  cases k with
  | internedKind i =>
    simp only [convertKind, Kind.parts, List.map_cons, List.map_nil, all_cons, all_nil,
      andThen_pass]
    exact outcome_interned fuel fun j => rfl
  | arrow params result => simp [convertKind, Kind.parts]
  | star => rfl
  | nat => rfl
  | unset => rfl

lemma outcome_convertTypevarWithKind (v : TypeVarWithKind) :
    (P.convertTypevarWithKind fuel v).outcome = all (v.parts.map (P.partOutcome fuel)) := by
  simp [convertTypevarWithKind, TypeVarWithKind.parts]

@[simp] lemma outcome_typevars (vs : List TypeVarWithKind) :
    all ((vs.flatMap TypeVarWithKind.parts).map (P.partOutcome fuel)) =
      all (vs.map fun v => (P.convertTypevarWithKind fuel v).outcome) :=
  outcome_flatMap fuel (outcome_convertTypevarWithKind fuel)

@[simp] lemma outcome_fields (fs : List (FieldWithType Ty)) :
    all ((fs.flatMap FieldWithType.parts).map (P.partOutcome fuel)) =
      all (fs.map fun f => (P.convertFieldWith (P.convertType fuel) f).outcome) :=
  outcome_flatMap fuel fun f => by simp [convertFieldWith, FieldWithType.parts, type]

/-- Only the number of the arguments of a builtin decides whether it can be built. -/
lemma isOk_builtinType {b : Int} {args : List Ty} {kind : BuiltinType} {ds : List DamlType}
    (hkind : BuiltinType.tryFrom b = some kind) (hlen : ds.length = args.length) :
    (builtinType kind ds).isOk = argumentsOk b args := by
  unfold argumentsOk
  rw [hkind, ← hlen]
  by_cases h : kind = .contractId
  · subst h
    by_cases hlt : ds.length > 1
    · simp [builtinType, hlt, Except.isOk, Except.toBool]
    · simp [builtinType, hlt, Except.isOk, Except.toBool, Nat.not_lt.1 hlt]
  · cases kind <;> first | exact absurd rfl h | rfl

lemma outcome_builtin (b : Int) (args : List Ty) :
    (P.convertType (fuel + 1) (.builtin b args)).outcome =
      all ((Ty.builtin b args).parts.map (P.partOutcome fuel)) := by
  rcases hkind : BuiltinType.tryFrom b with _ | kind
  · simp [convertType, Ty.parts, hkind, req, andThen]
    rfl
  have hargs := Run.outcome_mapM (P.convertType fuel) args
  have hrun : (P.convertType (fuel + 1) (.builtin b args)).outcome =
      (args.mapM (P.convertType fuel) >>= fun ds => Run.lift (builtinType kind ds)).outcome := by
    simp [convertType, hkind, req]
    rfl
  rw [hrun]
  rcases hds : args.mapM (P.convertType fuel) with s | ds
  · rw [hds] at hargs
    have hstop : Run.outcome (.error s : ConvertRun (List DamlType)) ≠ .pass := by
      intro h
      rcases s with _ | _ <;> cases h
    simp only [Ty.parts, hkind, Option.isSome_some, List.map_append, List.map_cons, List.map_map,
      List.map_nil, all_append, all_cons, all_nil, partOutcome_check, ofBool_true, pass_andThen,
      partOutcome_comp_type, ← hargs]
    rcases s with _ | _ <;> rfl
  · rw [hds] at hargs
    have hlen : ds.length = args.length := (Except.mapM_eq_ok.1 hds).length_eq.symm
    simp only [Ty.parts, hkind, Option.isSome_some, List.map_append, List.map_cons, List.map_map,
      List.map_nil, all_append, all_cons, all_nil, partOutcome_check, ofBool_true, pass_andThen,
      partOutcome_comp_type, ← hargs, Run.outcome_ok, andThen_pass,
      ← isOk_builtinType hkind hlen]
    exact Run.outcome_lift _

lemma outcome_convertType (t : Ty) : (P.convertType (fuel + 1) t).outcome =
    all (t.parts.map (P.partOutcome fuel)) := by
  cases t with
  | builtin b args => exact outcome_builtin fuel b args
  | forAll vars body => simp [convertType, Ty.parts, convertTypeParams, type]
  | nat n =>
    simp only [convertType, Ty.parts, Run.outcome_lift, List.map_cons, List.map_nil, all_cons,
      all_nil, andThen_pass, partOutcome_check, convertNat]
    split_ifs with h <;> simp [h, Except.isOk, Except.toBool]
  | internedType i =>
    simp only [convertType, Ty.parts, List.map_cons, List.map_nil, all_cons, all_nil,
      andThen_pass]
    exact outcome_interned fuel fun j => rfl
  | _ => simp [convertType, Ty.parts]

/-! ### Expressions -/

lemma outcome_convertTypeCon (c : TypeCon) :
    (P.convertTypeCon fuel c).outcome = all (c.parts.map (P.partOutcome fuel)) := by
  simp [convertTypeCon, TypeCon.parts]

@[simp] lemma outcome_typeCon (c : Option TypeCon) :
    all ((fieldParts TypeCon.parts c).map (P.partOutcome fuel)) = (P.typeCon fuel c).outcome :=
  (outcome_required fuel (outcome_convertTypeCon fuel)).symm

lemma outcome_convertVarWithType (v : VarWithType) :
    (P.convertVarWithType fuel v).outcome = all (v.parts.map (P.partOutcome fuel)) := by
  simp [convertVarWithType, VarWithType.parts]

@[simp] lemma outcome_varsWithType (vs : List VarWithType) :
    all ((vs.flatMap VarWithType.parts).map (P.partOutcome fuel)) =
      all (vs.map fun v => (P.convertVarWithType fuel v).outcome) :=
  outcome_flatMap fuel (outcome_convertVarWithType fuel)

lemma outcome_convertCaseAltSum (s : CaseAltSum) :
    (P.convertCaseAltSum s).outcome = all (s.parts.map (P.partOutcome fuel)) := by
  cases s with
  | default => rfl
  | nil => rfl
  | optionalNone => rfl
  | unset => rfl
  | _ => simp [convertCaseAltSum, CaseAltSum.parts, andThen_assoc]

@[simp] lemma outcome_caseAlts (as : List (CaseAlt Expr)) :
    all ((as.flatMap CaseAlt.parts).map (P.partOutcome fuel)) =
      all (as.map fun a => (P.convertCaseAlt (P.convertExpr fuel) a).outcome) :=
  outcome_flatMap fuel fun a => by
    simp [convertCaseAlt, CaseAlt.parts, outcome_convertCaseAltSum fuel]

@[simp] lemma outcome_fieldExprs (fs : List (FieldWithExpr Expr)) :
    all ((fs.flatMap FieldWithExpr.parts).map (P.partOutcome fuel)) =
      all (fs.map fun f => (P.convertFieldExpr (P.convertExpr fuel) f).outcome) :=
  outcome_flatMap fuel fun f => by simp [convertFieldExpr, FieldWithExpr.parts]

@[simp] lemma outcome_bindings (bs : List (Binding Expr)) :
    all ((bs.flatMap Binding.parts).map (P.partOutcome fuel)) =
      all (bs.map fun b => (P.convertBinding fuel (P.convertExpr fuel) b).outcome) :=
  outcome_flatMap fuel fun b => by
    simp [convertBinding, Binding.parts,
      outcome_required fuel (outcome_convertVarWithType fuel)]

lemma outcome_convertBlock (b : Block Expr) :
    (P.convertBlock fuel (P.convertExpr fuel) b).outcome =
      all (b.parts.map (P.partOutcome fuel)) := by
  simp [convertBlock, Block.parts]

lemma outcome_convertUpdate (u : Update Expr) :
    (P.convertUpdate fuel (P.convertExpr fuel) u).outcome =
      all (u.parts.map (P.partOutcome fuel)) := by
  cases u with
  | block b => simp [convertUpdate, Update.parts, outcome_convertBlock]
  | exerciseInterface interface choice cid arg guard =>
    cases guard <;> simp [convertUpdate, Update.parts, convertGuard, andThen_assoc]
  | getTime => rfl
  | unset => rfl
  | _ => simp [convertUpdate, Update.parts, andThen_assoc]

lemma outcome_convertBuiltinLit (l : BuiltinLit) :
    Run.outcome (.lift (P.convertBuiltinLit l)) = all (l.parts.map (P.partOutcome fuel)) := by
  cases l with
  | roundingMode code =>
    rcases h : RoundingMode.codes.lookup code with _ | mode <;>
      simp [convertBuiltinLit, BuiltinLit.parts, h]
  | failureCategory code =>
    rcases h : FailureCategory.codes.lookup code with _ | cat <;>
      simp [convertBuiltinLit, BuiltinLit.parts, h]
  | numericInternedStr i =>
    have hstring : (P.convertBuiltinLit (.numericInternedStr i)).isOk =
        (P.resolveString i).isOk := by
      show (DamlPrimLit.numeric <$> P.resolveString i).isOk = _
      rcases P.resolveString i with _ | _ <;> rfl
    simp [BuiltinLit.parts, string, hstring]
  | textInternedStr i =>
    have hstring : (P.convertBuiltinLit (.textInternedStr i)).isOk = (P.resolveString i).isOk := by
      show (DamlPrimLit.text <$> P.resolveString i).isOk = _
      rcases P.resolveString i with _ | _ <;> rfl
    simp [BuiltinLit.parts, string, hstring]
  | _ => rfl

lemma outcome_convertExpr (e : Expr) : (P.convertExpr (fuel + 1) e).outcome =
    all (e.parts.map (P.partOutcome fuel)) := by
  cases e with
  | builtinLit lit => simp [convertExpr, Expr.parts, ← outcome_convertBuiltinLit]
  | letIn b => simp [convertExpr, Expr.parts, outcome_convertBlock]
  | update u => simp [convertExpr, Expr.parts, outcome_convertUpdate]
  | internedExpr i =>
    simp only [convertExpr, Expr.parts, List.map_cons, List.map_nil, all_cons, all_nil,
      andThen_pass]
    exact outcome_interned fuel fun j => rfl
  | experimental => rfl
  | unset => rfl
  | _ => simp [convertExpr, Expr.parts, andThen_assoc]

end Outcomes

/-- The conversions end as the descent does. -/
lemma convertOutcome_eq_run (fuel : Nat) (n : ProtoNode) :
    P.convertOutcome fuel n = P.grammar.run fuel n := by
  induction fuel generalizing n with
  | zero => rcases n with _ | _ | _ <;> rfl
  | succ fuel ih =>
    have hparts : P.convertOutcome (fuel + 1) n = .all (n.parts.map (P.partOutcome fuel)) := by
      rcases n with k | t | e
      · exact outcome_convertKind fuel k
      · exact outcome_convertType fuel t
      · exact outcome_convertExpr fuel e
    have hrun : P.convertOutcome fuel = P.grammar.run fuel := by
      ext n
      exact ih n
    have hstep : P.partOutcome fuel = P.grammar.runPart (P.grammar.run fuel) ∘ P.step := by
      ext p
      show P.grammar.runPart (P.convertOutcome fuel) (P.step p) = _
      rw [hrun]
      rfl
    rw [hparts, Grammar.run_succ, hstep, ← List.map_map]
    rfl

lemma exists_convertOutcome_iff (n : ProtoNode) :
    (∃ fuel, P.convertOutcome fuel n ≠ .outOfFuel) ↔ ¬ P.grammar.ReachesCycle n := by
  simp only [convertOutcome_eq_run]
  exact Grammar.halts_iff

variable (P) in
/-- The conversion of a kind, a type or an expression stops, with a result or an error, exactly
when no entry of the interning tables that it gets to is reached again from itself. -/
theorem convert_terminates_iff :
    (∀ k, Run.Terminates (P.convertKind · k) ↔ ¬ P.grammar.ReachesCycle (.kind k)) ∧
    (∀ t, Run.Terminates (P.convertType · t) ↔ ¬ P.grammar.ReachesCycle (.type t)) ∧
    (∀ e, Run.Terminates (P.convertExpr · e) ↔ ¬ P.grammar.ReachesCycle (.expr e)) := by
  have hstops {α : Type} (f : Nat → ConvertRun α) :
      Run.Terminates f ↔ ∃ fuel, (f fuel).outcome ≠ .outOfFuel :=
    exists_congr fun fuel => not_congr Run.outcome_eq_outOfFuel.symm
  refine ⟨fun k => ?_, fun t => ?_, fun e => ?_⟩
  · exact (hstops _).trans (exists_convertOutcome_iff (.kind k))
  · exact (hstops _).trans (exists_convertOutcome_iff (.type t))
  · exact (hstops _).trans (exists_convertOutcome_iff (.expr e))

/-- A package whose only interned type refers to itself. -/
def selfReferringTables : DamlPackageTables where
  name := "cyclic"
  languageVersion := .lv2 .v1
  packageId := "pkg"
  internedStrings := []
  internedDottedNames := []
  internedTypes := [.internedType 0]
  internedKinds := []
  internedExprs := []
  pkgNames := [("pkg", "cyclic")]

/-- The conversion of an interned type that refers to itself never stops. -/
theorem convertType_selfReferring :
    ¬ Run.Terminates (selfReferringTables.convertType · (.internedType 0)) := by
  rintro ⟨fuel, hfuel⟩
  have hloop : ∀ fuel,
      selfReferringTables.convertType fuel (.internedType 0) = .error .outOfFuel := by
    intro fuel
    induction fuel with
    | zero => rfl
    | succ fuel ih => exact ih
  exact hfuel (hloop fuel)

end DamlPackageTables

end DamlBindings.Lf
