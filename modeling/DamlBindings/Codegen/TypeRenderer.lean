import DamlBindings.Codegen.RendererUtils
import DamlBindings.Lf.TypeReferences
import DamlBindings.Lf.Validate

/-!
# Types in the generated code

`renderer/type_renderer.rs` quotes a Daml type as a Rust type, for the types that
`renderer/renderable.rs` admits.  The tokens of a type stand here for the path and the type
arguments that they spell.
-/

namespace DamlBindings.Lf

/-- `DamlType::name` -/
def DamlType.name : DamlType → String
  | .contractId _ => "DamlContractId"
  | .int64 => "DamlInt64"
  | .numeric _ => "DamlFixedNumeric"
  | .text => "DamlText"
  | .timestamp => "DamlTimestamp"
  | .party => "DamlParty"
  | .bool => "DamlBool"
  | .unit => "DamlUnit"
  | .date => "DamlDate"
  | .list _ => "DamlList"
  | .textMap _ => "DamlTextMap"
  | .genMap _ => "DamlGenMap"
  | .optional _ => "DamlOptional"
  | .update => "None (Update)"
  | .failureCategory => "None (FailureCategory)"
  | .tyCon _ _ => "None (TyCon)"
  | .boxedTyCon _ _ => "None (BoxedTyCon)"
  | .var _ _ => "None (Var)"
  | .arrow => "None (Arrow)"
  | .any => "None (Any)"
  | .typeRep => "None (TypeRep)"
  | .roundingMode => "None (RoundingMode)"
  | .anyException => "None (AnyException)"
  | .bignumeric => "None (Bignumeric)"
  | .nat _ => "Nat"
  | .forAll _ _ => "Forall"
  | .struct _ => "Struct"
  | .syn _ _ => "Syn"

/-- `DamlData::type_params` -/
def DamlData.typeParams : DamlData → List DamlTypeVarWithKind
  | .template _ => []
  | .record d => d.typeParams
  | .variant d => d.typeParams
  | .enum d => d.typeParams

/-- `DamlData::serializable` -/
def DamlData.serializable : DamlData → Bool
  | .template d => d.serializable
  | .record d => d.serializable
  | .variant d => d.serializable
  | .enum d => d.serializable

/-- The kind is `DamlKind::Arrow`. -/
def DamlKind.isArrow : DamlKind → Bool
  | .arrow _ _ => true
  | _ => false

end DamlBindings.Lf

namespace DamlBindings.Codegen

open Lf Worklist

/-- `RenderFilterMode` -/
inductive RenderFilterMode
  | higherKindedType
  | nonSerializable
deriving DecidableEq

/-- `RenderContext`, of an archive. -/
structure RenderContext where
  archive : DamlArchive
  filterMode : RenderFilterMode

/-! ### The filter -/

section Filter

variable (ctx : RenderContext)

/-- `check_target_data` -/
def checkTargetData (tycon : DamlTyConName) : Bool :=
  match ctx.filterMode with
  | .higherKindedType =>
    (ctx.archive.dataByTyconName tycon).all fun data =>
      !data.typeParams.any fun typeVar => typeVar.kind.isArrow
  | .nonSerializable => (ctx.archive.dataByTyconName tycon).all DamlData.serializable

mutual

/-- `IsRenderable::check_type`, with `check_tycon` in its place. -/
def checkType : DamlType → Bool
  | .int64 | .text | .timestamp | .party | .bool | .unit | .date | .nat _ => true
  | .list args => checkTypes args
  | .textMap args => checkTypes args
  | .genMap args => checkTypes args
  | .optional args => checkTypes args
  | .numeric args => checkTypes args
  | .contractId inner => checkInner inner
  | .tyCon tycon args => checkTargetData ctx tycon && checkTypes args
  | .boxedTyCon tycon args => checkTargetData ctx tycon && checkTypes args
  | .var _ args => checkTypes args
  | .arrow | .update | .any | .typeRep | .bignumeric | .roundingMode | .anyException
  | .failureCategory => false
  | .forAll _ _ => false
  | .struct _ => false
  | .syn _ _ => false
termination_by structural t => t

def checkTypes : List DamlType → Bool
  | [] => true
  | t :: ts => checkType t && checkTypes ts
termination_by structural ts => ts

def checkInner : Option DamlType → Bool
  | none => true
  | some t => checkType t
termination_by structural o => o

end

lemma checkTypes_eq (ts : List DamlType) : checkTypes ctx ts = ts.all (checkType ctx) := by
  induction ts with
  | nil => rfl
  | cons t ts ih => exact congrArg (checkType ctx t && ·) ih

end Filter

/-! ### The renderer -/

/-- Where a path starts: at a name in scope, at `crate ::`, or at some `super ::`. -/
inductive PathStart
  | here
  | crate
  | supers (n : Nat)
deriving DecidableEq, Repr

/-- The path of a type or a trait. -/
structure RustPath where
  start : PathStart
  segments : List String
  ident : String
deriving DecidableEq, Repr

/-- A name in scope. -/
def RustPath.name (ident : String) : RustPath := ⟨.here, [], ident⟩

/-- The tokens of a type: a type variable, or a path with its type arguments. -/
inductive TypeTokens where
  | var (ident : String)
  | path (p : RustPath) (args : List TypeTokens)

section Quote

variable (N : Naming)

/-- `sanitize_var_name` -/
def sanitizeVarName (var : String) : String :=
  String.ofList (var.toList.map fun c => if c = ' ' then '_' else c)

/-- The segments of a path, in snake case. -/
def quotePathSegments (path : List String) : Render (List String) :=
  path.mapM fun s => quoteEscapedIdent N (N.toSnakeCase s)

/-- The path from the crate: a package without a name has no module of its own. -/
def cratePath (packageName : String) (modulePath : List String) : List String :=
  if packageName.isEmpty then modulePath else packageName :: modulePath

/-- How many segments two paths have in common, from the front. -/
def commonPrefixLength (path path' : List String) : Nat :=
  ((path.zip path').takeWhile fun p => p.1 == p.2).length

/-- `quote_tycon`, without the type arguments. -/
def quoteTyconName : DamlTyConName → Render RustPath
  | .localTyCon c => RustPath.name <$> quoteEscapedIdent N c.dataName
  | .nonLocal c => do
    let ident ← quoteEscapedIdent N c.dataName
    -- `quote_non_local_path`
    let currentFullPath := (c.sourcePackageName :: c.sourceModulePath).map N.toSnakeCase
    let targetFullPath := (c.targetPackageName :: c.targetModulePath).map N.toSnakeCase
    let common := commonPrefixLength currentFullPath targetFullPath
    let segments ← (targetFullPath.drop common).mapM (quoteEscapedIdent N)
    pure ⟨.supers (currentFullPath.length - common), segments, ident⟩
  | .absolute c => do
    let ident ← quoteEscapedIdent N c.dataName
    -- `quote_absolute_tycon`
    let segments ← quotePathSegments N (cratePath c.packageName c.modulePath)
    pure ⟨.crate, segments, ident⟩

/-- The name of a builtin type, with type arguments. -/
def quotePrim (name : String) (args : Render (List TypeTokens)) : Render TypeTokens := do
  let ident ← quoteEscapedIdent N name
  let args ← args
  pure (.path (.name ident) args)

/-- `quote_tycon` -/
def quoteTycon (tycon : DamlTyConName) (args : Render (List TypeTokens)) : Render TypeTokens := do
  let args ← args
  let path ← quoteTyconName N tycon
  pure (.path path args)

/-- The identifier of a type variable, where it is used. -/
def quoteTypeVar (var : String) : Render String :=
  quoteIdent N (N.toUppercase (sanitizeVarName var))

mutual

/-- `quote_type` -/
def quoteType : DamlType → Render TypeTokens
  | .list args => quotePrim N (DamlType.name (.list args)) (quoteFirst args)
  | .optional args => quotePrim N (DamlType.name (.optional args)) (quoteFirst args)
  | .numeric args => quotePrim N (DamlType.name (.numeric args)) (quoteFirst args)
  | .textMap args => quotePrim N (DamlType.name (.textMap args)) (quoteKeyValue args)
  | .genMap args => quotePrim N (DamlType.name (.genMap args)) (quoteKeyValue args)
  | .tyCon tycon args => quoteTycon N tycon (quoteTypes args)
  | .boxedTyCon tycon args =>
    (fun tokens => .path (.name "Box") [tokens]) <$> quoteTycon N tycon (quoteTypes args)
  | .var var _ => .var <$> quoteTypeVar N var
  | .nat n =>
    (fun ident => .path (.name ident) []) <$>
      quoteIdent N (DamlType.name (.nat n) ++ toString n)
  | .contractId inner => quotePrim N (DamlType.name (.contractId inner)) (.ok [])
  | .int64 => quotePrim N (DamlType.name .int64) (.ok [])
  | .text => quotePrim N (DamlType.name .text) (.ok [])
  | .timestamp => quotePrim N (DamlType.name .timestamp) (.ok [])
  | .party => quotePrim N (DamlType.name .party) (.ok [])
  | .bool => quotePrim N (DamlType.name .bool) (.ok [])
  | .unit => quotePrim N (DamlType.name .unit) (.ok [])
  | .date => quotePrim N (DamlType.name .date) (.ok [])
  | .update => .error (.unsupportedType (DamlType.name .update))
  | .arrow => .error (.unsupportedType (DamlType.name .arrow))
  | .any => .error (.unsupportedType (DamlType.name .any))
  | .typeRep => .error (.unsupportedType (DamlType.name .typeRep))
  | .bignumeric => .error (.unsupportedType (DamlType.name .bignumeric))
  | .roundingMode => .error (.unsupportedType (DamlType.name .roundingMode))
  | .anyException => .error (.unsupportedType (DamlType.name .anyException))
  | .failureCategory => .error (.unsupportedType (DamlType.name .failureCategory))
  | .forAll vars body => .error (.unsupportedType (DamlType.name (.forAll vars body)))
  | .struct fields => .error (.unsupportedType (DamlType.name (.struct fields)))
  | .syn tysyn args => .error (.unsupportedType (DamlType.name (.syn tysyn args)))
termination_by structural t => t

/-- The first argument, if there is one. -/
def quoteFirst : List DamlType → Render (List TypeTokens)
  | [] => .ok []
  | arg :: _ => (fun tokens => [tokens]) <$> quoteType arg
termination_by structural ts => ts

/-- The first two arguments, if there are two. -/
def quoteKeyValue : List DamlType → Render (List TypeTokens)
  | [] => .ok []
  | k :: rest => quoteValue (quoteType k) rest
termination_by structural ts => ts

/-- The argument after a key. -/
def quoteValue (key : Render TypeTokens) : List DamlType → Render (List TypeTokens)
  | [] => .ok []
  | v :: _ => do
    let key ← key
    let value ← quoteType v
    pure [key, value]
termination_by structural ts => ts

/-- `quote_generic_type_arguments` -/
def quoteTypes : List DamlType → Render (List TypeTokens)
  | [] => .ok []
  | t :: ts => do
    let tokens ← quoteType t
    let rest ← quoteTypes ts
    pure (tokens :: rest)
termination_by structural ts => ts

end

end Quote

/-! ### The arguments of a type -/

end DamlBindings.Codegen

namespace DamlBindings.Lf.DamlType

open Worklist

/-- The arguments that a type has in the generated code.  Those of a contract id and of a type
variable are erased. -/
def arguments : DamlType → List DamlType
  | .list args => args
  | .optional args => args
  | .numeric args => args
  | .textMap args => args
  | .genMap args => args
  | .tyCon _ args => args
  | .boxedTyCon _ args => args
  | _ => []

/-- The arguments that are rendered for a map: a key and a value, or none. -/
def keyValue (args : List DamlType) : List DamlType :=
  if 2 ≤ args.length then args.take 2 else []

/-- The arguments that `quote_type` renders. -/
def keptArguments : DamlType → List DamlType
  | .list args => args.take 1
  | .optional args => args.take 1
  | .numeric args => args.take 1
  | .textMap args => keyValue args
  | .genMap args => keyValue args
  | .tyCon _ args => args
  | .boxedTyCon _ args => args
  | _ => []

/-- The number of arguments is one that `quote_type` renders in full. -/
def ArityOk : DamlType → Prop
  | .list args => args.length ≤ 1
  | .optional args => args.length ≤ 1
  | .numeric args => args.length ≤ 1
  | .textMap args => args.length = 0 ∨ args.length = 2
  | .genMap args => args.length = 0 ∨ args.length = 2
  | _ => True

/-- `quote_type` has a Rust type for the type constructor. -/
def isSupported : DamlType → Bool
  | .arrow | .update | .any | .typeRep | .bignumeric | .roundingMode | .anyException
  | .failureCategory => false
  | .forAll _ _ => false
  | .struct _ => false
  | .syn _ _ => false
  | _ => true

lemma arguments_subset (t : DamlType) : t.arguments ⊆ t.components := by
  cases t <;> simp [arguments, components]

/-- Induction on a type, with the hypothesis for its arguments. -/
lemma arguments_induction {motive : DamlType → Prop}
    (h : ∀ t, (∀ a ∈ t.arguments, motive a) → motive t) (t : DamlType) : motive t := by
  induction t using shrinks_components.wellFounded.induction with
  | _ t ih => exact h t fun a ha => ih a (t.arguments_subset ha)

lemma keyValue_sublist (args : List DamlType) : (keyValue args).Sublist args := by
  unfold keyValue
  split_ifs
  · exact List.take_sublist 2 args
  · exact List.nil_sublist args

lemma keptArguments_sublist (t : DamlType) : t.keptArguments.Sublist t.arguments := by
  cases t with
  | list args => exact List.take_sublist 1 args
  | optional args => exact List.take_sublist 1 args
  | numeric args => exact List.take_sublist 1 args
  | textMap args => exact keyValue_sublist args
  | genMap args => exact keyValue_sublist args
  | _ => exact List.Sublist.refl _

/-- The calls of `quote_type` on the arguments come to an end. -/
lemma wellFounded_keptArguments :
    WellFounded fun a t : DamlType => a ∈ t.keptArguments :=
  Subrelation.wf (fun {_ t} ha => t.arguments_subset (t.keptArguments_sublist.subset ha))
    shrinks_components.wellFounded

/-- All arguments are rendered exactly if there are as many as the renderer looks for. -/
lemma length_keptArguments_iff {t : DamlType} :
    t.keptArguments.length = t.arguments.length ↔ t.ArityOk := by
  have hmap : ∀ args : List DamlType,
      (keyValue args).length = args.length ↔ args.length = 0 ∨ args.length = 2 := by
    intro args
    unfold keyValue
    split_ifs with h
    · rw [List.length_take]
      omega
    · rw [List.length_nil]
      omega
  have hfirst : ∀ args : List DamlType,
      (args.take 1).length = args.length ↔ args.length ≤ 1 := by
    intro args
    rw [List.length_take]
    omega
  cases t with
  | list args => exact hfirst args
  | optional args => exact hfirst args
  | numeric args => exact hfirst args
  | textMap args => exact hmap args
  | genMap args => exact hmap args
  | _ => exact iff_of_true rfl trivial

lemma keptArguments_eq_iff {t : DamlType} : t.keptArguments = t.arguments ↔ t.ArityOk := by
  rw [← length_keptArguments_iff]
  constructor
  · intro h
    rw [h]
  · exact t.keptArguments_sublist.eq_of_length

end DamlBindings.Lf.DamlType

namespace DamlBindings.Codegen

open Lf Worklist

section Head

variable (N : Naming)

/-- What the tokens of a type say besides its arguments. -/
inductive TypeHead
  | var (ident : String)
  | path (p : RustPath)
  | box (p : RustPath)

/-- The tokens of a type from those of its arguments. -/
def TypeHead.apply : TypeHead → List TypeTokens → TypeTokens
  | .var ident => fun _ => .var ident
  | .path p => .path p
  | .box p => fun args => .path (.name "Box") [.path p args]

/-- The Rust type that stands for a type constructor. -/
def quoteHead (t : DamlType) : Render TypeHead :=
  match t with
  | .tyCon tycon _ => .path <$> quoteTyconName N tycon
  | .boxedTyCon tycon _ => .box <$> quoteTyconName N tycon
  | .var var _ => .var <$> quoteTypeVar N var
  | .nat n => (fun ident => .path (.name ident)) <$> quoteIdent N (t.name ++ toString n)
  | .list _ | .optional _ | .numeric _ | .textMap _ | .genMap _ | .contractId _ | .int64 | .text
  | .timestamp | .party | .bool | .unit | .date =>
    (fun ident => .path (.name ident)) <$> quoteEscapedIdent N t.name
  | _ => .error (.unsupportedType t.name)

variable {N}

lemma quotePrim_eq_ok {name : String} {args : Render (List TypeTokens)} {tokens : TypeTokens} :
    quotePrim N name args = .ok tokens ↔
      ∃ ident, quoteEscapedIdent N name = .ok ident ∧ ∃ toks, args = .ok toks ∧
        .path (.name ident) toks = tokens := by
  simp [quotePrim]

lemma quoteTycon_eq_ok {tycon : DamlTyConName} {args : Render (List TypeTokens)}
    {tokens : TypeTokens} : quoteTycon N tycon args = .ok tokens ↔
      ∃ toks, args = .ok toks ∧ ∃ path, quoteTyconName N tycon = .ok path ∧
        .path path toks = tokens := by
  simp [quoteTycon]

lemma quoteFirst_eq (args : List DamlType) :
    quoteFirst N args = (args.take 1).mapM (quoteType N) := by
  cases args with
  | nil => rfl
  | cons t ts =>
    show (fun tokens => [tokens]) <$> quoteType N t = _
    rw [List.take_succ_cons, List.take_zero, List.mapM_cons]
    rcases quoteType N t with e | tokens <;> rfl

lemma quoteKeyValue_eq (args : List DamlType) :
    quoteKeyValue N args = (DamlType.keyValue args).mapM (quoteType N) := by
  rcases args with _ | ⟨k, _ | ⟨v, args⟩⟩
  · rfl
  · rfl
  · rw [DamlType.keyValue, if_pos (by simp)]
    show (do let key ← quoteType N k; let value ← quoteType N v; pure [key, value]) = _
    rw [List.take_succ_cons, List.take_succ_cons, List.take_zero, List.mapM_cons, List.mapM_cons]
    rcases quoteType N k with e | key
    · rfl
    rcases quoteType N v with e | value <;> rfl

lemma quoteTypes_eq (ts : List DamlType) : quoteTypes N ts = ts.mapM (quoteType N) := by
  induction ts with
  | nil => rfl
  | cons t ts ih =>
    rw [List.mapM_cons, ← ih]
    rfl

lemma quotePrim_eq_head {name : String} {kept : List DamlType} {tokens : TypeTokens} :
    quotePrim N name (kept.mapM (quoteType N)) = .ok tokens ↔
      ∃ head, (fun ident => TypeHead.path (.name ident)) <$> quoteEscapedIdent N name = .ok head ∧
        ∃ args, kept.mapM (quoteType N) = .ok args ∧ head.apply args = tokens := by
  rw [quotePrim_eq_ok]
  constructor
  · rintro ⟨ident, hident, args, hargs, rfl⟩
    exact ⟨.path (.name ident), Except.map_eq_ok.2 ⟨ident, hident, rfl⟩, args, hargs, rfl⟩
  · rintro ⟨head, hhead, args, hargs, rfl⟩
    obtain ⟨ident, hident, rfl⟩ := Except.map_eq_ok.1 hhead
    exact ⟨ident, hident, args, hargs, rfl⟩

lemma quotePrim_nil_eq_head {name : String} {tokens : TypeTokens} :
    quotePrim N name (.ok []) = .ok tokens ↔
      ∃ head, (fun ident => TypeHead.path (.name ident)) <$> quoteEscapedIdent N name = .ok head ∧
        ∃ args, ([] : List DamlType).mapM (quoteType N) = .ok args ∧ head.apply args = tokens :=
  @quotePrim_eq_head N name [] tokens

lemma quoteTycon_eq_head {tycon : DamlTyConName} {args : List DamlType} {tokens : TypeTokens} :
    quoteTycon N tycon (args.mapM (quoteType N)) = .ok tokens ↔
      ∃ p, quoteTyconName N tycon = .ok p ∧
        ∃ toks, args.mapM (quoteType N) = .ok toks ∧ .path p toks = tokens := by
  rw [quoteTycon_eq_ok]
  constructor
  · rintro ⟨toks, htoks, p, hp, rfl⟩
    exact ⟨p, hp, toks, htoks, rfl⟩
  · rintro ⟨p, hp, toks, htoks, rfl⟩
    exact ⟨toks, htoks, p, hp, rfl⟩

/-- The tokens of a type are the Rust type of its constructor, applied to the tokens of the
arguments that are kept. -/
lemma quoteType_eq_ok {t : DamlType} {tokens : TypeTokens} :
    quoteType N t = .ok tokens ↔ ∃ head, quoteHead N t = .ok head ∧
      ∃ args, t.keptArguments.mapM (quoteType N) = .ok args ∧ head.apply args = tokens := by
  have hunsupported : ∀ {name : String}, quoteType N t = .error (.unsupportedType name) →
      quoteHead N t = .error (.unsupportedType name) →
      (quoteType N t = .ok tokens ↔ ∃ head, quoteHead N t = .ok head ∧
        ∃ args, t.keptArguments.mapM (quoteType N) = .ok args ∧ head.apply args = tokens) := by
    intro name htype hhead
    simp [htype, hhead]
  cases t with
  | list args =>
    show quotePrim N _ (quoteFirst N args) = _ ↔ _
    rw [quoteFirst_eq]
    exact quotePrim_eq_head
  | optional args =>
    show quotePrim N _ (quoteFirst N args) = _ ↔ _
    rw [quoteFirst_eq]
    exact quotePrim_eq_head
  | numeric args =>
    show quotePrim N _ (quoteFirst N args) = _ ↔ _
    rw [quoteFirst_eq]
    exact quotePrim_eq_head
  | textMap args =>
    show quotePrim N _ (quoteKeyValue N args) = _ ↔ _
    rw [quoteKeyValue_eq]
    exact quotePrim_eq_head
  | genMap args =>
    show quotePrim N _ (quoteKeyValue N args) = _ ↔ _
    rw [quoteKeyValue_eq]
    exact quotePrim_eq_head
  | tyCon tycon args =>
    have htype : quoteType N (.tyCon tycon args) = quoteTycon N tycon (quoteTypes N args) := rfl
    rw [htype, quoteTypes_eq, quoteTycon_eq_head]
    constructor
    · rintro ⟨p, hp, toks, htoks, rfl⟩
      exact ⟨.path p, Except.map_eq_ok.2 ⟨p, hp, rfl⟩, toks, htoks, rfl⟩
    · rintro ⟨head, hhead, toks, htoks, rfl⟩
      obtain ⟨p, hp, rfl⟩ := Except.map_eq_ok.1 hhead
      exact ⟨p, hp, toks, htoks, rfl⟩
  -- `Box` is put around the quoted type constructor, so the path is taken out from under it
  | boxedTyCon tycon args =>
    have htype : quoteType N (.boxedTyCon tycon args) =
        (fun tokens => .path (.name "Box") [tokens]) <$> quoteTycon N tycon
          (quoteTypes N args) := rfl
    rw [htype, quoteTypes_eq, Except.map_eq_ok]
    constructor
    · rintro ⟨inner, hinner, rfl⟩
      obtain ⟨p, hp, toks, htoks, rfl⟩ := quoteTycon_eq_head.1 hinner
      exact ⟨.box p, Except.map_eq_ok.2 ⟨p, hp, rfl⟩, toks, htoks, rfl⟩
    · rintro ⟨head, hhead, toks, htoks, rfl⟩
      obtain ⟨p, hp, rfl⟩ := Except.map_eq_ok.1 hhead
      exact ⟨.path p toks, quoteTycon_eq_head.2 ⟨p, hp, toks, htoks, rfl⟩, rfl⟩
  | var v args =>
    show TypeTokens.var <$> quoteTypeVar N v = _ ↔ ∃ head, TypeHead.var <$> quoteTypeVar N v = _ ∧ _
    rcases quoteTypeVar N v with e | ident
    · simp [Functor.map, Except.map]
    · simp [Functor.map, Except.map, DamlType.keptArguments, TypeHead.apply, pure, Except.pure]
  | nat n =>
    show (fun ident => TypeTokens.path (.name ident) []) <$> quoteIdent N _ = _ ↔
      ∃ head, (fun ident => TypeHead.path (.name ident)) <$> quoteIdent N _ = _ ∧ _
    rcases quoteIdent N (DamlType.name (.nat n) ++ toString n) with e | ident
    · simp [Functor.map, Except.map]
    · simp [Functor.map, Except.map, DamlType.keptArguments, TypeHead.apply, pure, Except.pure]
  -- the argument of a contract id is not quoted
  | contractId inner => exact quotePrim_nil_eq_head
  | int64 => exact quotePrim_nil_eq_head
  | text => exact quotePrim_nil_eq_head
  | timestamp => exact quotePrim_nil_eq_head
  | party => exact quotePrim_nil_eq_head
  | bool => exact quotePrim_nil_eq_head
  | unit => exact quotePrim_nil_eq_head
  | date => exact quotePrim_nil_eq_head
  | _ => exact hunsupported rfl rfl

lemma quotePrim_eq_error {name : String} {kept : List DamlType} {e : RenderPanic}
    (h : quotePrim N name (kept.mapM (quoteType N)) = .error e) :
    (fun ident => TypeHead.path (.name ident)) <$> quoteEscapedIdent N name = .error e ∨
      ∃ a ∈ kept, quoteType N a = .error e := by
  obtain hident | ⟨ident, -, h⟩ := Except.bind_eq_error.1 h
  · exact .inl (Except.map_eq_error.2 hident)
  · obtain hkept | ⟨args, -, h⟩ := Except.bind_eq_error.1 h
    · exact .inr (Except.exists_error_of_mapM hkept)
    · cases h

lemma quoteTycon_eq_error {tycon : DamlTyConName} {args : List DamlType} {e : RenderPanic}
    (h : quoteTycon N tycon (args.mapM (quoteType N)) = .error e) :
    quoteTyconName N tycon = .error e ∨ ∃ a ∈ args, quoteType N a = .error e := by
  obtain hargs | ⟨toks, -, h⟩ := Except.bind_eq_error.1 h
  · exact .inr (Except.exists_error_of_mapM hargs)
  · obtain hname | ⟨path, -, h⟩ := Except.bind_eq_error.1 h
    · exact .inl hname
    · cases h

/-- What goes wrong with a type goes wrong with its constructor or with an argument that is
rendered. -/
lemma quoteType_eq_error {t : DamlType} {e : RenderPanic} (h : quoteType N t = .error e) :
    quoteHead N t = .error e ∨ ∃ a ∈ t.keptArguments, quoteType N a = .error e := by
  have hname : ∀ name, quotePrim N name (.ok []) = .error e →
      (fun ident => TypeHead.path (.name ident)) <$> quoteEscapedIdent N name = .error e := by
    intro name h
    obtain h | ⟨a, ha, -⟩ := @quotePrim_eq_error N name [] e h
    · exact h
    · cases ha
  cases t with
  | list args => exact quotePrim_eq_error (quoteFirst_eq (N := N) args ▸ h)
  | optional args => exact quotePrim_eq_error (quoteFirst_eq (N := N) args ▸ h)
  | numeric args => exact quotePrim_eq_error (quoteFirst_eq (N := N) args ▸ h)
  | textMap args => exact quotePrim_eq_error (quoteKeyValue_eq (N := N) args ▸ h)
  | genMap args => exact quotePrim_eq_error (quoteKeyValue_eq (N := N) args ▸ h)
  | tyCon tycon args =>
    have htycon : quoteTycon N tycon (quoteTypes N args) = .error e := h
    refine (quoteTycon_eq_error (quoteTypes_eq (N := N) args ▸ htycon)).imp_left fun hname => ?_
    exact Except.map_eq_error.2 hname
  | boxedTyCon tycon args =>
    -- `Box` itself cannot go wrong
    have hinner : quoteTycon N tycon (quoteTypes N args) = .error e := Except.map_eq_error.1 h
    refine (quoteTycon_eq_error (quoteTypes_eq (N := N) args ▸ hinner)).imp_left fun hname => ?_
    exact Except.map_eq_error.2 hname
  | var v args => exact .inl (Except.map_eq_error.2 (Except.map_eq_error.1 h))
  | nat n => exact .inl (Except.map_eq_error.2 (Except.map_eq_error.1 h))
  | contractId inner => exact .inl (hname _ h)
  | int64 => exact .inl (hname _ h)
  | text => exact .inl (hname _ h)
  | timestamp => exact .inl (hname _ h)
  | party => exact .inl (hname _ h)
  | bool => exact .inl (hname _ h)
  | unit => exact .inl (hname _ h)
  | date => exact .inl (hname _ h)
  | _ =>
    cases h
    exact .inl rfl

/-- What goes wrong with a type goes wrong with the constructor of a type that is rendered in it. -/
lemma exists_quoteHead_eq_error {t : DamlType} {e : RenderPanic} (h : quoteType N t = .error e) :
    ∃ s, Reaches DamlType.keptArguments t s ∧ quoteHead N s = .error e := by
  induction t using DamlType.arguments_induction with
  | h t ih =>
    rcases quoteType_eq_error h with hhead | ⟨a, ha, herror⟩
    · exact ⟨t, .refl, hhead⟩
    · obtain ⟨s, hs, hhead⟩ := ih a (t.keptArguments_sublist.subset ha) herror
      exact ⟨s, reaches_iff.2 (.inr ⟨a, ha, hs⟩), hhead⟩

end Head

/-! ### Types that the filter admits -/

/-- Whatever goes wrong, a name is no identifier. -/
def NamesOnly {α : Type} (x : Render α) : Prop :=
  ∀ e, x = .error e → ∃ value, e = .invalidIdent value

namespace NamesOnly

variable {α β : Type} {N : Naming}

lemma ok (a : α) : NamesOnly (.ok a) := fun _ h => nomatch h

lemma bind {x : Render α} {f : α → Render β} (hx : NamesOnly x) (hf : ∀ a, NamesOnly (f a)) :
    NamesOnly (x >>= f) := by
  rcases x with e | a
  · intro e' he'
    cases he'
    exact hx e rfl
  · exact hf a

lemma map {x : Render α} (f : α → β) (hx : NamesOnly x) : NamesOnly (f <$> x) := by
  rcases x with e | a
  · intro e' he'
    cases he'
    exact hx e rfl
  · exact .ok (f a)

lemma mapM {γ : Type} {f : γ → Render β} {as : List γ} (h : ∀ a ∈ as, NamesOnly (f a)) :
    NamesOnly (as.mapM f) := by
  induction as with
  | nil => exact .ok []
  | cons a as ih =>
    rw [List.forall_mem_cons] at h
    rw [List.mapM_cons]
    exact h.1.bind fun _ => (ih h.2).bind fun _ => .ok _

lemma ident (value : String) : NamesOnly (quoteIdent N value) := by
  intro e he
  unfold quoteIdent at he
  split_ifs at he
  cases he
  exact ⟨value, rfl⟩

lemma escapedIdent (value : String) : NamesOnly (quoteEscapedIdent N value) := .ident _

lemma tyconName (tycon : DamlTyConName) : NamesOnly (quoteTyconName N tycon) := by
  cases tycon with
  | localTyCon c => exact .map _ (.escapedIdent _)
  | nonLocal c =>
    exact (escapedIdent _).bind fun _ => (mapM fun _ _ => .escapedIdent _).bind fun _ => .ok _
  | absolute c =>
    exact (escapedIdent _).bind fun _ => (mapM fun _ _ => .escapedIdent _).bind fun _ => .ok _

/-- The constructors that are supported. -/
lemma head {t : DamlType} (h : t.isSupported = true) : NamesOnly (quoteHead N t) := by
  cases t with
  | tyCon tycon args => exact .map _ (tyconName tycon)
  | boxedTyCon tycon args => exact .map _ (tyconName tycon)
  | arrow | update | any | typeRep | bignumeric | roundingMode | anyException
  | failureCategory => cases h
  | forAll vars body => cases h
  | struct fields => cases h
  | syn tysyn args => cases h
  | _ => exact .map _ (.ident _)

end NamesOnly

/-- A type that the filter admits has arguments that it admits. -/
lemma checkType_arguments {ctx : RenderContext} {t : DamlType} (h : checkType ctx t = true) :
    ∀ a ∈ t.arguments, checkType ctx a = true := by
  have hall : ∀ args : List DamlType, checkTypes ctx args = true →
      ∀ a ∈ args, checkType ctx a = true := by
    intro args hargs
    rw [checkTypes_eq, List.all_eq_true] at hargs
    exact hargs
  cases t with
  | list args => exact hall args h
  | optional args => exact hall args h
  | numeric args => exact hall args h
  | textMap args => exact hall args h
  | genMap args => exact hall args h
  | tyCon tycon args => exact hall args (Bool.and_eq_true_iff.1 h).2
  | boxedTyCon tycon args => exact hall args (Bool.and_eq_true_iff.1 h).2
  | _ => exact List.forall_mem_nil _

lemma isSupported_of_checkType {ctx : RenderContext} {t : DamlType} (h : checkType ctx t = true) :
    t.isSupported = true := by
  cases t with
  | arrow => cases h
  | update => cases h
  | any => cases h
  | typeRep => cases h
  | bignumeric => cases h
  | roundingMode => cases h
  | anyException => cases h
  | failureCategory => cases h
  | forAll vars body => cases h
  | struct fields => cases h
  | syn n args => cases h
  | _ => rfl

/-- The filter looks at every type that is rendered. -/
lemma isSupported_of_reaches {ctx : RenderContext} {t s : DamlType} (h : checkType ctx t = true)
    (hs : Reaches DamlType.keptArguments t s) : s.isSupported = true := by
  have hcheck : checkType ctx s = true := by
    induction hs with
    | refl => exact h
    | tail _ hmem ih =>
      exact checkType_arguments ih _ (DamlType.keptArguments_sublist _ |>.subset hmem)
  exact isSupported_of_checkType hcheck

/-- The renderer supports every type that the filter admits. -/
lemma namesOnly_quoteType {ctx : RenderContext} (N : Naming) {t : DamlType}
    (h : checkType ctx t = true) : NamesOnly (quoteType N t) := by
  intro e he
  obtain ⟨s, hs, hhead⟩ := exists_quoteHead_eq_error he
  exact NamesOnly.head (isSupported_of_reaches h hs) e hhead

/-- On a type that the filter admits `quote_type` does not get to its panic for unsupported types:
its calls come to an end, and each of them, at any depth, is on a type that it has a Rust type
for. -/
theorem quoteType_ne_unsupported (N : Naming) {ctx : RenderContext} {t : DamlType}
    (h : checkType ctx t = true) :
    (∀ name, quoteType N t ≠ .error (.unsupportedType name)) ∧
      Acc (fun a s => a ∈ DamlType.keptArguments s) t ∧
      ∀ s, Reaches DamlType.keptArguments t s → s.isSupported = true := by
  refine ⟨fun name hname => ?_, DamlType.wellFounded_keptArguments.apply t,
    fun s hs => isSupported_of_reaches h hs⟩
  obtain ⟨value, hvalue⟩ := namesOnly_quoteType N h _ hname
  cases hvalue

/-- The context of an archive without packages. -/
def emptyContext : RenderContext := ⟨⟨"empty", "pkg", []⟩, .higherKindedType⟩

/-- A boxed type constructor, applied to an optional variable and to contracts of a list. -/
def boxedPair : DamlType :=
  .boxedTyCon (.localTyCon ⟨"Pair", "pkg", "", []⟩)
    [.optional [.var "a" [.int64]], .contractId (some (.list [.text]))]

theorem quoteType_ne_unsupported_boxedPair :
    checkType emptyContext boxedPair = true ∧
      (∀ name, quoteType wordNaming boxedPair ≠ .error (.unsupportedType name)) ∧
      Acc (fun a s => a ∈ DamlType.keptArguments s) boxedPair ∧
      ∀ s, Reaches DamlType.keptArguments boxedPair s → s.isSupported = true :=
  ⟨rfl, @quoteType_ne_unsupported wordNaming emptyContext boxedPair rfl⟩

end DamlBindings.Codegen
