import DamlBindings.Lf.Payload
import DamlBindings.Lf.Element

/-!
# Conversion of names, kinds and types

`convert/type_payload.rs`, `convert/typevar_payload.rs` and `convert/field_payload.rs`.  The
conversions of kinds and types recurse through the interning tables, so they run on fuel.
-/

namespace DamlBindings.Lf

open Proto

/-- `BuiltinType`. -/
inductive BuiltinType where
  | unit | bool | int64 | date | timestamp | numeric | party | text | contractId | optional
  | list | genmap | any | anyException | typeRep | arrow | update | failureCategory | textmap
  | bignumeric | roundingMode
deriving DecidableEq, Repr

/-- The builtin types by their code on the wire. -/
def BuiltinType.codes : List (Int × BuiltinType) :=
  [(0, .unit), (1, .bool), (2, .int64), (3, .date), (4, .timestamp), (5, .numeric), (6, .party),
    (7, .text), (8, .contractId), (9, .optional), (10, .list), (11, .genmap), (13, .any),
    (14, .anyException), (15, .typeRep), (16, .arrow), (17, .update), (18, .failureCategory),
    (19, .textmap), (1002, .bignumeric), (1003, .roundingMode)]

/-- `BuiltinType::try_from(i32).ok()`. -/
def BuiltinType.tryFrom (code : Int) : Option BuiltinType := codes.lookup code

namespace DamlPackageTables

variable (P : DamlPackageTables)

/-! ### Names -/

/-- `resolve_package_ref`. -/
def resolvePackageRef : SelfOrImportedPackageId → DamlLfConvertResult String
  | .selfPackageId => .ok P.packageId
  | .importedPackageIdInternedStr idx => P.resolveString idx
  | .packageImportId _ =>
    .error (.unsupportedFeatureUsed P.languageVersion.toString "PackageImportId" "2.dev")
  | .unset => .error .missingRequiredField

/-- `resolve_module_id`: the package id and the module path. -/
def resolveModuleId (proto : ModuleId) : DamlLfConvertResult (String × List String) := do
  let pkgId ← P.resolvePackageRef (← req proto.packageId)
  let modulePath ← P.resolveDotted proto.moduleNameInternedDname
  pure (pkgId, modulePath)

/-- `split_last().req()`: the last segment of a dotted name and the segments before it. -/
def splitDataName (segments : List String) : DamlLfConvertResult (String × List String) := do
  let last ← req segments.getLast?
  pure (last, segments.dropLast)

/-- `resolve_package_name`. -/
def resolvePackageName (pkgId : String) : String :=
  if pkgId = P.packageId then P.name else (P.crossPkgName pkgId).getD ""

/-- `convert_tycon_id`. -/
def convertTyconId (proto : TypeConId) : DamlLfConvertResult DamlTyConName := do
  let (pkgId, modulePath) ← P.resolveModuleId (← req proto.module)
  let dataNameSegments ← P.resolveDotted proto.nameInternedDname
  -- a nested data type: the segments in front of its name extend the path of the module
  let (dataName, extraModulePath) ← splitDataName dataNameSegments
  pure (.absolute {
    dataName := dataName
    packageId := pkgId
    packageName := P.resolvePackageName pkgId
    modulePath := modulePath ++ extraModulePath
  })

/-- `convert_tysyn_id`. -/
def convertTysynId (proto : TypeSynId) : DamlLfConvertResult DamlTypeSynName := do
  let (pkgId, modulePath) ← P.resolveModuleId (← req proto.module)
  let dataNameSegments ← P.resolveDotted proto.nameInternedDname
  let (dataName, extraModulePath) ← splitDataName dataNameSegments
  pure (.absolute {
    dataName := dataName
    packageId := pkgId
    packageName := P.resolvePackageName pkgId
    modulePath := modulePath ++ extraModulePath
  })

/-- A resolved index, in a conversion that recurses. -/
def string (index : Int) : ConvertRun String := .lift (P.resolveString index)

/-- `convert_tycon_id(field.as_ref().req()?)`. -/
def tycon (proto : Option TypeConId) : ConvertRun DamlTyConName :=
  .lift (req proto >>= P.convertTyconId)

/-- `convert_tysyn_id(field.as_ref().req()?)`. -/
def tysyn (proto : Option TypeSynId) : ConvertRun DamlTypeSynName :=
  .lift (req proto >>= P.convertTysynId)

section Names

variable {P}

@[simp] lemma string_eq_ok {i : Int} {s : String} :
    P.string i = .ok s ↔ P.resolveString i = .ok s := by
  simp [string]

@[simp] lemma tycon_eq_ok {o : Option TypeConId} {n : DamlTyConName} :
    P.tycon o = .ok n ↔ ∃ id, o = some id ∧ P.convertTyconId id = .ok n := by
  simp [tycon]

@[simp] lemma tysyn_eq_ok {o : Option TypeSynId} {n : DamlTypeSynName} :
    P.tysyn o = .ok n ↔ ∃ id, o = some id ∧ P.convertTysynId id = .ok n := by
  simp [tysyn]

end Names

/-! ### Kinds -/

/-- `convert_kind`. -/
def convertKind : Nat → Kind → ConvertRun DamlKind
  | 0, _ => .error .outOfFuel
  | fuel + 1, kind =>
    match kind with
    | .star => .ok .star
    | .nat => .ok .nat
    | .arrow params result =>
      DamlKind.arrow <$> params.mapM (convertKind fuel) <*> required result (convertKind fuel)
    | .internedKind idx => do
      convertKind fuel (← .lift (tableGet "interned-kind" P.internedKinds idx))
    | .unset => .error (.err .missingRequiredField)

/-- `convert_typevar_with_kind`. -/
def convertTypevarWithKind (fuel : Nat) (proto : TypeVarWithKind) :
    ConvertRun DamlTypeVarWithKind :=
  DamlTypeVarWithKind.mk <$> P.string proto.varInternedStr <*>
    required proto.kind (P.convertKind fuel)

/-- `convert_type_params`. -/
def convertTypeParams (fuel : Nat) (protos : List TypeVarWithKind) :
    ConvertRun (List DamlTypeVarWithKind) :=
  protos.mapM (P.convertTypevarWithKind fuel)

/-! ### Types -/

/-- `convert_builtin`, on the converted arguments: only some kinds have room for them. -/
def builtinType (kind : BuiltinType) (args : List DamlType) : DamlLfConvertResult DamlType :=
  match kind with
  | .unit => .ok .unit
  | .bool => .ok .bool
  | .int64 => .ok .int64
  | .date => .ok .date
  | .timestamp => .ok .timestamp
  | .numeric => .ok (.numeric args)
  | .party => .ok .party
  | .text => .ok .text
  | .contractId =>
    if args.length > 1 then .error .unexpectedContractIdTypeArguments
    else .ok (.contractId args.head?)
  | .optional => .ok (.optional args)
  | .list => .ok (.list args)
  | .genmap => .ok (.genMap args)
  | .textmap => .ok (.textMap args)
  | .any => .ok .any
  | .anyException => .ok .anyException
  | .typeRep => .ok .typeRep
  | .arrow => .ok .arrow
  | .update => .ok .update
  | .bignumeric => .ok .bignumeric
  | .failureCategory => .ok .failureCategory
  | .roundingMode => .ok .roundingMode

/-- `u8::try_from` and the bound on it. -/
def convertNat (n : Int) : DamlLfConvertResult DamlType :=
  if 0 ≤ n ∧ n ≤ 37 then .ok (.nat n.toNat) else .error (.natOutOfRange n)

/-- `convert_field`, with the conversion of its type. -/
def convertFieldWith (convert : Ty → ConvertRun DamlType) (proto : FieldWithType Ty) :
    ConvertRun (DamlField DamlType) :=
  DamlField.mk <$> P.string proto.fieldInternedStr <*> required proto.type convert

/-- `convert_type`. -/
def convertType : Nat → Ty → ConvertRun DamlType
  | 0, _ => .error .outOfFuel
  | fuel + 1, proto =>
    match proto with
    | .var v args => DamlType.var <$> P.string v <*> args.mapM (convertType fuel)
    | .con c args => DamlType.tyCon <$> P.tycon c <*> args.mapM (convertType fuel)
    | .syn s args => DamlType.syn <$> P.tysyn s <*> args.mapM (convertType fuel)
    | .builtin b args => do
      -- the arguments are converted also where the kind has no room for them
      let kind ← Run.lift (req (BuiltinType.tryFrom b))
      let args ← args.mapM (convertType fuel)
      Run.lift (builtinType kind args)
    | .forAll vars body =>
      DamlType.forAll <$> P.convertTypeParams fuel vars <*> required body (convertType fuel)
    | .struct fields => DamlType.struct <$> fields.mapM (P.convertFieldWith (convertType fuel))
    | .nat n => .lift (convertNat n)
    | .internedType idx => do
      convertType fuel (← .lift (tableGet "interned-type" P.internedTypes idx))
    | .tapp => .error (.err (.unsupportedFeatureUsed P.languageVersion.toString "TApp" "2.dev"))
    | .unset => .error (.err .missingRequiredField)

/-- `convert_type(field.as_ref().req()?)`. -/
def type (fuel : Nat) (proto : Option Ty) : ConvertRun DamlType :=
  required proto (P.convertType fuel)

/-- `convert_field`. -/
def convertField (fuel : Nat) : FieldWithType Ty → ConvertRun (DamlField DamlType) :=
  P.convertFieldWith (P.convertType fuel)

/-- `convert_type_con`. -/
def convertTypeCon (fuel : Nat) (proto : TypeCon) : ConvertRun DamlTyCon :=
  DamlTyCon.mk <$> P.tycon proto.tycon <*> proto.args.mapM (P.convertType fuel)

/-- `convert_var_with_type`. -/
def convertVarWithType (fuel : Nat) (proto : VarWithType) : ConvertRun DamlVarWithType :=
  (fun var ty => DamlVarWithType.mk ty var) <$> P.string proto.varInternedStr <*>
    P.type fuel proto.type

/-! ### More fuel -/

section Fuel

variable {P}

open Run (Refines)

lemma convertKind_monotone (k : Kind) : Run.Monotone fun fuel => P.convertKind fuel k := by
  intro fuel
  induction fuel generalizing k with
  | zero => exact .outOfFuel _
  | succ fuel ih =>
    cases k with
    | arrow params result =>
      exact .seq (.map _ (.mapM params fun k _ => ih k)) (required_refines fun k _ => ih k)
    | internedKind i => exact .bind (.refl _) fun k => ih k
    | star => exact .refl _
    | nat => exact .refl _
    | unset => exact .refl _

lemma convertTypevarWithKind_refines (fuel : Nat) (v : TypeVarWithKind) :
    Refines (P.convertTypevarWithKind fuel v) (P.convertTypevarWithKind (fuel + 1) v) :=
  .seq (.refl _) (required_refines fun k _ => convertKind_monotone k fuel)

lemma convertType_monotone (t : Ty) : Run.Monotone fun fuel => P.convertType fuel t := by
  intro fuel
  induction fuel generalizing t with
  | zero => exact .outOfFuel _
  | succ fuel ih =>
    have hargs : ∀ args : List Ty,
        Refines (args.mapM (P.convertType fuel)) (args.mapM (P.convertType (fuel + 1))) :=
      fun args => .mapM args fun t _ => ih t
    cases t with
    | var v args => exact .seq (.refl _) (hargs args)
    | con c args => exact .seq (.refl _) (hargs args)
    | syn s args => exact .seq (.refl _) (hargs args)
    | builtin b args => exact .bind (.refl _) fun _ => .bind (hargs args) fun _ => .refl _
    | forAll vars body =>
      exact .seq (.map _ (.mapM vars fun v _ => convertTypevarWithKind_refines fuel v))
        (required_refines fun t _ => ih t)
    | struct fields =>
      exact .map _ (.mapM fields fun f _ => .seq (.refl _) (required_refines fun t _ => ih t))
    | internedType i => exact .bind (.refl _) fun t => ih t
    | nat n => exact .refl _
    | tapp => exact .refl _
    | unset => exact .refl _

end Fuel

end DamlPackageTables

end DamlBindings.Lf
