import DamlBindings.Lf.ConvertType

/-!
# Conversion of expressions

`convert/expr_payload.rs`.  An expression, an update or a case alternative is converted part by
part; where the parts are read in another order than the fields of the result, the result is
put together by a function of the parts in the order in which they are read.
-/

namespace DamlBindings.Lf

open Proto

/-- The element for each code of `BuiltinFunction` on the wire. -/
def DamlBuiltinFunction.codes : List (Int × DamlBuiltinFunction) :=
  [(0, .trace), (1, .error), (2, .equal), (3, .lessEq), (4, .less), (5, .greaterEq), (6, .greater),
    (7, .addInt64), (8, .subInt64), (9, .mulInt64), (10, .divInt64), (11, .modInt64),
    (12, .expInt64), (13, .addNumeric), (14, .subNumeric), (15, .mulNumeric), (16, .divNumeric),
    (17, .roundNumeric), (18, .castNumeric), (19, .shiftNumeric), (20, .int64ToNumeric),
    (21, .numericToInt64), (22, .int64ToText), (23, .numericToText), (25, .timestampToText),
    (26, .dateToText), (27, .partyToText), (28, .textToParty), (29, .textToInt64),
    (30, .textToNumeric), (31, .contractIdToText), (32, .sha256Text), (33, .explodeText),
    (34, .appendText), (35, .implodeText), (36, .codePointsToText), (37, .textPointsToCode),
    (38, .dateToUnixDays), (39, .unixDaysToDate), (40, .timestampToUnixMicroseconds),
    (41, .unixMicrosecondsToTimestamp), (42, .coerceContractId), (43, .foldl), (44, .foldr),
    (45, .equalList), (52, .genmapEmpty), (53, .genmapInsert), (54, .genmapLookup),
    (55, .genmapDelete), (56, .genmapKeys), (57, .genmapValues), (58, .genmapSize),
    (59, .anyExceptionMessage), (60, .textmapEmpty), (61, .textmapInsert), (62, .textmapLookup),
    (63, .textmapDelete), (64, .textmapToList), (65, .textmapSize), (66, .failWithStatus),
    (67, .keccak256Text), (68, .secp256k1Bool), (69, .hexToText), (70, .textToHex),
    (71, .sha256Hex), (72, .secp256k1WithEcdsaBool), (73, .secp256k1ValidateKey),
    (2001, .scaleBignumeric), (2002, .precisionBignumeric), (2003, .addBignumeric),
    (2004, .subBignumeric), (2005, .mulBignumeric), (2006, .divBignumeric),
    (2007, .shiftRightBignumeric), (2008, .bigNumericToNumeric), (2009, .numericToBigNumeric),
    (2010, .bigNumericToText), (3011, .typeRepTyconName)]

/-- `convert_builtin_function`. -/
def convertBuiltinFunction (code : Int) : DamlLfConvertResult DamlBuiltinFunction :=
  match DamlBuiltinFunction.codes.lookup code with
  | some f => .ok f
  | none => .error (.unknownBuiltinFunction code)

/-- `convert_builtin_con`. -/
def convertBuiltinCon (code : Int) : DamlLfConvertResult DamlPrimCon :=
  if code = 0 then .ok .unit
  else if code = 1 then .ok .false
  else if code = 2 then .ok .true
  else .error (.unknownPrimCon code)

/-- The rounding modes by their code on the wire. -/
def RoundingMode.codes : List (Int × RoundingMode) :=
  [(0, .up), (1, .down), (2, .ceiling), (3, .floor), (4, .halfUp), (5, .halfDown), (6, .halfEven),
    (7, .unnecessary)]

/-- The failure categories by their code on the wire. -/
def FailureCategory.codes : List (Int × FailureCategory) :=
  [(0, .invalidIndependentOfSystemState), (1, .invalidGivenCurrentSystemStateOther)]

namespace DamlPackageTables

variable (P : DamlPackageTables)

/-- `convert_builtin_lit`. -/
def convertBuiltinLit : BuiltinLit → DamlLfConvertResult DamlPrimLit
  | .int64 v => .ok (.int64 v)
  | .timestamp v => .ok (.timestamp v)
  | .date v => .ok (.date v)
  | .numericInternedStr idx => .numeric <$> P.resolveString idx
  | .textInternedStr idx => .text <$> P.resolveString idx
  | .roundingMode code =>
    match RoundingMode.codes.lookup code with
    | some mode => .ok (.roundingMode mode)
    | none => .error (.unknownRoundingMode code)
  | .failureCategory code =>
    match FailureCategory.codes.lookup code with
    | some cat => .ok (.failureCategory cat)
    | none =>
      .error (.internalError ("unknown FailureCategory enum variant " ++ toString code))
  | .unset => .error .missingRequiredField

/-- The package id of a value name. -/
def resolveValuePackageRef : SelfOrImportedPackageId → DamlLfConvertResult String
  | .selfPackageId => .ok P.packageId
  | .importedPackageIdInternedStr idx => P.resolveString idx
  | .packageImportId _ =>
    .error (.unsupportedFeatureUsed P.languageVersion.toString
      "PackageImportId in value-name PackageRef" "2.dev")
  | .unset => .error .missingRequiredField

/-- `convert_value_id`: the name is always local. -/
def convertValueId (proto : ValueId) : DamlLfConvertResult DamlValueName := do
  let module ← req proto.module
  let pkgId ← P.resolveValuePackageRef (← req module.packageId)
  let modulePath ← P.resolveDotted module.moduleNameInternedDname
  let nameSegments ← P.resolveDotted proto.nameInternedDname
  let (name, prefixPath) ← splitDataName nameSegments
  pure (.localValue {
    name := name
    packageId := pkgId
    packageName := P.resolvePackageName pkgId
    modulePath := modulePath ++ prefixPath
  })

/-- `convert_type_con(field.as_ref().req()?)`. -/
def typeCon (fuel : Nat) (proto : Option TypeCon) : ConvertRun DamlTyCon :=
  required proto (P.convertTypeCon fuel)

/-! ### Patterns, blocks and updates

The conversion of the expressions inside is a parameter. -/

/-- The pattern of `convert_case_alt`. -/
def convertCaseAltSum : CaseAltSum → ConvertRun DamlCaseAltSum
  | .default => .ok .default
  | .variant con v b => DamlCaseAltSum.variant <$> P.tycon con <*> P.string v <*> P.string b
  | .builtinCon code => DamlCaseAltSum.primCon <$> .lift (convertBuiltinCon code)
  | .nil => .ok .nil
  | .cons h t => DamlCaseAltSum.cons <$> P.string h <*> P.string t
  | .optionalNone => .ok .optionalNone
  | .optionalSome b => DamlCaseAltSum.optionalSome <$> P.string b
  | .enum con c => DamlCaseAltSum.enum <$> P.tycon con <*> P.string c
  | .unset => .error (.err .missingRequiredField)

section Parts

variable (fuel : Nat) (convert : Expr → ConvertRun DamlExpr)

/-- `convert_case_alt`. -/
def convertCaseAlt (proto : CaseAlt Expr) : ConvertRun (DamlCaseAlt DamlExpr) :=
  DamlCaseAlt.mk <$> required proto.body convert <*> P.convertCaseAltSum proto.sum

/-- One field of `convert_field_exprs`. -/
def convertFieldExpr (proto : FieldWithExpr Expr) : ConvertRun (DamlFieldWithExpr DamlExpr) :=
  DamlFieldWithExpr.mk <$> P.string proto.fieldInternedStr <*> required proto.expr convert

/-- One binding of `convert_block`. -/
def convertBinding (proto : Binding Expr) : ConvertRun (DamlBinding DamlExpr) :=
  DamlBinding.mk <$> required proto.binder (P.convertVarWithType fuel) <*>
    required proto.bound convert

/-- `convert_block`. -/
def convertBlock (proto : Block Expr) : ConvertRun (DamlBlock DamlExpr) :=
  DamlBlock.mk <$> proto.bindings.mapM (P.convertBinding fuel convert) <*>
    required proto.body convert

/-- The guard of an `ExerciseInterface`, which may be absent. -/
def convertGuard : Option Expr → ConvertRun (Option DamlExpr)
  | none => .ok none
  | some guard => some <$> convert guard

/-- The key that stands in the updates which have none on the wire. -/
def placeholderKey : DamlExpr := .optionalNone .unit

/-- `convert_update`. -/
def convertUpdate : Update Expr → ConvertRun (DamlUpdate DamlExpr)
  | .pure ty expr => DamlUpdate.pure <$> P.type fuel ty <*> required expr convert
  | .block block => DamlUpdate.block <$> P.convertBlock fuel convert block
  | .create template expr => DamlUpdate.create <$> P.tycon template <*> required expr convert
  | .createInterface interface expr =>
    DamlUpdate.createInterface <$> P.tycon interface <*> required expr convert
  | .exercise template choice cid arg =>
    DamlUpdate.exercise <$> P.tycon template <*> required cid convert <*> required arg convert <*>
      P.string choice
  | .exerciseInterface interface choice cid arg guard =>
    (fun interface cid arg choice guard =>
        DamlUpdate.exerciseInterface interface choice cid arg guard) <$>
      P.tycon interface <*> required cid convert <*> required arg convert <*> P.string choice <*>
      convertGuard convert guard
  | .exerciseByKey template choice key arg =>
    DamlUpdate.exerciseByKey <$> P.tycon template <*> P.string choice <*> required key convert <*>
      required arg convert
  | .fetch template cid => DamlUpdate.fetch <$> P.tycon template <*> required cid convert
  | .fetchInterface interface cid =>
    DamlUpdate.fetchInterface <$> P.tycon interface <*> required cid convert
  | .getTime => .ok .getTime
  | .lookupByKey template => (DamlUpdate.lookupByKey · placeholderKey) <$> P.tycon template
  | .fetchByKey template => (DamlUpdate.fetchByKey · placeholderKey) <$> P.tycon template
  | .queryNByKey template => DamlUpdate.queryNByKey <$> P.tycon template
  | .embedExpr ty body => DamlUpdate.embedExpr <$> P.type fuel ty <*> required body convert
  | .tryCatch returnType tryExpr var catchExpr =>
    DamlUpdate.tryCatch <$> P.type fuel returnType <*> required tryExpr convert <*>
      P.string var <*> required catchExpr convert
  | .ledgerTimeLt expr => DamlUpdate.ledgerTimeLt <$> convert expr
  | .unset => .error (.err .missingRequiredField)

end Parts

/-! ### Expressions -/

/-- `convert_expr`. -/
def convertExpr : Nat → Expr → ConvertRun DamlExpr
  | 0, _ => .error .outOfFuel
  | fuel + 1, proto =>
    match proto with
    | .varInternedStr idx => DamlExpr.var <$> P.string idx
    | .val id => DamlExpr.val <$> .lift (P.convertValueId id)
    | .builtin code => DamlExpr.builtin <$> .lift (convertBuiltinFunction code)
    | .builtinCon code => DamlExpr.primCon <$> .lift (convertBuiltinCon code)
    | .builtinLit lit => DamlExpr.primLit <$> .lift (P.convertBuiltinLit lit)
    | .nil ty => DamlExpr.nil <$> P.type fuel ty
    | .optionalNone ty => DamlExpr.optionalNone <$> P.type fuel ty
    | .typeRep ty => DamlExpr.typeRep <$> P.convertType fuel ty
    | .recCon tycon fields =>
      DamlExpr.recCon <$> P.typeCon fuel tycon <*>
        fields.mapM (P.convertFieldExpr (convertExpr fuel))
    | .recProj tycon field record =>
      DamlExpr.recProj <$> P.typeCon fuel tycon <*> required record (convertExpr fuel) <*>
        P.string field
    | .recUpd tycon field record update =>
      DamlExpr.recUpd <$> P.typeCon fuel tycon <*> required record (convertExpr fuel) <*>
        required update (convertExpr fuel) <*> P.string field
    | .variantCon tycon con arg =>
      DamlExpr.variantCon <$> P.typeCon fuel tycon <*> required arg (convertExpr fuel) <*>
        P.string con
    | .enumCon tycon con => DamlExpr.enumCon <$> P.tycon tycon <*> P.string con
    | .structCon fields =>
      DamlExpr.structCon <$> fields.mapM (P.convertFieldExpr (convertExpr fuel))
    | .structProj field struct =>
      DamlExpr.structProj <$> required struct (convertExpr fuel) <*> P.string field
    | .structUpd field struct update =>
      DamlExpr.structUpd <$> required struct (convertExpr fuel) <*>
        required update (convertExpr fuel) <*> P.string field
    | .toAny ty expr => DamlExpr.toAny <$> P.type fuel ty <*> required expr (convertExpr fuel)
    | .fromAny ty expr => DamlExpr.fromAny <$> P.type fuel ty <*> required expr (convertExpr fuel)
    | .app fn args =>
      DamlExpr.app <$> required fn (convertExpr fuel) <*> args.mapM (convertExpr fuel)
    | .tyApp expr types =>
      DamlExpr.tyApp <$> required expr (convertExpr fuel) <*> types.mapM (P.convertType fuel)
    | .abs param body =>
      DamlExpr.abs <$> param.mapM (P.convertVarWithType fuel) <*> required body (convertExpr fuel)
    | .tyAbs param body =>
      DamlExpr.tyAbs <$> param.mapM (P.convertTypevarWithKind fuel) <*>
        required body (convertExpr fuel)
    | .case scrut alts =>
      DamlExpr.case <$> required scrut (convertExpr fuel) <*>
        alts.mapM (P.convertCaseAlt (convertExpr fuel))
    | .letIn block => DamlExpr.letIn <$> P.convertBlock fuel (convertExpr fuel) block
    | .cons ty front tail =>
      DamlExpr.cons <$> P.type fuel ty <*> front.mapM (convertExpr fuel) <*>
        required tail (convertExpr fuel)
    | .optionalSome ty value =>
      DamlExpr.optionalSome <$> P.type fuel ty <*> required value (convertExpr fuel)
    | .toAnyException ty expr =>
      DamlExpr.toAnyException <$> P.type fuel ty <*> required expr (convertExpr fuel)
    | .fromAnyException ty expr =>
      DamlExpr.fromAnyException <$> P.type fuel ty <*> required expr (convertExpr fuel)
    | .throw returnType exceptionType expr =>
      DamlExpr.throw <$> P.type fuel returnType <*> P.type fuel exceptionType <*>
        required expr (convertExpr fuel)
    | .toInterface interfaceType templateType expr =>
      (DamlExpr.interfaceOp <| .toInterface · · ·) <$> P.tycon interfaceType <*>
        P.tycon templateType <*> required expr (convertExpr fuel)
    | .fromInterface interfaceType templateType expr =>
      (DamlExpr.interfaceOp <| .fromInterface · · ·) <$> P.tycon interfaceType <*>
        P.tycon templateType <*> required expr (convertExpr fuel)
    | .callInterface interfaceType method expr =>
      (fun method interfaceType expr =>
          DamlExpr.interfaceOp (.callInterface interfaceType method expr)) <$>
        P.string method <*> P.tycon interfaceType <*> required expr (convertExpr fuel)
    | .viewInterface interface expr =>
      (DamlExpr.interfaceOp <| .viewInterface · ·) <$> P.tycon interface <*>
        required expr (convertExpr fuel)
    | .signatoryInterface interface expr =>
      (DamlExpr.interfaceOp <| .signatoryInterface · ·) <$> P.tycon interface <*>
        required expr (convertExpr fuel)
    | .observerInterface interface expr =>
      (DamlExpr.interfaceOp <| .observerInterface · ·) <$> P.tycon interface <*>
        required expr (convertExpr fuel)
    | .unsafeFromInterface interfaceType templateType cid expr =>
      (DamlExpr.interfaceOp <| .unsafeFromInterface · · · ·) <$> P.tycon interfaceType <*>
        P.tycon templateType <*> required cid (convertExpr fuel) <*>
        required expr (convertExpr fuel)
    | .toRequiredInterface requiredInterface requiringInterface expr =>
      (DamlExpr.interfaceOp <| .toRequiredInterface · · ·) <$> P.tycon requiredInterface <*>
        P.tycon requiringInterface <*> required expr (convertExpr fuel)
    | .fromRequiredInterface requiredInterface requiringInterface expr =>
      (DamlExpr.interfaceOp <| .fromRequiredInterface · · ·) <$> P.tycon requiredInterface <*>
        P.tycon requiringInterface <*> required expr (convertExpr fuel)
    | .unsafeFromRequiredInterface requiredInterface requiringInterface cid expr =>
      (DamlExpr.interfaceOp <| .unsafeFromRequiredInterface · · · ·) <$>
        P.tycon requiredInterface <*> P.tycon requiringInterface <*>
        required cid (convertExpr fuel) <*> required expr (convertExpr fuel)
    | .interfaceTemplateTypeRep interface expr =>
      (DamlExpr.interfaceOp <| .interfaceTemplateTypeRep · ·) <$> P.tycon interface <*>
        required expr (convertExpr fuel)
    | .choiceController template choice contract arg =>
      (fun choice template contract arg =>
          DamlExpr.interfaceOp (.choiceController template choice contract arg)) <$>
        P.string choice <*> P.tycon template <*> required contract (convertExpr fuel) <*>
        required arg (convertExpr fuel)
    | .choiceObserver template choice contract arg =>
      (fun choice template contract arg =>
          DamlExpr.interfaceOp (.choiceObserver template choice contract arg)) <$>
        P.string choice <*> P.tycon template <*> required contract (convertExpr fuel) <*>
        required arg (convertExpr fuel)
    | .update u => DamlExpr.update <$> P.convertUpdate fuel (convertExpr fuel) u
    | .internedExpr idx => do
      convertExpr fuel (← .lift (tableGet "interned-expr" P.internedExprs idx))
    | .experimental =>
      .error (.err (.unsupportedFeatureUsed P.languageVersion.toString "Experimental expression"
        "2.dev"))
    | .unset => .error (.err .missingRequiredField)

end DamlPackageTables

end DamlBindings.Lf
