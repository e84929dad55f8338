/-!
# Daml-LF 2 messages

The messages of `daml_lf2.proto` as they are decoded.  Every message field is optional, an unset
`oneof` is the constructor `unset`, and an `int32` is an integer that may be negative.  Source
locations, which nothing reads, are left out.
-/

namespace DamlBindings.Lf.Proto

/-- `SelfOrImportedPackageId`. -/
inductive SelfOrImportedPackageId where
  | selfPackageId
  | importedPackageIdInternedStr (i : Int)
  | packageImportId (i : Int)
  | unset
deriving DecidableEq, Repr

structure ModuleId where
  packageId : Option SelfOrImportedPackageId
  moduleNameInternedDname : Int
deriving DecidableEq, Repr

structure TypeConId where
  module : Option ModuleId
  nameInternedDname : Int
deriving DecidableEq, Repr

structure TypeSynId where
  module : Option ModuleId
  nameInternedDname : Int
deriving DecidableEq, Repr

structure ValueId where
  module : Option ModuleId
  nameInternedDname : Int
deriving DecidableEq, Repr

inductive Kind where
  | star
  | nat
  | arrow (params : List Kind) (result : Option Kind)
  | internedKind (i : Int)
  | unset

structure TypeVarWithKind where
  varInternedStr : Int
  kind : Option Kind

/-- `FieldWithType`, over the type `T` of types. -/
structure FieldWithType (T : Type) where
  fieldInternedStr : Int
  type : Option T

/-- `Type`. -/
inductive Ty where
  | var (varInternedStr : Int) (args : List Ty)
  | con (tycon : Option TypeConId) (args : List Ty)
  | syn (tysyn : Option TypeSynId) (args : List Ty)
  | builtin (builtin : Int) (args : List Ty)
  | forAll (vars : List TypeVarWithKind) (body : Option Ty)
  | struct (fields : List (FieldWithType Ty))
  | nat (n : Int)
  | internedType (i : Int)
  | tapp
  | unset

/-- `Type.Con`. -/
structure TypeCon where
  tycon : Option TypeConId
  args : List Ty

structure VarWithType where
  varInternedStr : Int
  type : Option Ty

inductive BuiltinLit where
  | int64 (v : Int)
  | timestamp (v : Int)
  | numericInternedStr (i : Int)
  | textInternedStr (i : Int)
  | date (v : Int)
  | failureCategory (code : Int)
  | roundingMode (code : Int)
  | unset

/-! ### Expressions -/

/-- `FieldWithExpr`, over the type `E` of expressions. -/
structure FieldWithExpr (E : Type) where
  fieldInternedStr : Int
  expr : Option E

structure Binding (E : Type) where
  binder : Option VarWithType
  bound : Option E

structure Block (E : Type) where
  bindings : List (Binding E)
  body : Option E

/-- The pattern of a `CaseAlt`. -/
inductive CaseAltSum where
  | default
  | variant (con : Option TypeConId) (variantInternedStr binderInternedStr : Int)
  | builtinCon (code : Int)
  | nil
  | cons (varHeadInternedStr varTailInternedStr : Int)
  | optionalNone
  | optionalSome (varBodyInternedStr : Int)
  | enum (con : Option TypeConId) (constructorInternedStr : Int)
  | unset

structure CaseAlt (E : Type) where
  sum : CaseAltSum
  body : Option E

inductive Update (E : Type) where
  | pure (type : Option Ty) (expr : Option E)
  | block (block : Block E)
  | create (template : Option TypeConId) (expr : Option E)
  | createInterface (interface : Option TypeConId) (expr : Option E)
  | exercise (template : Option TypeConId) (choiceInternedStr : Int) (cid arg : Option E)
  | exerciseInterface (interface : Option TypeConId) (choiceInternedStr : Int)
      (cid arg guard : Option E)
  | exerciseByKey (template : Option TypeConId) (choiceInternedStr : Int) (key arg : Option E)
  | fetch (template : Option TypeConId) (cid : Option E)
  | fetchInterface (interface : Option TypeConId) (cid : Option E)
  | getTime
  | lookupByKey (template : Option TypeConId)
  | fetchByKey (template : Option TypeConId)
  | queryNByKey (template : Option TypeConId)
  | embedExpr (type : Option Ty) (body : Option E)
  | tryCatch (returnType : Option Ty) (tryExpr : Option E) (varInternedStr : Int)
      (catchExpr : Option E)
  | ledgerTimeLt (expr : E)
  | unset

inductive Expr where
  | varInternedStr (i : Int)
  | val (id : ValueId)
  | builtin (code : Int)
  | builtinCon (code : Int)
  | builtinLit (lit : BuiltinLit)
  | recCon (tycon : Option TypeCon) (fields : List (FieldWithExpr Expr))
  | recProj (tycon : Option TypeCon) (fieldInternedStr : Int) (record : Option Expr)
  | recUpd (tycon : Option TypeCon) (fieldInternedStr : Int) (record update : Option Expr)
  | variantCon (tycon : Option TypeCon) (variantConInternedStr : Int) (variantArg : Option Expr)
  | enumCon (tycon : Option TypeConId) (enumConInternedStr : Int)
  | structCon (fields : List (FieldWithExpr Expr))
  | structProj (fieldInternedStr : Int) (struct : Option Expr)
  | structUpd (fieldInternedStr : Int) (struct update : Option Expr)
  | app (fn : Option Expr) (args : List Expr)
  | tyApp (expr : Option Expr) (types : List Ty)
  | abs (param : List VarWithType) (body : Option Expr)
  | tyAbs (param : List TypeVarWithKind) (body : Option Expr)
  | case (scrut : Option Expr) (alts : List (CaseAlt Expr))
  | letIn (block : Block Expr)
  | nil (type : Option Ty)
  | cons (type : Option Ty) (front : List Expr) (tail : Option Expr)
  | update (update : Update Expr)
  | optionalNone (type : Option Ty)
  | optionalSome (type : Option Ty) (value : Option Expr)
  | toAny (type : Option Ty) (expr : Option Expr)
  | fromAny (type : Option Ty) (expr : Option Expr)
  | typeRep (type : Ty)
  | toAnyException (type : Option Ty) (expr : Option Expr)
  | fromAnyException (type : Option Ty) (expr : Option Expr)
  | throw (returnType exceptionType : Option Ty) (exceptionExpr : Option Expr)
  | toInterface (interfaceType templateType : Option TypeConId) (templateExpr : Option Expr)
  | fromInterface (interfaceType templateType : Option TypeConId) (interfaceExpr : Option Expr)
  | callInterface (interfaceType : Option TypeConId) (methodInternedName : Int)
      (interfaceExpr : Option Expr)
  | viewInterface (interface : Option TypeConId) (expr : Option Expr)
  | signatoryInterface (interface : Option TypeConId) (expr : Option Expr)
  | observerInterface (interface : Option TypeConId) (expr : Option Expr)
  | unsafeFromInterface (interfaceType templateType : Option TypeConId)
      (contractIdExpr interfaceExpr : Option Expr)
  | interfaceTemplateTypeRep (interface : Option TypeConId) (expr : Option Expr)
  | toRequiredInterface (requiredInterface requiringInterface : Option TypeConId)
      (expr : Option Expr)
  | fromRequiredInterface (requiredInterface requiringInterface : Option TypeConId)
      (expr : Option Expr)
  | unsafeFromRequiredInterface (requiredInterface requiringInterface : Option TypeConId)
      (contractIdExpr interfaceExpr : Option Expr)
  | choiceController (template : Option TypeConId) (choiceInternedStr : Int)
      (contractExpr choiceArgExpr : Option Expr)
  | choiceObserver (template : Option TypeConId) (choiceInternedStr : Int)
      (contractExpr choiceArgExpr : Option Expr)
  | internedExpr (i : Int)
  | experimental
  | unset

/-! ### Definitions, modules and packages -/

structure TemplateChoice where
  nameInternedStr : Int
  consuming : Bool
  controllers : Option Expr
  observers : Option Expr
  argBinder : Option VarWithType
  retType : Option Ty
  update : Option Expr
  selfBinderInternedStr : Int
  authorizers : Option Expr

structure DefKey where
  type : Option Ty
  keyExpr : Option Expr
  maintainers : Option Expr

structure InterfaceInstanceMethod where
  methodInternedName : Int
  value : Option Expr

structure InterfaceInstanceBody where
  methods : List InterfaceInstanceMethod
  view : Option Expr

structure Implements where
  interface : Option TypeConId
  body : Option InterfaceInstanceBody

structure DefTemplate where
  tyconInternedDname : Int
  paramInternedStr : Int
  precond : Option Expr
  signatories : Option Expr
  choices : List TemplateChoice
  observers : Option Expr
  key : Option DefKey
  implements : List Implements

structure InterfaceMethod where
  methodInternedName : Int
  type : Option Ty

structure DefInterface where
  tyconInternedDname : Int
  methods : List InterfaceMethod
  paramInternedStr : Int
  choices : List TemplateChoice
  view : Option Ty
  requires : List TypeConId

structure DefException where
  nameInternedDname : Int
  message : Option Expr

/-- `DefDataType.DataCons`. -/
inductive DataCons where
  | record (fields : List (FieldWithType Ty))
  | variant (fields : List (FieldWithType Ty))
  | enum (constructorsInternedStr : List Int)
  | interface
  | unset

structure DefDataType where
  nameInternedDname : Int
  params : List TypeVarWithKind
  serializable : Bool
  dataCons : DataCons

structure DefTypeSyn where
  nameInternedDname : Int
  params : List TypeVarWithKind
  type : Option Ty

structure NameWithType where
  nameInternedDname : Int
  type : Option Ty

structure DefValue where
  nameWithType : Option NameWithType
  expr : Option Expr

structure FeatureFlags where
  forbidPartyLiterals : Bool
  dontDivulgeContractIdsInCreateArguments : Bool
  dontDiscloseNonConsumingChoicesToObservers : Bool
deriving DecidableEq, Repr

structure Module where
  nameInternedDname : Int
  flags : Option FeatureFlags
  synonyms : List DefTypeSyn
  dataTypes : List DefDataType
  values : List DefValue
  templates : List DefTemplate
  exceptions : List DefException
  interfaces : List DefInterface

structure PackageMetadata where
  nameInternedStr : Int
  versionInternedStr : Int
deriving DecidableEq, Repr

structure Package where
  modules : List Module
  internedStrings : List String
  internedDottedNames : List (List Int)
  metadata : Option PackageMetadata
  internedTypes : List Ty
  internedKinds : List Kind
  internedExprs : List Expr

end DamlBindings.Lf.Proto
