import DamlBindings.Lib.PathTree

/-!
# The element layer

The Daml types, expressions, data types, modules and packages that the conversion produces
(`element/`).  A node of the expression tree that boxes one struct per variant has the fields of
the struct as the arguments of its constructor.  A hash map is listed in its iteration order.
-/

namespace DamlBindings.Lf

/-! ### Names, kinds and types -/

structure DamlLocalTyCon where
  dataName : String
  packageId : String
  packageName : String
  modulePath : List String
deriving DecidableEq, Repr

structure DamlNonLocalTyCon where
  dataName : String
  sourcePackageId : String
  sourcePackageName : String
  sourceModulePath : List String
  targetPackageId : String
  targetPackageName : String
  targetModulePath : List String
deriving DecidableEq, Repr

structure DamlAbsoluteTyCon where
  dataName : String
  packageId : String
  packageName : String
  modulePath : List String
deriving DecidableEq, Repr

/-- The name of a type constructor. -/
inductive DamlTyConName where
  | localTyCon (c : DamlLocalTyCon)
  | nonLocal (c : DamlNonLocalTyCon)
  | absolute (c : DamlAbsoluteTyCon)
deriving DecidableEq, Repr

namespace DamlTyConName

/-- `reference_parts`: the package id, the module path and the data name. -/
def referenceParts : DamlTyConName → String × List String × String
  | .localTyCon c => (c.packageId, c.modulePath, c.dataName)
  | .nonLocal c => (c.targetPackageId, c.targetModulePath, c.dataName)
  | .absolute c => (c.packageId, c.modulePath, c.dataName)

/-- `package_id`. -/
def packageId : DamlTyConName → String
  | .localTyCon c => c.packageId
  | .nonLocal c => c.targetPackageId
  | .absolute c => c.packageId

end DamlTyConName

/-- `DamlTypeSynName` is an alias. -/
abbrev DamlTypeSynName := DamlTyConName

inductive DamlKind where
  | star
  | arrow (params : List DamlKind) (result : DamlKind)
  | nat

structure DamlTypeVarWithKind where
  var : String
  kind : DamlKind

/-- `DamlField`, over the type `T` of types. -/
structure DamlField (T : Type) where
  name : String
  ty : T

/-- A Daml type. -/
inductive DamlType where
  | contractId (inner : Option DamlType)
  | int64
  | numeric (args : List DamlType)
  | text
  | timestamp
  | party
  | bool
  | unit
  | date
  | list (args : List DamlType)
  | textMap (args : List DamlType)
  | genMap (args : List DamlType)
  | optional (args : List DamlType)
  | tyCon (tycon : DamlTyConName) (typeArguments : List DamlType)
  | boxedTyCon (tycon : DamlTyConName) (typeArguments : List DamlType)
  | var (var : String) (typeArguments : List DamlType)
  | nat (n : Nat)
  | arrow
  | any
  | typeRep
  | bignumeric
  | roundingMode
  | anyException
  | update
  | failureCategory
  | forAll (vars : List DamlTypeVarWithKind) (body : DamlType)
  | struct (fields : List (DamlField DamlType))
  | syn (tysyn : DamlTypeSynName) (args : List DamlType)

/-- A type constructor with its arguments. -/
structure DamlTyCon where
  tycon : DamlTyConName
  typeArguments : List DamlType

/-! ### Expressions -/

structure DamlLocalValueName where
  name : String
  packageId : String
  packageName : String
  modulePath : List String
deriving DecidableEq, Repr

structure DamlNonLocalValueName where
  name : String
  sourcePackageId : String
  sourcePackageName : String
  sourceModulePath : List String
  targetPackageId : String
  targetPackageName : String
  targetModulePath : List String
deriving DecidableEq, Repr

/-- The name of a value. -/
inductive DamlValueName where
  | localValue (c : DamlLocalValueName)
  | nonLocal (c : DamlNonLocalValueName)
deriving DecidableEq, Repr

/-- The builtin functions of LF2. -/
inductive DamlBuiltinFunction where
  | trace | error | equal | lessEq | less | greaterEq | greater
  | addInt64 | subInt64 | mulInt64 | divInt64 | modInt64 | expInt64
  | addNumeric | subNumeric | mulNumeric | divNumeric | roundNumeric | castNumeric | shiftNumeric
  | int64ToNumeric | numericToInt64 | int64ToText | numericToText | timestampToText | dateToText
  | partyToText | textToParty | textToInt64 | textToNumeric | contractIdToText | sha256Text
  | explodeText | appendText | implodeText | codePointsToText | textPointsToCode
  | dateToUnixDays | unixDaysToDate | timestampToUnixMicroseconds | unixMicrosecondsToTimestamp
  | coerceContractId | foldl | foldr | equalList
  | genmapEmpty | genmapInsert | genmapLookup | genmapDelete | genmapKeys | genmapValues
  | genmapSize | anyExceptionMessage
  | textmapEmpty | textmapInsert | textmapLookup | textmapDelete | textmapToList | textmapSize
  | failWithStatus | keccak256Text | secp256k1Bool | hexToText | textToHex | sha256Hex
  | secp256k1WithEcdsaBool | secp256k1ValidateKey
  | scaleBignumeric | precisionBignumeric | addBignumeric | subBignumeric | mulBignumeric
  | divBignumeric | shiftRightBignumeric | bigNumericToNumeric | numericToBigNumeric
  | bigNumericToText | typeRepTyconName
deriving DecidableEq, Repr

inductive DamlPrimCon where
  | unit
  | false
  | true
deriving DecidableEq, Repr

inductive RoundingMode where
  | up | down | ceiling | floor | halfUp | halfDown | halfEven | unnecessary
deriving DecidableEq, Repr

inductive FailureCategory where
  | invalidIndependentOfSystemState
  | invalidGivenCurrentSystemStateOther
deriving DecidableEq, Repr

inductive DamlPrimLit where
  | int64 (v : Int)
  | text (v : String)
  | party (v : String)
  | date (v : Int)
  | timestamp (v : Int)
  | numeric (v : String)
  | roundingMode (v : RoundingMode)
  | failureCategory (v : FailureCategory)
deriving DecidableEq, Repr

structure DamlVarWithType where
  ty : DamlType
  var : String

/-- `DamlFieldWithExpr`, over the type `E` of expressions. -/
structure DamlFieldWithExpr (E : Type) where
  field : String
  expr : E

structure DamlBinding (E : Type) where
  binder : DamlVarWithType
  bound : E

structure DamlBlock (E : Type) where
  bindings : List (DamlBinding E)
  body : E

/-- The pattern of a case alternative. -/
inductive DamlCaseAltSum where
  | default
  | variant (con : DamlTyConName) (variant binder : String)
  | primCon (con : DamlPrimCon)
  | nil
  | cons (varHead varTail : String)
  | optionalNone
  | optionalSome (varBody : String)
  | enum (con : DamlTyConName) (constructor : String)

structure DamlCaseAlt (E : Type) where
  body : E
  sum : DamlCaseAltSum

/-- An update. -/
inductive DamlUpdate (E : Type) where
  | pure (ty : DamlType) (expr : E)
  | block (block : DamlBlock E)
  | create (template : DamlTyConName) (expr : E)
  | exercise (template : DamlTyConName) (cid arg : E) (choice : String)
  | exerciseByKey (template : DamlTyConName) (choice : String) (key arg : E)
  | fetch (template : DamlTyConName) (cid : E)
  | getTime
  | lookupByKey (template : DamlTyConName) (key : E)
  | fetchByKey (template : DamlTyConName) (key : E)
  | queryNByKey (template : DamlTyConName)
  | embedExpr (ty : DamlType) (body : E)
  | tryCatch (returnType : DamlType) (tryExpr : E) (var : String) (catchExpr : E)
  | createInterface (interface : DamlTyConName) (expr : E)
  | exerciseInterface (interface : DamlTyConName) (choice : String) (cid arg : E)
      (guard : Option E)
  | fetchInterface (interface : DamlTyConName) (cid : E)
  | ledgerTimeLt (expr : E)

/-- An interface-related expression. -/
inductive DamlInterfaceExpr (E : Type) where
  | toInterface (interfaceType templateType : DamlTyConName) (templateExpr : E)
  | fromInterface (interfaceType templateType : DamlTyConName) (interfaceExpr : E)
  | callInterface (interfaceType : DamlTyConName) (method : String) (interfaceExpr : E)
  | viewInterface (interface : DamlTyConName) (expr : E)
  | signatoryInterface (interface : DamlTyConName) (expr : E)
  | observerInterface (interface : DamlTyConName) (expr : E)
  | unsafeFromInterface (interfaceType templateType : DamlTyConName)
      (contractIdExpr interfaceExpr : E)
  | toRequiredInterface (requiredInterface requiringInterface : DamlTyConName) (expr : E)
  | fromRequiredInterface (requiredInterface requiringInterface : DamlTyConName) (expr : E)
  | unsafeFromRequiredInterface (requiredInterface requiringInterface : DamlTyConName)
      (contractIdExpr interfaceExpr : E)
  | interfaceTemplateTypeRep (interface : DamlTyConName) (expr : E)
  | choiceController (template : DamlTyConName) (choice : String)
      (contractExpr choiceArgExpr : E)
  | choiceObserver (template : DamlTyConName) (choice : String) (contractExpr choiceArgExpr : E)

/-- A Daml expression. -/
inductive DamlExpr where
  | var (name : String)
  | val (name : DamlValueName)
  | builtin (f : DamlBuiltinFunction)
  | primCon (c : DamlPrimCon)
  | primLit (l : DamlPrimLit)
  | recCon (tycon : DamlTyCon) (fields : List (DamlFieldWithExpr DamlExpr))
  | recProj (tycon : DamlTyCon) (record : DamlExpr) (field : String)
  | recUpd (tycon : DamlTyCon) (record update : DamlExpr) (field : String)
  | variantCon (tycon : DamlTyCon) (variantArg : DamlExpr) (variantCon : String)
  | enumCon (tycon : DamlTyConName) (enumCon : String)
  | structCon (fields : List (DamlFieldWithExpr DamlExpr))
  | structProj (structExpr : DamlExpr) (field : String)
  | structUpd (structExpr update : DamlExpr) (field : String)
  | app (fn : DamlExpr) (args : List DamlExpr)
  | tyApp (expr : DamlExpr) (types : List DamlType)
  | abs (params : List DamlVarWithType) (body : DamlExpr)
  | tyAbs (params : List DamlTypeVarWithKind) (body : DamlExpr)
  | case (scrut : DamlExpr) (alts : List (DamlCaseAlt DamlExpr))
  | letIn (block : DamlBlock DamlExpr)
  | nil (ty : DamlType)
  | cons (ty : DamlType) (front : List DamlExpr) (tail : DamlExpr)
  | update (u : DamlUpdate DamlExpr)
  | optionalNone (ty : DamlType)
  | optionalSome (ty : DamlType) (body : DamlExpr)
  | toAny (ty : DamlType) (expr : DamlExpr)
  | fromAny (ty : DamlType) (expr : DamlExpr)
  | typeRep (ty : DamlType)
  | toAnyException (ty : DamlType) (expr : DamlExpr)
  | fromAnyException (ty : DamlType) (expr : DamlExpr)
  | throw (returnType exceptionType : DamlType) (exceptionExpr : DamlExpr)
  | interfaceOp (i : DamlInterfaceExpr DamlExpr)

/-! ### Data types -/

structure DamlChoice where
  name : String
  packageId : String
  modulePath : List String
  fields : List (DamlField DamlType)
  returnType : DamlType
  consuming : Bool
  selfBinder : String
  update : DamlExpr
  controllers : DamlExpr
  observers : DamlExpr

structure DamlDefKey where
  ty : DamlType
  maintainers : DamlExpr
  keyExpr : DamlExpr

structure DamlTemplate where
  name : String
  packageId : String
  modulePath : List String
  fields : List (DamlField DamlType)
  choices : List DamlChoice
  param : String
  implements : List DamlTyConName
  precond : Option DamlExpr
  signatories : DamlExpr
  agreement : DamlExpr
  observers : DamlExpr
  key : Option DamlDefKey
  serializable : Bool

structure DamlRecord where
  name : String
  packageId : String
  modulePath : List String
  fields : List (DamlField DamlType)
  typeParams : List DamlTypeVarWithKind
  serializable : Bool

structure DamlVariant where
  name : String
  packageId : String
  modulePath : List String
  fields : List (DamlField DamlType)
  typeParams : List DamlTypeVarWithKind
  serializable : Bool

structure DamlEnum where
  name : String
  packageId : String
  modulePath : List String
  constructors : List String
  typeParams : List DamlTypeVarWithKind
  serializable : Bool

/-- A Daml data type. -/
inductive DamlData where
  | template (t : DamlTemplate)
  | record (r : DamlRecord)
  | variant (v : DamlVariant)
  | enum (e : DamlEnum)

/-- `DamlData::name`. -/
def DamlData.name : DamlData → String
  | .template t => t.name
  | .record r => r.name
  | .variant v => v.name
  | .enum e => e.name

/-- `DamlData::package_id`. -/
def DamlData.packageId : DamlData → String
  | .template t => t.packageId
  | .record r => r.packageId
  | .variant v => v.packageId
  | .enum e => e.packageId

/-- `DamlData::module_path`. -/
def DamlData.modulePath : DamlData → List String
  | .template t => t.modulePath
  | .record r => r.modulePath
  | .variant v => v.modulePath
  | .enum e => e.modulePath

structure DamlInterfaceMethod where
  name : String
  ty : DamlType

structure DamlInterface where
  name : String
  packageId : String
  modulePath : List String
  param : String
  methods : List DamlInterfaceMethod
  choices : List DamlChoice
  view : DamlType
  requires : List DamlTyConName

structure DamlException where
  name : String
  packageId : String
  modulePath : List String
  message : DamlExpr

structure DamlDefTypeSyn where
  params : List DamlTypeVarWithKind
  ty : DamlType
  name : List String

structure DamlDefValue where
  name : String
  ty : DamlType
  expr : DamlExpr

structure DamlFeatureFlags where
  forbidPartyLiterals : Bool
  dontDivulgeContractIdsInCreateArguments : Bool
  dontDiscloseNonConsumingChoicesToObservers : Bool
deriving DecidableEq, Repr

/-! ### Modules, packages and archives -/

/-- The fields of a `DamlModule` other than its child modules. -/
structure DamlModuleBody where
  path : List String
  flags : DamlFeatureFlags
  synonyms : List DamlDefTypeSyn
  dataTypes : List (String × DamlData)
  interfaces : List (String × DamlInterface)
  exceptions : List (String × DamlException)
  values : List (String × DamlDefValue)
  synthetic : Bool

/-- A module with its child modules. -/
abbrev DamlModule := PathTree String DamlModuleBody

namespace DamlModule

/-- `child_modules`, keyed by name. -/
abbrev childModules (m : DamlModule) : List (String × DamlModule) := PathTree.children m

/-- `child_module_path`. -/
abbrev childModulePath (m : DamlModule) (relativePath : List String) : Option DamlModule :=
  PathTree.get? relativePath m

/-- `data_type`. -/
def dataType (m : DamlModule) (name : String) : Option DamlData := m.val.dataTypes.lookup name

end DamlModule

structure DamlPackage where
  name : String
  packageId : String
  version : Option String
  rootModule : DamlModule

structure DamlArchive where
  name : String
  mainPackageId : String
  packages : List (String × DamlPackage)

namespace DamlArchive

variable (A : DamlArchive)

/-- `DamlArchive::data`. -/
def data (packageId : String) (modulePath : List String) (dataName : String) : Option DamlData := do
  let package ← A.packages.lookup packageId
  let module ← DamlModule.childModulePath package.rootModule modulePath
  DamlModule.dataType module dataName

/-- `data_by_tycon_name`. -/
def dataByTyconName (tyconName : DamlTyConName) : Option DamlData :=
  match tyconName.referenceParts with
  | (packageId, modulePath, dataName) => A.data packageId modulePath dataName

/-- `DamlArchive::interface`. -/
def interface (packageId : String) (modulePath : List String) (name : String) :
    Option DamlInterface := do
  let package ← A.packages.lookup packageId
  let module ← DamlModule.childModulePath package.rootModule modulePath
  (module.val.interfaces.map Prod.snd).find? fun i => i.name = name

/-- `interface_by_tycon_name`. -/
def interfaceByTyconName (tyconName : DamlTyConName) : Option DamlInterface :=
  match tyconName.referenceParts with
  | (packageId, modulePath, name) => A.interface packageId modulePath name

end DamlArchive

end DamlBindings.Lf
