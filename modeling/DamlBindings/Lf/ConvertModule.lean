import DamlBindings.Lf.ConvertExpr

/-!
# Conversion of modules, packages and archives

`convert.rs` with `convert/template_payload.rs`, `convert/interface_payload.rs`,
`convert/exception_payload.rs`, `convert/defvalue_payload.rs` and `convert/archive_payload.rs`.

The list of modules of a package becomes a tree.  A module is converted first, and then put
in its place: the nodes on the way are created empty, the module overwrites the body of the
node at its path, and the data types with a dotted name go to child modules of it, which are
created as synthetic where they are missing.
-/

namespace DamlBindings.Lf

open Proto

/-- `field.as_ref().map(f).transpose()`. -/
def transpose {α β : Type} (f : α → ConvertRun β) : Option α → ConvertRun (Option β)
  | none => .ok none
  | some a => some <$> f a

@[simp] lemma transpose_none {α β : Type} (f : α → ConvertRun β) :
    transpose f none = .ok none := rfl

@[simp] lemma transpose_some {α β : Type} (f : α → ConvertRun β) (a : α) :
    transpose f (some a) = some <$> f a := rfl

/-- A data type with the place where it goes: below its module, along the prefix of its dotted
name, under the last segment. -/
structure PlacedData where
  extraPath : List String
  key : String
  data : DamlData

/-- A converted module that has not been put in its place yet. -/
structure ModuleLeaf where
  path : List String
  flags : DamlFeatureFlags
  dataTypes : List PlacedData
  synonyms : List DamlDefTypeSyn
  interfaces : List (String × DamlInterface)
  exceptions : List (String × DamlException)
  values : List (String × DamlDefValue)

namespace DamlPackageTables

variable (P : DamlPackageTables) (fuel : Nat)

/-- `convert_expr(field.as_ref().req()?)`. -/
def expr (proto : Option Expr) : ConvertRun DamlExpr := required proto (P.convertExpr fuel)

/-! ### Definitions of a module -/

/-- The argument of a choice: a field with the name and the type of the binder. -/
def convertArgBinder (proto : VarWithType) : ConvertRun (DamlField DamlType) :=
  DamlField.mk <$> P.string proto.varInternedStr <*> P.type fuel proto.type

/-- `convert_choice`. -/
def convertChoice (modulePath : List String) (proto : TemplateChoice) : ConvertRun DamlChoice :=
  if proto.authorizers.isSome then
    .error (.err (.unsupportedFeatureUsed P.languageVersion.toString
      "TemplateChoice.authorizers (LF2.dev-only)" "2.dev"))
  else
    (fun name selfBinder argField returnType update controllers observers =>
        { name := name
          packageId := P.packageId
          modulePath := modulePath
          fields := [argField]
          returnType := returnType
          consuming := proto.consuming
          selfBinder := selfBinder
          update := update
          controllers := controllers
          observers := observers }) <$>
      P.string proto.nameInternedStr <*> P.string proto.selfBinderInternedStr <*>
      required proto.argBinder (P.convertArgBinder fuel) <*> P.type fuel proto.retType <*>
      P.expr fuel proto.update <*> P.expr fuel proto.controllers <*> P.expr fuel proto.observers

/-- `convert_def_key`. -/
def convertDefKey (proto : DefKey) : ConvertRun DamlDefKey :=
  DamlDefKey.mk <$> P.type fuel proto.type <*> P.expr fuel proto.maintainers <*>
    P.expr fuel proto.keyExpr

/-- `convert_implements`. -/
def convertImplements (implements : List Implements) : ConvertRun (List DamlTyConName) :=
  implements.mapM fun i => P.tycon i.interface

/-- `agreement_placeholder`. -/
def agreementPlaceholder : DamlExpr := .primLit (.text "")

/-- `build_template`. -/
def buildTemplate (template : DefTemplate) (name : String) (modulePath : List String)
    (fields : List (DamlField DamlType)) (serializable : Bool) : ConvertRun DamlTemplate :=
  (fun param choices key implements precond signatories observers =>
      -- the agreement is gone in this version of the language, and a placeholder stands for it
      { name := name
        packageId := P.packageId
        modulePath := modulePath
        fields := fields
        choices := choices
        param := param
        implements := implements
        precond := precond
        signatories := signatories
        agreement := agreementPlaceholder
        observers := observers
        key := key
        serializable := serializable }) <$>
    P.string template.paramInternedStr <*>
    template.choices.mapM (P.convertChoice fuel modulePath) <*>
    transpose (P.convertDefKey fuel) template.key <*>
    P.convertImplements template.implements <*>
    transpose (P.convertExpr fuel) template.precond <*>
    P.expr fuel template.signatories <*> P.expr fuel template.observers

/-- The index of the templates of a module by the name of their record. -/
def templateByTycon (module : Module) : List (Int × DefTemplate) :=
  AssocMap.ofList (module.templates.map fun t => (t.tyconInternedDname, t))

/-- `build_data_type`: nothing for the marker of an interface. -/
def buildDataType (templates : List (Int × DefTemplate)) (modulePath : List String) (name : String)
    (payload : DefDataType) : ConvertRun (Option DamlData) := do
  let typeParams ← P.convertTypeParams fuel payload.params
  match payload.dataCons with
  | .record fields => do
    let damlFields ← fields.mapM (P.convertField fuel)
    match templates.lookup payload.nameInternedDname with
    | some template =>
      (fun t => some (.template t)) <$>
        P.buildTemplate fuel template name modulePath damlFields payload.serializable
    | none =>
      pure (some (.record
        { name := name
          packageId := P.packageId
          modulePath := modulePath
          fields := damlFields
          typeParams := typeParams
          serializable := payload.serializable }))
  | .variant fields => do
    let damlFields ← fields.mapM (P.convertField fuel)
    pure (some (.variant
      { name := name
        packageId := P.packageId
        modulePath := modulePath
        fields := damlFields
        typeParams := typeParams
        serializable := payload.serializable }))
  | .enum constructorsInternedStr => do
    let constructors ← Run.lift (P.resolveStrings constructorsInternedStr)
    pure (some (.enum
      { name := name
        packageId := P.packageId
        modulePath := modulePath
        constructors := constructors
        typeParams := typeParams
        serializable := payload.serializable }))
  | .interface => pure none
  | .unset => .error (.err .missingRequiredField)

/-- One round of the loop of `build_data_types`. -/
def placeDataType (module : Module) (modulePath : List String) (payload : DefDataType) :
    ConvertRun (Option PlacedData) := do
  let path ← Run.lift (P.resolveDotted payload.nameInternedDname)
  let (lastSeg, extraPath) ← Run.lift (splitDataName path)
  let data ← P.buildDataType fuel (templateByTycon module) (modulePath ++ extraPath) lastSeg payload
  pure (data.map fun data => ⟨extraPath, lastSeg, data⟩)

/-- `build_data_types`, before the data types are sorted into direct and nested ones. -/
def buildDataTypes (module : Module) (modulePath : List String) : ConvertRun (List PlacedData) :=
  List.reduceOption <$> module.dataTypes.mapM (P.placeDataType fuel module modulePath)

/-- One definition of `build_synonyms`. -/
def buildSynonym (modulePath : List String) (syn : DefTypeSyn) : ConvertRun DamlDefTypeSyn :=
  (fun nameSegments params ty => ⟨params, ty, modulePath ++ nameSegments⟩) <$>
    Run.lift (P.resolveDotted syn.nameInternedDname) <*> P.convertTypeParams fuel syn.params <*>
    P.type fuel syn.type

/-- `build_synonyms`. -/
def buildSynonyms (module : Module) (modulePath : List String) : ConvertRun (List DamlDefTypeSyn) :=
  module.synonyms.mapM (P.buildSynonym fuel modulePath)

/-- The last segment of a name and the segments before it, for an interface or an exception. -/
def splitDefinitionName (what : String) (index : Int) :
    DamlLfConvertResult (String × List String) := do
  let nameSegments ← P.resolveDotted index
  match nameSegments.getLast? with
  | some name => pure (name, nameSegments.dropLast)
  | none =>
    .error (.internalError (what ++ " " ++ toString index ++ " resolves to an empty dotted-name"))

/-- `convert_method`. -/
def convertMethod (proto : InterfaceMethod) : ConvertRun DamlInterfaceMethod :=
  DamlInterfaceMethod.mk <$> P.string proto.methodInternedName <*> P.type fuel proto.type

/-- `convert_interface`. -/
def convertInterface (modulePath : List String) (proto : DefInterface) :
    ConvertRun DamlInterface := do
  -- the segments in front of the name extend the module path, for the choices as well
  let (name, extraPath) ←
    Run.lift (P.splitDefinitionName "interface tycon_interned_dname" proto.tyconInternedDname)
  (fun param methods choices view requires =>
      { name := name
        packageId := P.packageId
        modulePath := modulePath ++ extraPath
        param := param
        methods := methods
        choices := choices
        view := view
        requires := requires }) <$>
    P.string proto.paramInternedStr <*> proto.methods.mapM (P.convertMethod fuel) <*>
    proto.choices.mapM (P.convertChoice fuel (modulePath ++ extraPath)) <*>
    P.type fuel proto.view <*> proto.requires.mapM fun r => P.tycon (some r)

/-- `build_interfaces`. -/
def buildInterfaces (module : Module) (modulePath : List String) :
    ConvertRun (List (String × DamlInterface)) :=
  (fun is => AssocMap.ofList (is.map fun i => (i.name, i))) <$>
    module.interfaces.mapM (P.convertInterface fuel modulePath)

/-- `convert_exception`. -/
def convertException (modulePath : List String) (proto : DefException) :
    ConvertRun DamlException := do
  let (name, extraPath) ←
    Run.lift (P.splitDefinitionName "exception name_interned_dname" proto.nameInternedDname)
  (fun message => ⟨name, P.packageId, modulePath ++ extraPath, message⟩) <$>
    P.expr fuel proto.message

/-- `build_exceptions`. -/
def buildExceptions (module : Module) (modulePath : List String) :
    ConvertRun (List (String × DamlException)) :=
  (fun es => AssocMap.ofList (es.map fun e => (e.name, e))) <$>
    module.exceptions.mapM (P.convertException fuel modulePath)

/-- The name and the type of `convert_def_value`; the dotted name is one string. -/
def convertNameWithType (proto : NameWithType) : ConvertRun (String × DamlType) :=
  (fun nameSegments ty => (".".intercalate nameSegments, ty)) <$>
    Run.lift (P.resolveDotted proto.nameInternedDname) <*> P.type fuel proto.type

/-- `convert_def_value`. -/
def convertDefValue (proto : DefValue) : ConvertRun DamlDefValue :=
  (fun nameWithType expr => ⟨nameWithType.1, nameWithType.2, expr⟩) <$>
    required proto.nameWithType (P.convertNameWithType fuel) <*> P.expr fuel proto.expr

/-- `build_values`. -/
def buildValues (module : Module) : ConvertRun (List (String × DamlDefValue)) :=
  (fun vs => AssocMap.ofList (vs.map fun v => (v.name, v))) <$>
    module.values.mapM (P.convertDefValue fuel)

/-! ### Modules -/

/-- The checks of `insert_module`: the LF1-era semantics are rejected. -/
def checkFlags (flags : ModuleFlags) : DamlLfConvertResult Unit :=
  if !flags.forbidPartyLiterals then
    .error (.unsupportedFeatureUsed P.languageVersion.toString
      "party-literal syntax (LF1-only; use the Party type instead)" "LF1")
  else if !flags.dontDivulgeContractIdsInCreateArguments then
    .error (.unsupportedFeatureUsed P.languageVersion.toString
      "contract-id divulgence in create arguments (LF1-only)" "LF1")
  else if !flags.dontDiscloseNonConsumingChoicesToObservers then
    .error (.unsupportedFeatureUsed P.languageVersion.toString
      "non-consuming choice disclosure to observers (LF1-only)" "LF1")
  else .ok ()

/-- `DamlModulePayload::path`. -/
def modulePath (module : DamlModulePayload) : DamlLfConvertResult (List String) :=
  P.resolveDotted module.nameIndex

/-- The conversions of `insert_module`, in their order. -/
def convertModule (payload : DamlModulePayload) : ConvertRun ModuleLeaf := do
  let path ← Run.lift (P.modulePath payload)
  Run.lift (P.checkFlags payload.flags)
  let flags := payload.flags
  (fun dataTypes synonyms interfaces exceptions values =>
      { path := path
        flags :=
          { forbidPartyLiterals := flags.forbidPartyLiterals
            dontDivulgeContractIdsInCreateArguments := flags.dontDivulgeContractIdsInCreateArguments
            dontDiscloseNonConsumingChoicesToObservers :=
              flags.dontDiscloseNonConsumingChoicesToObservers }
        dataTypes := dataTypes
        synonyms := synonyms
        interfaces := interfaces
        exceptions := exceptions
        values := values }) <$>
    P.buildDataTypes fuel payload.module path <*> P.buildSynonyms fuel payload.module path <*>
    P.buildInterfaces fuel payload.module path <*> P.buildExceptions fuel payload.module path <*>
    P.buildValues fuel payload.module

end DamlPackageTables

namespace DamlModuleBody

/-- `new_empty`, without the children. -/
def newEmpty (path : List String) : DamlModuleBody where
  path := path
  flags := ⟨true, true, true⟩
  synonyms := []
  dataTypes := []
  interfaces := []
  exceptions := []
  values := []
  synthetic := false

/-- The child that `child_module_or_new` creates. -/
def newChild (parent : DamlModuleBody) (name : String) : DamlModuleBody :=
  newEmpty (parent.path ++ [name])

/-- `new_empty`, marked synthetic. -/
def newSynthetic (path : List String) : DamlModuleBody := { newEmpty path with synthetic := true }

/-- The child that `synthetic_child_or_new` creates. -/
def newSyntheticChild (parent : DamlModuleBody) (name : String) : DamlModuleBody :=
  newSynthetic (parent.path ++ [name])

/-- `insert_data_type`. -/
def insertDataType (name : String) (data : DamlData) (body : DamlModuleBody) : DamlModuleBody :=
  { body with dataTypes := AssocMap.insert name data body.dataTypes }

/-- `take_from`. -/
def takeFrom (leaf : ModuleLeaf) (body : DamlModuleBody) : DamlModuleBody :=
  { body with
    flags := leaf.flags
    -- The data types of the node are replaced, whatever was there.
    dataTypes := AssocMap.ofList
      ((leaf.dataTypes.filter (·.extraPath.isEmpty)).map fun d => (d.data.name, d.data))
    synonyms := leaf.synonyms
    interfaces := leaf.interfaces
    exceptions := leaf.exceptions
    values := leaf.values
    synthetic := false }

end DamlModuleBody

namespace DamlModule

/-- `new_root`. -/
def newRoot : DamlModule := .node (.newEmpty []) []

/-- Put a data type with a dotted name below its module. -/
def insertNested (cursor : DamlModule) (d : PlacedData) : DamlModule :=
  PathTree.alter DamlModuleBody.newSyntheticChild
    (PathTree.modifyVal (.insertDataType d.key d.data))
    d.extraPath cursor

/-- The nested data types of a module. -/
def nestedData (leaf : ModuleLeaf) : List PlacedData :=
  leaf.dataTypes.filter (!·.extraPath.isEmpty)

/-- `insert_module`, once the module is converted. -/
def insertLeaf (root : DamlModule) (leaf : ModuleLeaf) : DamlModule :=
  PathTree.alter DamlModuleBody.newChild
    (fun cursor =>
      (nestedData leaf).foldl insertNested (PathTree.modifyVal (.takeFrom leaf) cursor))
    leaf.path root

end DamlModule

/-! ### Packages and archives -/

namespace DamlPackagePayload

variable (fuel : Nat)

/-- `build_module_tree`. -/
def buildModuleTree (payload : DamlPackagePayload) : ConvertRun DamlModule :=
  payload.modules.foldlM
    (fun root module => DamlModule.insertLeaf root <$> payload.convertModule fuel module)
    DamlModule.newRoot

/-- `build_package`. -/
def buildPackage (payload : DamlPackagePayload) : ConvertRun DamlPackage :=
  (fun root => ⟨payload.name, payload.packageId, payload.version, root⟩) <$>
    payload.buildModuleTree fuel

end DamlPackagePayload

/-- `DamlArchivePayload`: the packages of an archive, under their package ids. -/
structure DamlArchivePayload where
  archiveName : String
  mainPackageId : String
  packages : List (String × DamlPackagePayload)
  nodup : (AssocMap.keys packages).Nodup
  keyed : ∀ e ∈ packages, e.2.packageId = e.1

/-- A decoded LF2 archive with its hash. -/
structure DamlLfArchive where
  name : String
  hash : String
  languageVersion : LanguageVersion
  package : Proto.Package

/-- A DAR: a main archive and its dependencies. -/
structure DarFile where
  main : DamlLfArchive
  dependencies : List DamlLfArchive

namespace DamlArchivePayload

/-- `from_single_package`. -/
def fromSinglePackage (package : DamlPackagePayload) : DamlArchivePayload where
  archiveName := "unnamed"
  mainPackageId := package.packageId
  packages := [(package.packageId, package)]
  nodup := List.nodup_singleton _
  keyed := List.forall_mem_singleton.2 rfl

/-- The packages of a DAR under their ids, each with the names of all of them. -/
def ofPayloads (archiveName mainPackageId : String) (payloads : List DamlPackagePayload) :
    DamlArchivePayload :=
  let packages := AssocMap.ofList (payloads.map fun p => (p.packageId, p))
  let namesTable := AssocMap.mapValues (fun p : DamlPackagePayload => p.name) packages
  { archiveName := archiveName
    mainPackageId := mainPackageId
    packages :=
      AssocMap.mapValues (fun p : DamlPackagePayload => { p with pkgNames := namesTable }) packages
    nodup := by
      rw [AssocMap.keys_mapValues]
      exact AssocMap.nodup_keys_ofList _
    keyed := by
      intro e he
      obtain ⟨p, hp, rfl⟩ := List.mem_map.1 he
      obtain ⟨payload, -, rfl⟩ := List.mem_map.1 (AssocMap.mem_of_mem_ofList hp)
      rfl }

/-- `DamlArchivePayload::try_from`. -/
def tryFrom (dar : DarFile) : DamlLfConvertResult DamlArchivePayload :=
  ofPayloads dar.main.name dar.main.hash <$>
    (dar.main :: dar.dependencies).mapM fun dalf =>
      DamlPackagePayload.tryFrom dalf.hash dalf.languageVersion dalf.package

/-- `build_archive`. -/
def buildArchive (fuel : Nat) (payload : DamlArchivePayload) : ConvertRun DamlArchive :=
  (fun packages => ⟨payload.archiveName, payload.mainPackageId, AssocMap.ofList packages⟩) <$>
    payload.packages.mapM fun e => (e.2.packageId, ·) <$> e.2.buildPackage fuel

end DamlArchivePayload

end DamlBindings.Lf
