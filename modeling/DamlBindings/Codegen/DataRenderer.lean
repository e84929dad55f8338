import DamlBindings.Codegen.Generics
import DamlBindings.Codegen.ModuleItems

/-!
# The definitions of the generated code

`data_renderer/full/` quotes the definitions of a module, each with the impl blocks of its traits
and methods, and `module_renderer.rs` puts them into modules.  The tokens of an impl block stand
here for the identifiers, paths, types and literals that are quoted in it.
-/

namespace DamlBindings.Codegen

open Lf Worklist

/-- `RenderContext::package_name_for` -/
def RenderContext.packageNameFor (ctx : RenderContext) (packageId : String) : Option String :=
  (ctx.archive.packages.find? fun e => e.2.packageId == packageId).bind fun e =>
    if e.2.name.isEmpty then none else some e.2.name

/-! ### Tokens -/

/-- The tokens `impl <..> name <..> { pub fn new(..) -> Self { Self { .. } } }`. -/
structure NewMethodTokens where
  name : String
  arguments : List FieldTokens
  init : List String
  boundedParams : List ParamTokens
  unboundedParams : List String
  phantoms : List String

/-- The tokens of an impl of `DamlSerializeFrom` or `DamlDeserializeFrom`. -/
structure TraitImplTokens (Body : Type) where
  name : String
  unboundedParams : List String
  bounds : List ParamTokens
  body : List Body

/-- A field that is serialized: its name in the record, and its label and type in the struct. -/
structure SerializedField where
  fieldName : String
  label : String
  ty : TypeTokens

/-- A field that is deserialized. -/
structure DeserializedField where
  fieldName : String
  ty : TypeTokens

/-- The tokens of a record. -/
structure RecordTokens where
  struct : StructTokens
  newMethod : NewMethodTokens
  serialize : TraitImplTokens SerializedField
  deserialize : TraitImplTokens DeserializedField

/-- A match arm: the enum, its constructor in Rust and in Daml, and the data of the constructor. -/
structure MatchArm where
  enumName : String
  constructorIdent : String
  constructor : String
  data : Option TypeTokens

/-- The tokens of a variant or of an enum. -/
structure VariantTokens where
  enumTokens : EnumTokens
  serialize : TraitImplTokens MatchArm
  deserialize : TraitImplTokens MatchArm

/-- The literal of a `DamlIdentifier`, by the name or by the id of its package. -/
inductive IdentifierTokens
  | fromPackageName (packageName moduleName entityName : String)
  | new (packageId moduleName entityName : String)

/-- The structs `FooContract` and `FooContractId` of a template, with their impls. -/
structure ContractTokens where
  name : String
  contractName : String
  contractIdName : String

/-- The method of a choice: its name, the type of its argument and the choice. -/
structure ChoiceTokens where
  method : String
  argTy : TypeTokens
  choice : String

/-- The tokens `impl FooContractId { .. }` with the methods of the choices of an interface, which
name its trait. -/
structure InterfaceChoicesTokens where
  contractIdName : String
  ifacePath : RustPath
  methods : List ChoiceTokens

/-- The tokens of a template. -/
structure TemplateTokens where
  record : RecordTokens
  templateId : String × IdentifierTokens
  createCommand : String
  contract : ContractTokens
  choices : String × List ChoiceTokens
  interfaceImpls : List (RustPath × String)
  interfaceChoices : List InterfaceChoicesTokens

/-- The tokens `pub trait Foo { fn interface_id() -> DamlIdentifier { .. } }`. -/
structure InterfaceTokens where
  traitName : String
  interfaceId : IdentifierTokens

/-- The tokens of a definition. -/
inductive ItemTokens
  | record (t : RecordTokens)
  | variant (t : VariantTokens)
  | enum (t : VariantTokens)
  | template (t : TemplateTokens)
  | interface (t : InterfaceTokens)

/-- The tokens `pub mod name { .. }` with the definitions in it and their tokens, where `path` is
the path of the module that is rendered. -/
inductive RenderedMod where
  | mod (path : List String) (name : String) (items : List (RenderItem × ItemTokens))
    (children : List RenderedMod)

/-! ### Records -/

section Quote

variable (N : Naming)

/-- `quote_new_method`, with the arguments of `quote_method_arguments`. -/
def quoteNewMethod (structName : String) (fields : List (DamlField DamlType))
    (params : List DamlTypeVarWithKind) : Render NewMethodTokens := do
  let name ← quoteEscapedIdent N structName
  let arguments ← fields.mapM (quoteField N)
  let init ← fields.mapM fun field => quoteEscapedIdent N field.name
  let boundedParams ← quoteBoundedParams N params
  let unboundedParams ← quoteUnboundedParams N params
  let phantoms ← (unusedParams params fields).mapM fun param =>
    quoteEscapedIdent N (makeIgnoredIdent param.var)
  pure ⟨name, arguments, init, boundedParams, unboundedParams, phantoms⟩

/-- The head of `quote_serialize_trait_impl` and of `quote_deserialize_trait_impl`, which differ in
the bounds that every parameter gets. -/
def quoteTraitImpl {Body : Type} (name : String) (params : List DamlTypeVarWithKind)
    (body : Render (List Body)) : Render (TraitImplTokens Body) := do
  let name ← quoteEscapedIdent N name
  let unboundedParams ← quoteUnboundedParams N params
  let bounds ← quoteBoundedParams N params
  let body ← body
  pure ⟨name, unboundedParams, bounds, body⟩

/-- `quote_declare_field_serialize_trait_impl` -/
def quoteSerializedField (field : DamlField DamlType) : Render SerializedField := do
  let label ← quoteEscapedIdent N field.name
  let ty ← quoteType N field.ty
  pure ⟨field.name, label, ty⟩

/-- `quote_deserialize_trait_field` -/
def quoteDeserializedField (field : DamlField DamlType) : Render DeserializedField :=
  (fun ty => ⟨field.name, ty⟩) <$> quoteType N field.ty

/-- `quote_daml_record_and_impl` -/
def quoteDamlRecordAndImpl (ctx : RenderContext) (name : String)
    (fields : List (DamlField DamlType)) (params : List DamlTypeVarWithKind) :
    Render RecordTokens := do
  let fields := supportedFields ctx fields
  let struct ← quoteStruct N name fields params
  let newMethod ← quoteNewMethod N name fields params
  let serialize ← quoteTraitImpl N name params (fields.mapM (quoteSerializedField N))
  let deserialize ← quoteTraitImpl N name params (fields.mapM (quoteDeserializedField N))
  pure ⟨struct, newMethod, serialize, deserialize⟩

/-! ### Variants and enums -/

/-- `quote_from_trait_match_arm`: a constructor for the unit type has no data. -/
def quoteFromArm (enumName : String) (variant : DamlField DamlType) : Render MatchArm := do
  let enumIdent ← quoteEscapedIdent N enumName
  let ident ← quoteEscapedIdent N variant.name
  if isUnit variant.ty then pure ⟨enumIdent, ident, variant.name, none⟩
  else do
    let data ← quoteType N variant.ty
    pure ⟨enumIdent, ident, variant.name, some data⟩

/-- `quote_try_from_trait_match_arm`: the type is quoted before it is looked at. -/
def quoteTryFromArm (enumName : String) (variant : DamlField DamlType) : Render MatchArm := do
  let enumIdent ← quoteEscapedIdent N enumName
  let ident ← quoteEscapedIdent N variant.name
  let data ← quoteType N variant.ty
  pure ⟨enumIdent, ident, variant.name, if isUnit variant.ty then none else some data⟩

/-- `quote_daml_variant` -/
def quoteDamlVariant (ctx : RenderContext) (variant : DamlVariant) : Render VariantTokens := do
  let fields := supportedFields ctx variant.fields
  let enumTokens ← quoteVariant N variant.name fields variant.typeParams
  let serialize ←
    quoteTraitImpl N variant.name variant.typeParams (fields.mapM (quoteFromArm N variant.name))
  let deserialize ←
    quoteTraitImpl N variant.name variant.typeParams (fields.mapM (quoteTryFromArm N variant.name))
  pure ⟨enumTokens, serialize, deserialize⟩

/-- `quote_enum` -/
def quoteEnum (daml : DamlEnum) : Render EnumTokens := do
  let name ← quoteEscapedIdent N daml.name
  let boundedParams ← quoteBoundedParams N daml.typeParams
  let unboundedParams ← quoteUnboundedParams N daml.typeParams
  let body ← daml.constructors.mapM fun s => (fun ident => ⟨ident, none⟩) <$> quoteEscapedIdent N s
  pure ⟨name, boundedParams, unboundedParams, body, []⟩

/-- The match arms of an enum. -/
def quoteEnumArm (enumName constructor : String) : Render MatchArm := do
  let enumIdent ← quoteEscapedIdent N enumName
  let ident ← quoteEscapedIdent N constructor
  pure ⟨enumIdent, ident, constructor, none⟩

/-- `quote_daml_enum` -/
def quoteDamlEnum (daml : DamlEnum) : Render VariantTokens := do
  let enumTokens ← quoteEnum N daml
  let serialize ←
    quoteTraitImpl N daml.name daml.typeParams (daml.constructors.mapM (quoteEnumArm N daml.name))
  let deserialize ←
    quoteTraitImpl N daml.name daml.typeParams (daml.constructors.mapM (quoteEnumArm N daml.name))
  pure ⟨enumTokens, serialize, deserialize⟩

/-! ### Templates and interfaces -/

/-- `quote_contract_id_struct_name` -/
def quoteContractIdStructName (structName : String) : Render String :=
  quoteEscapedIdent N (structName ++ "ContractId")

/-- `quote_contract_struct_and_impl`: all of its parts quote the same three names. -/
def quoteContractStructAndImpl (structName : String) : Render ContractTokens := do
  let name ← quoteEscapedIdent N structName
  let contractName ← quoteEscapedIdent N (structName ++ "Contract")
  let contractIdName ← quoteContractIdStructName N structName
  pure ⟨name, contractName, contractIdName⟩

/-- The method of a choice: the first field of the choice is its argument. -/
def quoteChoiceWith (method : String) (choice : DamlChoice) : Render ChoiceTokens := do
  let method ← quoteEscapedIdent N method
  match choice.fields.head? with
  | none => .error .missingArgField
  | some argField => do
    let argTy ← quoteType N argField.ty
    pure ⟨method, argTy, choice.name⟩

/-- `quote_choice_method` -/
def quoteChoiceMethod (structName : String) (choice : DamlChoice) : Render ChoiceTokens := do
  let _ ← quoteEscapedIdent N structName
  quoteChoiceWith N (N.toSnakeCase choice.name ++ "_command") choice

/-- `quote_choice` -/
def quoteChoice (name : String) (items : List DamlChoice) :
    Render (String × List ChoiceTokens) := do
  let methods ← items.mapM (quoteChoiceMethod N name)
  let contractIdName ← quoteContractIdStructName N name
  pure (contractIdName, methods)

/-- `quote_interface_trait_path`: whatever the form of the name is, the path starts at the crate. -/
def quoteInterfaceTraitPath (tycon : DamlTyConName) : Render RustPath := do
  let (packageName, modulePath, dataName) :=
    match tycon with
    | .absolute c => (c.packageName, c.modulePath, c.dataName)
    | .localTyCon c => (c.packageName, c.modulePath, c.dataName)
    | .nonLocal c => (c.targetPackageName, c.targetModulePath, c.dataName)
  let segments ← quotePathSegments N (cratePath packageName modulePath)
  let ident ← quoteEscapedIdent N dataName
  pure ⟨.crate, segments, ident⟩

/-- `quote_interface_path_from_parts` -/
def quoteInterfacePathFromParts (packageName : Option String) (modulePath : List String)
    (entityName : String) : Render RustPath := do
  let segments ← quotePathSegments N (cratePath (packageName.getD "") modulePath)
  let ident ← quoteEscapedIdent N entityName
  pure ⟨.crate, segments, ident⟩

/-- `quote_interface_choices`; there is no impl block without methods. -/
def quoteInterfaceChoices (ctx : RenderContext) (templateName : String)
    (interface : DamlInterface) : Render (Option InterfaceChoicesTokens) := do
  let contractIdName ← quoteContractIdStructName N templateName
  let ifacePath ← quoteInterfacePathFromParts N (ctx.packageNameFor interface.packageId)
    interface.modulePath interface.name
  -- the prefix is meant to keep the methods apart from those of the choices of the template
  let methods ← interface.choices.mapM fun choice =>
    quoteChoiceWith N
      (N.toSnakeCase interface.name ++ "_" ++ N.toSnakeCase choice.name ++ "_command") choice
  pure (if methods.isEmpty then none else some ⟨contractIdName, ifacePath, methods⟩)

/-- The literal of an identifier: by the name of the package, where it has one. -/
def identifierTokens (packageName : Option String) (packageId moduleName entityName : String) :
    IdentifierTokens :=
  match packageName with
  | some name => .fromPackageName name moduleName entityName
  | none => .new packageId moduleName entityName

/-- The interfaces that a template implements and that are in the archive. -/
def implementedInterfaces (ctx : RenderContext) (template : DamlTemplate) : List DamlInterface :=
  template.implements.filterMap ctx.archive.interfaceByTyconName

/-- `quote_daml_template` -/
def quoteDamlTemplate (ctx : RenderContext) (template : DamlTemplate) : Render TemplateTokens := do
  let record ← quoteDamlRecordAndImpl N ctx template.name template.fields []
  let name ← quoteEscapedIdent N template.name
  let templateId := identifierTokens (ctx.packageNameFor template.packageId) template.packageId
    (toModulePath template.modulePath) template.name
  let contract ← quoteContractStructAndImpl N template.name
  let choices ← quoteChoice N template.name template.choices
  let contractIdName ← quoteContractIdStructName N template.name
  -- a trait impl for every interface, also for those that are not in the archive
  let interfaceImpls ← template.implements.mapM fun iface =>
    (fun path => (path, contractIdName)) <$> quoteInterfaceTraitPath N iface
  let interfaceChoices ←
    (implementedInterfaces ctx template).mapM (quoteInterfaceChoices N ctx template.name)
  pure ⟨record, (name, templateId), name, contract, choices, interfaceImpls,
    interfaceChoices.reduceOption⟩

/-- `quote_daml_interface` -/
def quoteDamlInterface (ctx : RenderContext) (interface : DamlInterface) :
    Render InterfaceTokens := do
  let traitName ← quoteEscapedIdent N interface.name
  pure ⟨traitName, identifierTokens (ctx.packageNameFor interface.packageId) interface.packageId
    (toModulePath interface.modulePath) interface.name⟩

/-! ### Modules -/

/-- `quote_data` in `Full` mode, and `quote_daml_interface`. -/
def quoteItem (ctx : RenderContext) : RenderItem → Render ItemTokens
  | .data (.record r) => .record <$> quoteDamlRecordAndImpl N ctx r.name r.fields r.typeParams
  | .data (.variant v) => .variant <$> quoteDamlVariant N ctx v
  | .data (.enum e) => .enum <$> quoteDamlEnum N e
  | .data (.template t) => .template <$> quoteDamlTemplate N ctx t
  | .interface i => .interface <$> quoteDamlInterface N ctx i

mutual

/-- The tokens of a module: those of the modules in it come first, and its name comes last. -/
def renderMod (ctx : RenderContext) : ModTokens → Render RenderedMod
  | .mod path name items children => do
    let children ← renderMods ctx children
    let items ← items.mapM fun i => (fun tokens => (i, tokens)) <$> quoteItem N ctx i
    let ident ← quoteEscapedIdent N (N.toSnakeCase name)
    pure (.mod path ident items children)
termination_by structural t => t

def renderMods (ctx : RenderContext) : List ModTokens → Render (List RenderedMod)
  | [] => .ok []
  | t :: ts => do
    let m ← renderMod ctx t
    let ms ← renderMods ctx ts
    pure (m :: ms)
termination_by structural ts => ts

end

/-- `quote_archive` in `Full` mode. -/
def quoteArchive (matcher : ModuleMatcher) (A : DamlArchive) : Render (List RenderedMod) :=
  (A.packages.flatMap fun e => (quotePackage matcher .full e.2).toList).mapM
    (renderMod N ⟨A, .higherKindedType⟩)

end Quote

/-! ### What is quoted -/

section Quoted

variable {N : Naming} {ctx : RenderContext} {f : DamlField DamlType}

lemma of_quoteSerializedField {t : SerializedField} (h : quoteSerializedField N f = .ok t) :
    t.fieldName = f.name ∧ quoteType N f.ty = .ok t.ty := by
  simp only [quoteSerializedField, Except.bind_eq_ok, Except.pure_eq_ok] at h
  obtain ⟨_, -, ty, hty, rfl⟩ := h
  exact ⟨rfl, hty⟩

lemma of_quoteDeserializedField {t : DeserializedField}
    (h : quoteDeserializedField N f = .ok t) :
    t.fieldName = f.name ∧ quoteType N f.ty = .ok t.ty := by
  obtain ⟨ty, hty, rfl⟩ := Except.map_eq_ok.1 h
  exact ⟨rfl, hty⟩

lemma of_quoteFromArm {enumName : String} {arm : MatchArm}
    (h : quoteFromArm N enumName f = .ok arm) :
    arm.constructor = f.name ∧ IsData N f.ty arm.data := by
  rw [quoteFromArm, Except.bind_eq_ok] at h
  obtain ⟨_, -, h⟩ := h
  obtain ⟨_, -, h⟩ := Except.bind_eq_ok.1 h
  rw [IsData]
  split_ifs at h ⊢
  · cases h
    exact ⟨rfl, rfl⟩
  · obtain ⟨data, hdata, h⟩ := Except.bind_eq_ok.1 h
    cases h
    exact ⟨rfl, data, hdata, rfl⟩

lemma of_quoteTryFromArm {enumName : String} {arm : MatchArm}
    (h : quoteTryFromArm N enumName f = .ok arm) :
    arm.constructor = f.name ∧ IsData N f.ty arm.data := by
  simp only [quoteTryFromArm, Except.bind_eq_ok, Except.pure_eq_ok] at h
  obtain ⟨_, -, _, -, data, hdata, rfl⟩ := h
  refine ⟨rfl, ?_⟩
  rw [IsData]
  split_ifs
  · rfl
  · exact ⟨data, hdata, rfl⟩

lemma of_quoteEnumArm {enumName constructor : String} {arm : MatchArm}
    (h : quoteEnumArm N enumName constructor = .ok arm) :
    arm.constructor = constructor ∧ arm.data = none := by
  simp only [quoteEnumArm, Except.bind_eq_ok, Except.pure_eq_ok] at h
  obtain ⟨_, -, _, -, rfl⟩ := h
  exact ⟨rfl, rfl⟩

lemma body_of_quoteTraitImpl {Body : Type} {name : String} {params : List DamlTypeVarWithKind}
    {body : Render (List Body)} {t : TraitImplTokens Body}
    (h : quoteTraitImpl N name params body = .ok t) : body = .ok t.body := by
  simp only [quoteTraitImpl, Except.bind_eq_ok, Except.pure_eq_ok] at h
  obtain ⟨_, -, _, -, _, -, body, hbody, rfl⟩ := h
  exact hbody

/-- The parts of a record are quoted one by one. -/
structure QuotedRecord (N : Naming) (name : String) (fields : List (DamlField DamlType))
    (params : List DamlTypeVarWithKind) (t : RecordTokens) : Prop where
  struct : QuotedStruct N name fields params t.struct
  arguments : fields.mapM (quoteField N) = .ok t.newMethod.arguments
  serialize : fields.mapM (quoteSerializedField N) = .ok t.serialize.body
  deserialize : fields.mapM (quoteDeserializedField N) = .ok t.deserialize.body

lemma quotedRecord_of_ok {name : String} {fields : List (DamlField DamlType)}
    {params : List DamlTypeVarWithKind} {t : RecordTokens}
    (h : quoteDamlRecordAndImpl N ctx name fields params = .ok t) :
    QuotedRecord N name (supportedFields ctx fields) params t := by
  simp only [quoteDamlRecordAndImpl, quoteNewMethod, Except.bind_eq_ok, Except.pure_eq_ok] at h
  obtain ⟨struct, hstruct, _, ⟨_, -, arguments, harguments, _, -, _, -, _, -, _, -, rfl⟩,
    serialize, hserialize, deserialize, hdeserialize, rfl⟩ := h
  exact ⟨quotedStruct_of_ok hstruct, harguments, body_of_quoteTraitImpl hserialize,
    body_of_quoteTraitImpl hdeserialize⟩

/-- The parts of a variant are quoted one by one. -/
structure QuotedVariant (N : Naming) (ctx : RenderContext) (v : DamlVariant)
    (t : VariantTokens) : Prop where
  enumTokens : QuotedEnum N v.name (supportedFields ctx v.fields) v.typeParams t.enumTokens
  serialize : (supportedFields ctx v.fields).mapM (quoteFromArm N v.name) = .ok t.serialize.body
  deserialize :
    (supportedFields ctx v.fields).mapM (quoteTryFromArm N v.name) = .ok t.deserialize.body

lemma quotedVariant_of_ok {v : DamlVariant} {t : VariantTokens}
    (h : quoteDamlVariant N ctx v = .ok t) : QuotedVariant N ctx v t := by
  simp only [quoteDamlVariant, Except.bind_eq_ok, Except.pure_eq_ok] at h
  obtain ⟨enumTokens, henum, serialize, hserialize, deserialize, hdeserialize, rfl⟩ := h
  exact ⟨quotedEnum_of_ok henum, body_of_quoteTraitImpl hserialize,
    body_of_quoteTraitImpl hdeserialize⟩

/-- The tokens of an enum without data. -/
structure QuotedConstructors (N : Naming) (e : DamlEnum) (t : EnumTokens) : Prop where
  name : quoteEscapedIdent N e.name = .ok t.name
  boundedParams : quoteBoundedParams N e.typeParams = .ok t.boundedParams
  body : e.constructors.mapM (fun s => (fun ident => (⟨ident, none⟩ : ConstructorTokens)) <$>
    quoteEscapedIdent N s) = .ok t.body

lemma quotedConstructors_of_ok {e : DamlEnum} {t : EnumTokens} (h : quoteEnum N e = .ok t) :
    QuotedConstructors N e t := by
  simp only [quoteEnum, Except.bind_eq_ok, Except.pure_eq_ok] at h
  obtain ⟨_, hname, _, hbounded, _, -, body, hbody, rfl⟩ := h
  exact ⟨hname, hbounded, hbody⟩

/-- Its constructors are quoted without data. -/
lemma of_quoteConstructorIdent {s : String} {c : ConstructorTokens}
    (h : (fun ident => (⟨ident, none⟩ : ConstructorTokens)) <$> quoteEscapedIdent N s = .ok c) :
    c.name = escapeIdentifier s ∧ c.data = none := by
  obtain ⟨ident, hident, rfl⟩ := Except.map_eq_ok.1 h
  exact ⟨(quoteEscapedIdent_eq_ok.1 hident).2.symm, rfl⟩

/-- The parts of an enum are quoted one by one. -/
structure QuotedDamlEnum (N : Naming) (e : DamlEnum) (t : VariantTokens) : Prop where
  enumTokens : QuotedConstructors N e t.enumTokens
  serialize : e.constructors.mapM (quoteEnumArm N e.name) = .ok t.serialize.body
  deserialize : e.constructors.mapM (quoteEnumArm N e.name) = .ok t.deserialize.body

lemma quotedDamlEnum_of_ok {e : DamlEnum} {t : VariantTokens} (h : quoteDamlEnum N e = .ok t) :
    QuotedDamlEnum N e t := by
  simp only [quoteDamlEnum, Except.bind_eq_ok, Except.pure_eq_ok] at h
  obtain ⟨enumTokens, henum, serialize, hserialize, deserialize, hdeserialize, rfl⟩ := h
  exact ⟨quotedConstructors_of_ok henum, body_of_quoteTraitImpl hserialize,
    body_of_quoteTraitImpl hdeserialize⟩

/-- The record of a template is quoted first. -/
lemma record_of_quoteDamlTemplate {template : DamlTemplate} {t : TemplateTokens}
    (h : quoteDamlTemplate N ctx template = .ok t) :
    QuotedRecord N template.name (supportedFields ctx template.fields) [] t.record := by
  obtain ⟨record, hrecord, h⟩ := Except.bind_eq_ok.1 h
  simp only [Except.bind_eq_ok, Except.pure_eq_ok] at h
  obtain ⟨_, -, _, -, _, -, _, -, _, -, _, -, rfl⟩ := h
  exact quotedRecord_of_ok hrecord

end Quoted

end DamlBindings.Codegen
