import DamlBindings.Codegen.DataRenderer
import DamlBindings.Lf.DataIdentity
import DamlBindings.Lf.Integrity

/-!
# When a definition is rendered

A definition is rendered if none of the names that are quoted in it is refused and no type in it is
unsupported.  The impl blocks of a definition quote what the definition itself quotes, so they
never decide.
-/

namespace DamlBindings.Codegen

open Lf Worklist

/-- The renderer does not panic. -/
def Renders {α : Type} (x : Render α) : Prop := ∃ a, x = .ok a

section Renders

variable {α β γ : Type}

@[simp] lemma renders_ok (a : α) : Renders (.ok a) := ⟨a, rfl⟩

@[simp] lemma renders_pure (a : α) : Renders (pure a) := ⟨a, rfl⟩

@[simp] lemma not_renders_error (e : RenderPanic) : ¬ Renders (.error e : Render α) := by
  rintro ⟨a, h⟩
  cases h

lemma renders_bind {x : Render α} {f : α → Render β} :
    Renders (x >>= f) ↔ ∃ a, x = .ok a ∧ Renders (f a) := by
  constructor
  · rintro ⟨b, hb⟩
    obtain ⟨a, ha, hb⟩ := Except.bind_eq_ok.1 hb
    exact ⟨a, ha, b, hb⟩
  · rintro ⟨a, ha, b, hb⟩
    exact ⟨b, Except.bind_eq_ok.2 ⟨a, ha, hb⟩⟩

/-- Whether the rest is rendered may not depend on what comes first. -/
lemma renders_bind_iff {x : Render α} {f : α → Render β} {p : Prop}
    (h : ∀ a, Renders (f a) ↔ p) : Renders (x >>= f) ↔ Renders x ∧ p := by
  rw [renders_bind]
  constructor
  · rintro ⟨a, ha, hf⟩
    exact ⟨⟨a, ha⟩, (h a).1 hf⟩
  · rintro ⟨⟨a, ha⟩, hp⟩
    exact ⟨a, ha, (h a).2 hp⟩

@[simp] lemma renders_map {x : Render α} {f : α → β} : Renders (f <$> x) ↔ Renders x := by
  cases x with
  | ok a => exact iff_of_true ⟨f a, rfl⟩ ⟨a, rfl⟩
  | error e => exact iff_of_false (not_renders_error e) (not_renders_error e)

@[simp] lemma renders_mapM {f : γ → Render β} {as : List γ} :
    Renders (as.mapM f) ↔ ∀ a ∈ as, Renders (f a) := by
  constructor
  · rintro ⟨bs, hbs⟩ a ha
    obtain ⟨b, -, hb⟩ := (Except.mapM_eq_ok.1 hbs).exists_right ha
    exact ⟨b, hb⟩
  · intro h
    obtain ⟨bs, hbs⟩ := List.exists_forall₂ h
    exact ⟨bs, Except.mapM_eq_ok.2 hbs⟩

@[simp] lemma renders_bind_pure {x : Render α} {f : α → β} :
    Renders (x >>= fun a => pure (f a)) ↔ Renders x := by
  rw [renders_bind_iff (p := True) fun a => iff_true_intro (renders_pure (f a)), and_true]

end Renders

section Quote

variable {N : Naming} {ctx : RenderContext}

/-- The text is quoted, with what escapes it. -/
abbrev Quotes (N : Naming) (value : String) : Prop := Renders (quoteEscapedIdent N value)

lemma renders_quoteIdent {value : String} :
    Renders (quoteIdent N value) ↔ N.isIdent value = true := by
  unfold quoteIdent
  split_ifs with h
  · simp [h]
  · simp [h]

/-! ### Types -/

/-- A type is rendered if at every node that is rendered the constructor is. -/
lemma renders_quoteType {t : DamlType} :
    Renders (quoteType N t) ↔
      ∀ s, Reaches DamlType.keptArguments t s → Renders (quoteHead N s) := by
  induction t using DamlType.arguments_induction with
  | h t ih =>
    have hstep : Renders (quoteType N t) ↔
        Renders (quoteHead N t) ∧ ∀ a ∈ t.keptArguments, Renders (quoteType N a) := by
      rw [← renders_mapM]
      constructor
      · rintro ⟨tokens, h⟩
        obtain ⟨head, hhead, args, hargs, -⟩ := quoteType_eq_ok.1 h
        exact ⟨⟨head, hhead⟩, ⟨args, hargs⟩⟩
      · rintro ⟨⟨head, hhead⟩, ⟨args, hargs⟩⟩
        exact ⟨_, quoteType_eq_ok.2 ⟨head, hhead, args, hargs, rfl⟩⟩
    rw [hstep, forall_reaches_iff]
    exact and_congr_right fun _ => forall₂_congr fun a ha =>
      ih a (t.keptArguments_sublist.subset ha)

/-- The segments of the path of a type constructor, before they are escaped. -/
def tyconSegments (N : Naming) : DamlTyConName → List String
  | .localTyCon _ => []
  | .nonLocal c =>
    let targetFullPath := (c.targetPackageName :: c.targetModulePath).map N.toSnakeCase
    targetFullPath.drop (commonPrefixLength
      ((c.sourcePackageName :: c.sourceModulePath).map N.toSnakeCase) targetFullPath)
  | .absolute c => (cratePath c.packageName c.modulePath).map N.toSnakeCase

lemma renders_quotePathSegments {path : List String} :
    Renders (quotePathSegments N path) ↔ ∀ s ∈ path.map N.toSnakeCase, Quotes N s := by
  rw [quotePathSegments, renders_mapM, List.forall_mem_map]

lemma renders_quoteTyconName {n : DamlTyConName} :
    Renders (quoteTyconName N n) ↔ Quotes N n.dataName ∧ ∀ s ∈ tyconSegments N n, Quotes N s := by
  cases n with
  | localTyCon c =>
    show Renders (RustPath.name <$> quoteEscapedIdent N c.dataName) ↔ _
    rw [renders_map, tyconSegments]
    simp [DamlTyConName.dataName]
  | nonLocal c =>
    exact renders_bind_iff fun _ => renders_bind_pure.trans renders_mapM
  | absolute c =>
    exact renders_bind_iff fun _ => renders_bind_pure.trans renders_quotePathSegments

/-! ### Records, variants and enums -/

lemma renders_quoteBoundedParams {params : List DamlTypeVarWithKind} :
    Renders (quoteBoundedParams N params) ↔ ∀ p ∈ params, Renders (quoteVar N p.var) := by
  rw [quoteBoundedParams, renders_mapM]
  exact forall₂_congr fun _ _ => renders_map

lemma renders_quoteUnboundedParams {params : List DamlTypeVarWithKind} :
    Renders (quoteUnboundedParams N params) ↔ ∀ p ∈ params, Renders (quoteVar N p.var) :=
  renders_mapM

lemma renders_quoteField {f : DamlField DamlType} :
    Renders (quoteField N f) ↔ Quotes N f.name ∧ Renders (quoteType N f.ty) :=
  renders_bind_iff fun _ => renders_bind_pure

lemma renders_quoteTraitImpl {Body : Type} {name : String} {params : List DamlTypeVarWithKind}
    {body : Render (List Body)} :
    Renders (quoteTraitImpl N name params body) ↔
      Quotes N name ∧ (∀ p ∈ params, Renders (quoteVar N p.var)) ∧ Renders body := by
  have h : Renders (quoteTraitImpl N name params body) ↔ Quotes N name ∧
      Renders (quoteUnboundedParams N params) ∧ Renders (quoteBoundedParams N params) ∧
        Renders body :=
    renders_bind_iff fun _ => renders_bind_iff fun _ => renders_bind_iff fun _ => renders_bind_pure
  rw [h, renders_quoteUnboundedParams, renders_quoteBoundedParams]
  tauto

/-- What is quoted in a struct. -/
structure StructRenders (N : Naming) (name : String) (fields : List (DamlField DamlType))
    (params : List DamlTypeVarWithKind) : Prop where
  name : Quotes N name
  vars : ∀ p ∈ params, Renders (quoteVar N p.var)
  members : ∀ f ∈ fields, Quotes N f.name ∧ Renders (quoteType N f.ty)
  phantoms : ∀ p ∈ unusedParams params fields, Quotes N (makeIgnoredIdent p.var)

lemma renders_quoteStruct {name : String} {fields : List (DamlField DamlType)}
    {params : List DamlTypeVarWithKind} :
    Renders (quoteStruct N name fields params) ↔ StructRenders N name fields params := by
  have h : Renders (quoteStruct N name fields params) ↔ Quotes N name ∧
      Renders (quoteBoundedParams N params) ∧ Renders (quoteUnboundedParams N params) ∧
        Renders (fields.mapM (quoteField N)) ∧
          Renders ((unusedParams params fields).mapM (quotePhantomParam N)) :=
    renders_bind_iff fun _ => renders_bind_iff fun _ => renders_bind_iff fun _ =>
      renders_bind_iff fun _ => renders_bind_pure
  have hphantom : ∀ p, Renders (quotePhantomParam N p) ↔
      Quotes N (makeIgnoredIdent p.var) ∧ Renders (quoteVar N p.var) :=
    fun p => renders_bind_iff fun _ => renders_bind_pure
  rw [h, renders_quoteBoundedParams, renders_quoteUnboundedParams, renders_mapM, renders_mapM]
  simp only [renders_quoteField, hphantom]
  constructor
  · rintro ⟨hname, hparams, -, hfields, hphantoms⟩
    exact ⟨hname, hparams, hfields, fun p hp => (hphantoms p hp).1⟩
  · rintro ⟨hname, hparams, hfields, hphantoms⟩
    exact ⟨hname, hparams, hparams, hfields,
      fun p hp => ⟨hphantoms p hp, hparams p (List.mem_of_mem_filter hp)⟩⟩

/-- The impl blocks of a record quote what the struct does. -/
lemma renders_quoteDamlRecordAndImpl {name : String} {fields : List (DamlField DamlType)}
    {params : List DamlTypeVarWithKind} :
    Renders (quoteDamlRecordAndImpl N ctx name fields params) ↔
      StructRenders N name (supportedFields ctx fields) params := by
  have h : Renders (quoteDamlRecordAndImpl N ctx name fields params) ↔
      Renders (quoteStruct N name (supportedFields ctx fields) params) ∧
        Renders (quoteNewMethod N name (supportedFields ctx fields) params) ∧
        Renders (quoteTraitImpl N name params
          ((supportedFields ctx fields).mapM (quoteSerializedField N))) ∧
        Renders (quoteTraitImpl N name params
          ((supportedFields ctx fields).mapM (quoteDeserializedField N))) :=
    renders_bind_iff fun _ => renders_bind_iff fun _ => renders_bind_iff fun _ => renders_bind_pure
  rw [h, renders_quoteStruct]
  refine and_iff_left_of_imp fun hstruct => ⟨?_, ?_, ?_⟩
  · have hnew : Renders (quoteNewMethod N name (supportedFields ctx fields) params) ↔
        Quotes N name ∧ Renders ((supportedFields ctx fields).mapM (quoteField N)) ∧
          Renders ((supportedFields ctx fields).mapM fun field => quoteEscapedIdent N field.name) ∧
          Renders (quoteBoundedParams N params) ∧ Renders (quoteUnboundedParams N params) ∧
          Renders ((unusedParams params (supportedFields ctx fields)).mapM fun param =>
            quoteEscapedIdent N (makeIgnoredIdent param.var)) :=
      renders_bind_iff fun _ => renders_bind_iff fun _ => renders_bind_iff fun _ =>
        renders_bind_iff fun _ => renders_bind_iff fun _ => renders_bind_pure
    rw [hnew, renders_quoteBoundedParams, renders_quoteUnboundedParams, renders_mapM, renders_mapM,
      renders_mapM]
    exact ⟨hstruct.name, fun f hf => renders_quoteField.2 (hstruct.members f hf),
      fun f hf => (hstruct.members f hf).1, hstruct.vars, hstruct.vars, hstruct.phantoms⟩
  · rw [renders_quoteTraitImpl, renders_mapM]
    exact ⟨hstruct.name, hstruct.vars,
      fun f hf => (renders_bind_iff fun _ => renders_bind_pure).2 (hstruct.members f hf)⟩
  · rw [renders_quoteTraitImpl, renders_mapM]
    exact ⟨hstruct.name, hstruct.vars, fun f hf => renders_map.2 (hstruct.members f hf).2⟩

/-- What is quoted in an enum with data. -/
structure EnumRenders (N : Naming) (name : String) (fields : List (DamlField DamlType))
    (params : List DamlTypeVarWithKind) : Prop where
  name : Quotes N name
  vars : ∀ p ∈ params, Renders (quoteVar N p.var)
  members : ∀ f ∈ fields, Quotes N f.name ∧ Renders (quoteType N f.ty)

lemma renders_quoteTryFromArm {name : String} {f : DamlField DamlType} :
    Renders (quoteTryFromArm N name f) ↔
      Quotes N name ∧ Quotes N f.name ∧ Renders (quoteType N f.ty) :=
  renders_bind_iff fun _ => renders_bind_iff fun _ => renders_bind_pure

/-- Of a variant, the impl of `DamlDeserializeFrom` quotes all types. -/
lemma renders_quoteDamlVariant {v : DamlVariant} :
    Renders (quoteDamlVariant N ctx v) ↔
      EnumRenders N v.name (supportedFields ctx v.fields) v.typeParams := by
  set fields := supportedFields ctx v.fields
  have h : Renders (quoteDamlVariant N ctx v) ↔
      Renders (quoteVariant N v.name fields v.typeParams) ∧
        Renders (quoteTraitImpl N v.name v.typeParams (fields.mapM (quoteFromArm N v.name))) ∧
        Renders (quoteTraitImpl N v.name v.typeParams (fields.mapM (quoteTryFromArm N v.name))) :=
    renders_bind_iff fun _ => renders_bind_iff fun _ => renders_bind_pure
  rw [h, renders_quoteTraitImpl, renders_quoteTraitImpl, renders_mapM, renders_mapM]
  simp only [renders_quoteTryFromArm]
  constructor
  · rintro ⟨-, -, hname, hparams, hfields⟩
    exact ⟨hname, hparams, fun f hf => (hfields f hf).2⟩
  · rintro ⟨hname, hparams, hfields⟩
    refine ⟨?_, ⟨hname, hparams, fun f hf => ?_⟩, hname, hparams, fun f hf => ⟨hname, hfields f hf⟩⟩
    · have hvariant : Renders (quoteVariant N v.name fields v.typeParams) ↔ Quotes N v.name ∧
          Renders (quoteBoundedParams N v.typeParams) ∧
            Renders (quoteUnboundedParams N v.typeParams) ∧
            Renders (fields.mapM (quoteConstructor N)) ∧
            Renders ((unusedParams v.typeParams fields).mapM fun p => quoteVar N p.var) :=
        renders_bind_iff fun _ => renders_bind_iff fun _ => renders_bind_iff fun _ =>
          renders_bind_iff fun _ => renders_bind_pure
      rw [hvariant, renders_quoteBoundedParams, renders_quoteUnboundedParams, renders_mapM,
        renders_mapM]
      refine ⟨hname, hparams, hparams, fun f hf => ?_,
        fun p hp => hparams p (List.mem_of_mem_filter hp)⟩
      rw [quoteConstructor, renders_bind_iff (p := Renders (quoteType N f.ty) ∨ isUnit f.ty = true)]
      · exact ⟨(hfields f hf).1, .inl (hfields f hf).2⟩
      · intro ident
        split_ifs with hunit
        · simp [hunit]
        · rw [renders_bind_pure]
          simp [hunit]
    · obtain ⟨hf, hty⟩ := hfields f hf
      refine renders_bind.2 ⟨_, hname.choose_spec, renders_bind.2 ⟨_, hf.choose_spec, ?_⟩⟩
      split_ifs with hunit
      · exact renders_pure _
      · exact renders_bind_pure.2 hty

lemma renders_quoteDamlEnum {e : DamlEnum} :
    Renders (quoteDamlEnum N e) ↔ Quotes N e.name ∧
      (∀ p ∈ e.typeParams, Renders (quoteVar N p.var)) ∧ ∀ s ∈ e.constructors, Quotes N s := by
  have h : Renders (quoteDamlEnum N e) ↔ Renders (quoteEnum N e) ∧
      Renders (quoteTraitImpl N e.name e.typeParams (e.constructors.mapM (quoteEnumArm N e.name))) ∧
      Renders (quoteTraitImpl N e.name e.typeParams
        (e.constructors.mapM (quoteEnumArm N e.name))) :=
    renders_bind_iff fun _ => renders_bind_iff fun _ => renders_bind_pure
  have henum : Renders (quoteEnum N e) ↔ Quotes N e.name ∧
      Renders (quoteBoundedParams N e.typeParams) ∧ Renders (quoteUnboundedParams N e.typeParams) ∧
        Renders (e.constructors.mapM fun s =>
          (fun ident => (⟨ident, none⟩ : ConstructorTokens)) <$> quoteEscapedIdent N s) :=
    renders_bind_iff fun _ => renders_bind_iff fun _ => renders_bind_iff fun _ => renders_bind_pure
  have harm : ∀ s, Renders (quoteEnumArm N e.name s) ↔ Quotes N e.name ∧ Quotes N s :=
    fun s => renders_bind_iff fun _ => renders_bind_pure
  rw [h, henum, renders_quoteTraitImpl, renders_quoteBoundedParams, renders_quoteUnboundedParams,
    renders_mapM, renders_mapM]
  simp only [harm, renders_map]
  constructor
  · rintro ⟨⟨hname, hparams, -, hconstructors⟩, -⟩
    exact ⟨hname, hparams, hconstructors⟩
  · rintro ⟨hname, hparams, hconstructors⟩
    have harms := fun s hs => And.intro hname (hconstructors s hs)
    exact ⟨⟨hname, hparams, hparams, hconstructors⟩, ⟨hname, hparams, harms⟩, hname, hparams, harms⟩

/-! ### Templates and interfaces -/

/-- The choice has an argument, and its type is rendered. -/
def ArgumentRenders (N : Naming) (choice : DamlChoice) : Prop :=
  ∃ f, choice.argument? = some f ∧ Renders (quoteType N f.ty)

lemma renders_quoteChoiceWith {method : String} {choice : DamlChoice} :
    Renders (quoteChoiceWith N method choice) ↔ Quotes N method ∧ ArgumentRenders N choice := by
  refine renders_bind_iff fun ident => ?_
  rw [ArgumentRenders, DamlChoice.argument?]
  rcases choice.fields.head? with _ | f
  · simp
  · show Renders (quoteType N f.ty >>= fun argTy =>
      pure (⟨ident, argTy, choice.name⟩ : ChoiceTokens)) ↔ _
    rw [renders_bind_pure]
    simp

lemma renders_quoteChoice {name : String} {items : List DamlChoice} :
    Renders (quoteChoice N name items) ↔
      (∀ c ∈ items, Quotes N name ∧ Quotes N (N.toSnakeCase c.name ++ "_command") ∧
        ArgumentRenders N c) ∧ Quotes N (name ++ "ContractId") := by
  have h : Renders (quoteChoice N name items) ↔
      Renders (items.mapM (quoteChoiceMethod N name)) ∧ Quotes N (name ++ "ContractId") :=
    renders_bind_iff fun _ => renders_bind_pure
  rw [h, renders_mapM]
  refine and_congr_left fun _ => forall₂_congr fun c _ => ?_
  exact renders_bind_iff fun _ => renders_quoteChoiceWith

lemma renders_quoteContractStructAndImpl {name : String} :
    Renders (quoteContractStructAndImpl N name) ↔
      Quotes N name ∧ Quotes N (name ++ "Contract") ∧ Quotes N (name ++ "ContractId") :=
  renders_bind_iff fun _ => renders_bind_iff fun _ => renders_bind_pure

/-- The path from the crate to what a name refers to. -/
def tyconCratePath : DamlTyConName → List String
  | .localTyCon c => cratePath c.packageName c.modulePath
  | .nonLocal c => cratePath c.targetPackageName c.targetModulePath
  | .absolute c => cratePath c.packageName c.modulePath

lemma renders_quoteInterfaceTraitPath {n : DamlTyConName} :
    Renders (quoteInterfaceTraitPath N n) ↔
      (∀ s ∈ (tyconCratePath n).map N.toSnakeCase, Quotes N s) ∧ Quotes N n.dataName := by
  rw [← renders_quotePathSegments]
  cases n <;> exact renders_bind_iff fun _ => renders_bind_pure

/-- The method of a choice of an interface. -/
def interfaceMethod (N : Naming) (i : DamlInterface) (c : DamlChoice) : String :=
  N.toSnakeCase i.name ++ "_" ++ N.toSnakeCase c.name ++ "_command"

/-- The path from the crate to an interface. -/
def interfaceCratePath (ctx : RenderContext) (i : DamlInterface) : List String :=
  cratePath ((ctx.packageNameFor i.packageId).getD "") i.modulePath

/-- What is quoted of an interface that a template implements. -/
structure InterfaceChoicesRender (N : Naming) (ctx : RenderContext) (i : DamlInterface) : Prop where
  path : ∀ s ∈ (interfaceCratePath ctx i).map N.toSnakeCase, Quotes N s
  name : Quotes N i.name
  choices : ∀ c ∈ i.choices, Quotes N (interfaceMethod N i c) ∧ ArgumentRenders N c

lemma renders_quoteInterfacePathFromParts {packageName : Option String} {modulePath : List String}
    {name : String} :
    Renders (quoteInterfacePathFromParts N packageName modulePath name) ↔
      (∀ s ∈ (cratePath (packageName.getD "") modulePath).map N.toSnakeCase, Quotes N s) ∧
        Quotes N name := by
  rw [← renders_quotePathSegments]
  exact renders_bind_iff fun _ => renders_bind_pure

lemma renders_quoteInterfaceChoices {templateName : String} {i : DamlInterface} :
    Renders (quoteInterfaceChoices N ctx templateName i) ↔
      Quotes N (templateName ++ "ContractId") ∧ InterfaceChoicesRender N ctx i := by
  have h : Renders (quoteInterfaceChoices N ctx templateName i) ↔
      Quotes N (templateName ++ "ContractId") ∧
        Renders (quoteInterfacePathFromParts N (ctx.packageNameFor i.packageId)
          i.modulePath i.name) ∧
        Renders (i.choices.mapM fun c => quoteChoiceWith N (interfaceMethod N i c) c) :=
    renders_bind_iff fun _ => renders_bind_iff fun _ => renders_bind_pure
  rw [h, renders_quoteInterfacePathFromParts, renders_mapM]
  simp only [renders_quoteChoiceWith]
  constructor
  · rintro ⟨hid, ⟨hsegments, hname⟩, hchoices⟩
    exact ⟨hid, hsegments, hname, hchoices⟩
  · rintro ⟨hid, hsegments, hname, hchoices⟩
    exact ⟨hid, ⟨hsegments, hname⟩, hchoices⟩

/-- What is quoted in a template. -/
structure TemplateRenders (N : Naming) (ctx : RenderContext) (t : DamlTemplate) : Prop where
  record : StructRenders N t.name (supportedFields ctx t.fields) []
  contract : Quotes N (t.name ++ "Contract")
  contractId : Quotes N (t.name ++ "ContractId")
  choices : ∀ c ∈ t.choices, Quotes N (N.toSnakeCase c.name ++ "_command") ∧ ArgumentRenders N c
  implements : ∀ n ∈ t.implements,
    (∀ s ∈ (tyconCratePath n).map N.toSnakeCase, Quotes N s) ∧ Quotes N n.dataName
  interfaces : ∀ i ∈ implementedInterfaces ctx t, InterfaceChoicesRender N ctx i

lemma renders_quoteDamlTemplate {t : DamlTemplate} :
    Renders (quoteDamlTemplate N ctx t) ↔ TemplateRenders N ctx t := by
  have h : Renders (quoteDamlTemplate N ctx t) ↔
      Renders (quoteDamlRecordAndImpl N ctx t.name t.fields []) ∧ Quotes N t.name ∧
        Renders (quoteContractStructAndImpl N t.name) ∧ Renders (quoteChoice N t.name t.choices) ∧
        Quotes N (t.name ++ "ContractId") ∧
        Renders (t.implements.mapM fun iface =>
          (fun path => (path, t.name)) <$> quoteInterfaceTraitPath N iface) ∧
        Renders ((implementedInterfaces ctx t).mapM (quoteInterfaceChoices N ctx t.name)) := by
    refine renders_bind_iff fun _ => renders_bind_iff fun _ => renders_bind_iff fun _ =>
      renders_bind_iff fun _ => renders_bind_iff fun _ => ?_
    refine (renders_bind_iff fun _ => renders_bind_pure).trans (and_congr_left fun _ => ?_)
    rw [renders_mapM, renders_mapM]
    simp only [renders_map]
  rw [h, renders_quoteDamlRecordAndImpl, renders_quoteContractStructAndImpl, renders_quoteChoice,
    renders_mapM, renders_mapM]
  simp only [renders_map, renders_quoteInterfaceTraitPath, renders_quoteInterfaceChoices]
  constructor
  · rintro ⟨hrecord, -, ⟨-, hcontract, hid⟩, ⟨hchoices, -⟩, -, himplements, hinterfaces⟩
    exact ⟨hrecord, hcontract, hid, fun c hc => (hchoices c hc).2, himplements,
      fun i hi => (hinterfaces i hi).2⟩
  · rintro ⟨hrecord, hcontract, hid, hchoices, himplements, hinterfaces⟩
    exact ⟨hrecord, hrecord.name, ⟨hrecord.name, hcontract, hid⟩,
      ⟨fun c hc => ⟨hrecord.name, hchoices c hc⟩, hid⟩, hid, himplements,
      fun i hi => ⟨hid, hinterfaces i hi⟩⟩

lemma renders_quoteDamlInterface {i : DamlInterface} :
    Renders (quoteDamlInterface N ctx i) ↔ Quotes N i.name := renders_bind_pure

/-- What is quoted in a definition. -/
def ItemRenders (N : Naming) (ctx : RenderContext) : RenderItem → Prop
  | .data (.record r) => StructRenders N r.name (supportedFields ctx r.fields) r.typeParams
  | .data (.variant v) => EnumRenders N v.name (supportedFields ctx v.fields) v.typeParams
  | .data (.enum e) => Quotes N e.name ∧ (∀ p ∈ e.typeParams, Renders (quoteVar N p.var)) ∧
    ∀ s ∈ e.constructors, Quotes N s
  | .data (.template t) => TemplateRenders N ctx t
  | .interface i => Quotes N i.name

lemma renders_quoteItem {i : RenderItem} : Renders (quoteItem N ctx i) ↔ ItemRenders N ctx i := by
  cases i with
  | data d =>
    cases d with
    | record r => exact renders_map.trans renders_quoteDamlRecordAndImpl
    | variant v => exact renders_map.trans renders_quoteDamlVariant
    | enum e => exact renders_map.trans renders_quoteDamlEnum
    | template t => exact renders_map.trans renders_quoteDamlTemplate
  | interface i => exact renders_map.trans renders_quoteDamlInterface

end Quote

/-! ### Modules -/

section Modules

open PathTree

variable {N : Naming} {ctx : RenderContext} {matcher : ModuleMatcher}

lemma renders_renderMods_append {ts ts' : List ModTokens} :
    Renders (renderMods N ctx (ts ++ ts')) ↔
      Renders (renderMods N ctx ts) ∧ Renders (renderMods N ctx ts') := by
  have hcons : ∀ t ts, Renders (renderMods N ctx (t :: ts)) ↔
      Renders (renderMod N ctx t) ∧ Renders (renderMods N ctx ts) :=
    fun t ts => renders_bind_iff fun _ => renders_bind_pure
  induction ts with
  | nil => exact (and_iff_right (renders_ok [])).symm
  | cons t ts ih =>
    rw [List.cons_append, hcons, hcons, and_assoc]
    exact and_congr_right fun _ => ih

lemma renders_renderMods_singleton {t : ModTokens} :
    Renders (renderMods N ctx [t]) ↔ Renders (renderMod N ctx t) :=
  (renders_bind_iff fun _ => renders_bind_pure).trans (and_iff_left (renders_ok []))

/-- A module, from the modules in it, its definitions and its name. -/
lemma renders_renderMod {path : List String} {name : String} {items : List RenderItem}
    {children : List ModTokens} :
    Renders (renderMod N ctx (.mod path name items children)) ↔
      Renders (renderMods N ctx children) ∧ (∀ i ∈ items, ItemRenders N ctx i) ∧
        Quotes N (N.toSnakeCase name) := by
  have h : Renders (renderMod N ctx (.mod path name items children)) ↔
      Renders (renderMods N ctx children) ∧
        Renders (items.mapM fun i => (fun tokens => (i, tokens)) <$> quoteItem N ctx i) ∧
        Quotes N (N.toSnakeCase name) :=
    renders_bind_iff fun _ => renders_bind_iff fun _ => renders_bind_pure
  rw [h, renders_mapM]
  simp only [renders_map, renders_quoteItem]

lemma renders_quoteChildren {childModules : List (String × DamlModule)}
    {ancestorRealIncluded : Bool} :
    Renders (renderMods N ctx (quoteChildren matcher .full childModules ancestorRealIncluded)) ↔
      ∀ c ∈ childModules, Renders (renderMods N ctx
        (quoteModuleTreeInner matcher .full c.2 (localName c.2.val)
          ancestorRealIncluded).toList) := by
  induction childModules with
  | nil => exact iff_of_true (renders_ok []) (by simp)
  | cons c childModules ih =>
    rw [List.forall_mem_cons, ← ih]
    exact renders_renderMods_append

/-- What is quoted on the way to a module that is included, and in the module. -/
structure ModuleRenders (N : Naming) (ctx : RenderContext) (name : String)
    (below : List DamlModuleBody) (b : DamlModuleBody) : Prop where
  name : Quotes N (N.toSnakeCase name)
  below : ∀ b' ∈ below, Quotes N (N.toSnakeCase (localName b'))
  items : ∀ i ∈ quotedItems .full b, ItemRenders N ctx i

/-- A module has tokens if some module at or below it is included. -/
lemma isSome_quoteModuleTreeInner {m : DamlModule} (h : Keyed m) {name : String}
    {ancestorRealIncluded : Bool} :
    (quoteModuleTreeInner matcher .full m name ancestorRealIncluded).isSome = true ↔
      ∃ p b, valAt m p = some b ∧
        (way p m).foldl (childAncestorIncluded matcher) ancestorRealIncluded = true := by
  induction m using PathTree.induction generalizing name ancestorRealIncluded with
  | node body childModules ih =>
    -- `inc` is what the code hands down to the children
    set inc := childAncestorIncluded matcher ancestorRealIncluded body with hinc
    have hchildren : (quoteChildren matcher .full childModules inc).isEmpty = false ↔
        ∃ c ∈ childModules,
          (quoteModuleTreeInner matcher .full c.2 (localName c.2.val) inc).isSome = true := by
      -- this is about the list of the children only, whatever `inc` is
      clear ih h hinc
      induction childModules with
      | nil => simp [quoteChildren]
      | cons c childModules ih =>
        have hcons : quoteChildren matcher .full (c :: childModules) inc =
            (quoteModuleTreeInner matcher .full c.2 (localName c.2.val) inc).toList ++
              quoteChildren matcher .full childModules inc := rfl
        rw [hcons, List.exists_mem_cons_iff, ← ih]
        cases quoteModuleTreeInner matcher .full c.2 (localName c.2.val) inc <;> simp
    have hsome : (quoteModuleTreeInner matcher .full (.node body childModules) name
        ancestorRealIncluded).isSome = true ↔
          inc = true ∨ (quoteChildren matcher .full childModules inc).isEmpty = false := by
      show (if !renderData matcher ancestorRealIncluded body &&
        (quoteChildren matcher .full childModules inc).isEmpty then none
        else some (ModTokens.mod _ _ _ _)).isSome = true ↔ _
      rw [renderData_eq, ← hinc]
      cases inc <;> cases (quoteChildren matcher .full childModules _).isEmpty <;> simp
    rw [hsome, hchildren]
    constructor
    · rintro (hself | ⟨⟨k, c⟩, hc, hsome⟩)
      · exact ⟨[], body, rfl, hself⟩
      · obtain ⟨p, b, hb, hp⟩ := (ih _ hc (h.child hc)).1 hsome
        have hlookup := h.lookup_iff.2 hc
        refine ⟨k :: p, b, valAt_cons_eq_some.2 ⟨c, hlookup, hb⟩, ?_⟩
        rwa [way_cons_of_lookup hlookup, List.foldl_cons]
    · rintro ⟨_ | ⟨k, p⟩, b, hb, hp⟩
      · exact .inl hp
      · obtain ⟨c, hlookup, hb⟩ := valAt_cons_eq_some.1 hb
        rw [way_cons_of_lookup hlookup, List.foldl_cons] at hp
        have hc := h.lookup_iff.1 hlookup
        exact .inr ⟨(k, c), hc, (ih _ hc (h.child hc)).2 ⟨p, b, hb, hp⟩⟩

lemma way_eq_cons (p : List String) (m : DamlModule) : way p m = m.val :: (way p m).tail := by
  cases p <;> rfl

/-- Going down one step, the name of the child is one of those on the way. -/
lemma moduleRenders_below {name : String} {p : List String} {c : DamlModule} {b : DamlModuleBody} :
    ModuleRenders N ctx name (way p c) b ↔ Quotes N (N.toSnakeCase name) ∧
      ModuleRenders N ctx (localName c.val) (way p c).tail b := by
  constructor
  · rintro ⟨hname, hbelow, hitems⟩
    rw [way_eq_cons, List.forall_mem_cons] at hbelow
    exact ⟨hname, hbelow.1, hbelow.2, hitems⟩
  · rintro ⟨hname, hchild, hbelow, hitems⟩
    refine ⟨hname, ?_, hitems⟩
    rw [way_eq_cons, List.forall_mem_cons]
    exact ⟨hchild, hbelow⟩

/-- A module is rendered if what is quoted for the included modules at or below it is. -/
lemma renders_quoteModuleTreeInner {m : DamlModule} (h : Keyed m) {name : String}
    {ancestorRealIncluded : Bool} :
    Renders (renderMods N ctx
        (quoteModuleTreeInner matcher .full m name ancestorRealIncluded).toList) ↔
      ∀ p b, valAt m p = some b →
        (way p m).foldl (childAncestorIncluded matcher) ancestorRealIncluded = true →
        ModuleRenders N ctx name (way p m).tail b := by
  induction m using PathTree.induction generalizing name ancestorRealIncluded with
  | node body childModules ih =>
    have hsome : (quoteModuleTreeInner matcher .full (.node body childModules) name
        ancestorRealIncluded).isSome = true ↔ _ := isSome_quoteModuleTreeInner h
    rcases htokens : quoteModuleTreeInner matcher .full (.node body childModules) name
      ancestorRealIncluded with _ | tokens
    · -- nothing is included
      refine iff_of_true (renders_ok []) fun p b hb hp => ?_
      rw [htokens] at hsome
      exact absurd (hsome.2 ⟨p, b, hb, hp⟩) (by simp)
    obtain ⟨p₀, b₀, hb₀, hp₀⟩ := hsome.1 (by rw [htokens]; rfl)
    set inc := childAncestorIncluded matcher ancestorRealIncluded body with hinc
    have hmod : tokens = .mod body.path name (moduleTokens matcher .full ancestorRealIncluded body)
        (quoteChildren matcher .full childModules inc) := by
      have hdef : (if !renderData matcher ancestorRealIncluded body &&
          (quoteChildren matcher .full childModules inc).isEmpty then none
          else some (ModTokens.mod body.path name
            (moduleTokens matcher .full ancestorRealIncluded body)
            (quoteChildren matcher .full childModules inc))) = some tokens := htokens
      split_ifs at hdef
      exact (Option.some.inj hdef).symm
    rw [Option.toList_some, renders_renderMods_singleton, hmod, renders_renderMod,
      renders_quoteChildren, moduleTokens_eq, ← hinc]
    constructor
    · rintro ⟨hchildren, hitems, hname⟩ (_ | ⟨k, p⟩) b hb hp
      · cases hb
        have hself : inc = true := hp
        rw [hself, if_pos rfl] at hitems
        exact ⟨hname, by simp, hitems⟩
      · obtain ⟨c, hlookup, hb⟩ := valAt_cons_eq_some.1 hb
        rw [way_cons_of_lookup hlookup] at hp ⊢
        have hc := h.lookup_iff.1 hlookup
        exact moduleRenders_below.2
          ⟨hname, (ih _ hc (h.child hc)).1 (hchildren _ hc) p b hb hp⟩
    · intro hall
      refine ⟨?_, ?_, (hall p₀ b₀ hb₀ hp₀).name⟩
      · rintro ⟨k, c⟩ hc
        refine (ih _ hc (h.child hc)).2 fun p b hb hp => ?_
        have hlookup := h.lookup_iff.2 hc
        have hbelow := hall (k :: p) b (valAt_cons_eq_some.2 ⟨c, hlookup, hb⟩)
        rw [way_cons_of_lookup hlookup, List.foldl_cons] at hbelow
        exact (moduleRenders_below.1 (hbelow hp)).2
      · split_ifs with hself
        · exact (hall [] body rfl hself).items
        · simp

/-- No two entries of a map have one key. -/
def KeyedModules (A : DamlArchive) : Prop := ∀ e ∈ A.packages, Keyed e.2.rootModule

/-- The archive is rendered if what is quoted for the included modules is. -/
theorem renders_quoteArchive {A : DamlArchive} (h : KeyedModules A) :
    Renders (quoteArchive N matcher A) ↔
      ∀ e ∈ A.packages, ∀ p b, valAt e.2.rootModule p = some b →
        Included matcher e.2.rootModule p →
        ModuleRenders N ⟨A, .higherKindedType⟩ e.2.name (way p e.2.rootModule).tail b := by
  have hpackage : ∀ o : Option ModTokens, Renders (renderMods N ⟨A, .higherKindedType⟩ o.toList) ↔
      ∀ t ∈ o.toList, Renders (renderMod N ⟨A, .higherKindedType⟩ t) := by
    rintro (_ | t)
    · exact iff_of_true (renders_ok []) (by simp)
    · rw [Option.toList_some, List.forall_mem_singleton]
      exact renders_renderMods_singleton
  rw [quoteArchive, renders_mapM, List.forall_mem_flatMap]
  refine forall₂_congr fun e he => ?_
  rw [← hpackage]
  refine (renders_quoteModuleTreeInner (h e he)).trans ?_
  exact forall₃_congr fun p b _ => imp_congr_left (foldl_childAncestorIncluded _ p)

end Modules

end DamlBindings.Codegen
