import DamlBindings.Derive.AttrTemplate
import DamlBindings.Derive.SameDefinition

/-!
# Full and intermediate templates

A template that is rendered in full, and one that is rendered for the macros and expanded by them.
What the intermediate renderer quotes has the names escaped and leaves out the interfaces, the
attribute refers to the package by its id, and the macros take the struct and each choice for a data
type by its name.
-/

namespace DamlBindings.Derive

open Lf Codegen Worklist

/-! ### What the tokens of a template say -/

/-- The struct of a template and the structs that get its identifier and its command, the module and
the name in the identifier, the structs of its contracts, the methods of its choices, each with the
struct that has it, its name, the choice and the type of the argument, and what is there for its
interfaces. -/
structure TemplateDefinition where
  record : Definition
  owners : String × String
  place : String × String
  contract : ContractTokens
  methods : List (String × String × String × SynType)
  interfaceImpls : List (RustPath × String)
  interfaceMethods : List (RustPath × String × String × String × SynType)

/-- The method of a choice. -/
def methodOf (owner : String) (c : ChoiceTokens) : String × String × String × SynType :=
  (owner, c.method, c.choice, c.argTy.spelled)

/-- The module and the name in an identifier. -/
def placeOf : IdentifierTokens → String × String
  | .fromPackageName _ moduleName entityName => (moduleName, entityName)
  | .new _ moduleName entityName => (moduleName, entityName)

/-- What the tokens of a template say, with those of further impl blocks for its choices. -/
def templateDefinition (t : TemplateTokens) (blocks : List (String × List ChoiceTokens)) :
    TemplateDefinition where
  record := recordDefinition t.record
  owners := (t.templateId.1, t.createCommand)
  place := placeOf t.templateId.2
  contract := t.contract
  methods := (t.choices :: blocks).flatMap fun block => block.2.map (methodOf block.1)
  interfaceImpls := t.interfaceImpls
  interfaceMethods := t.interfaceChoices.flatMap fun block =>
    block.methods.map fun c => (block.ifacePath, methodOf block.contractIdName c)

/-- The names of the structs of a template are accepted. -/
structure QuotesNames (N : Naming) (name : String) : Prop where
  struct : Quotes N name
  contract : Quotes N (name ++ "Contract")
  contractId : Quotes N (name ++ "ContractId")

/-- The structs of the contracts. -/
def contractOf (name : String) : ContractTokens :=
  ⟨escapeIdentifier name, escapeIdentifier (name ++ "Contract"),
    escapeIdentifier (name ++ "ContractId")⟩

section Parts

-- no proof here looks into the escape of a name
seal escapeIdentifier

variable {N : Naming} {ctx : RenderContext}

lemma quotes_iff {s : String} : Quotes N s ↔ N.isIdent (escapeIdentifier s) = true := by
  constructor
  · rintro ⟨ident, h⟩
    exact (quoteEscapedIdent_eq_ok.1 h).1
  · intro h
    exact ⟨_, quoteEscapedIdent_eq_ok.2 ⟨h, rfl⟩⟩

lemma quoteEscapedIdent_eq_ok_iff {s ident : String} :
    quoteEscapedIdent N s = .ok ident ↔ Quotes N s ∧ ident = escapeIdentifier s := by
  rw [quoteEscapedIdent_eq_ok, quotes_iff, eq_comm (a := ident)]

/-- The parts of the tokens of a template. -/
lemma quoteDamlTemplate_eq_ok {t : DamlTemplate} {tokens : TemplateTokens} :
    Codegen.quoteDamlTemplate N ctx t = .ok tokens ↔
      ∃ record methods impls blocks,
        quoteDamlRecordAndImpl N ctx t.name t.fields [] = .ok record ∧ QuotesNames N t.name ∧
        t.choices.mapM (quoteChoiceMethod N t.name) = .ok methods ∧
        (t.implements.mapM fun iface => (fun path => (path, (contractOf t.name).contractIdName)) <$>
          quoteInterfaceTraitPath N iface) = .ok impls ∧
        (implementedInterfaces ctx t).mapM (quoteInterfaceChoices N ctx t.name) = .ok blocks ∧
        tokens = ⟨record, (escapeIdentifier t.name,
            identifierTokens (ctx.packageNameFor t.packageId) t.packageId
              (toModulePath t.modulePath) t.name),
          escapeIdentifier t.name, contractOf t.name,
          ((contractOf t.name).contractIdName, methods), impls, blocks.reduceOption⟩ := by
  simp only [Codegen.quoteDamlTemplate, quoteChoice, quoteContractStructAndImpl,
    quoteContractIdStructName, Except.bind_eq_ok, Except.pure_eq_ok, quoteEscapedIdent_eq_ok_iff,
    and_assoc, exists_and_left, exists_eq_left, exists_eq_left']
  constructor
  · rintro ⟨record, hrecord, hname, -, hcontract, hid, _, ⟨methods, hmethods, -, rfl⟩, -, impls,
      himpls, blocks, hblocks, rfl⟩
    exact ⟨record, hrecord, ⟨hname, hcontract, hid⟩, methods, hmethods, impls, himpls, blocks,
      hblocks, rfl⟩
  · rintro ⟨record, hrecord, ⟨hname, hcontract, hid⟩, methods, hmethods, impls, himpls, blocks,
      hblocks, rfl⟩
    exact ⟨record, hrecord, hname, hname, hcontract, hid, _, ⟨methods, hmethods, hid, rfl⟩, hid,
      impls, himpls, blocks, hblocks, rfl⟩

/-! ### What the template macro makes of the struct -/

/-- A template without choices and interfaces: its record and the names of its structs. -/
lemma quoteDamlTemplate_plain {t : DamlTemplate} (hchoices : t.choices = [])
    (himplements : t.implements = []) {tokens : TemplateTokens} :
    Codegen.quoteDamlTemplate N ctx t = .ok tokens ↔
      ∃ record, quoteDamlRecordAndImpl N ctx t.name t.fields [] = .ok record ∧
        QuotesNames N t.name ∧
        tokens = ⟨record, (escapeIdentifier t.name,
            identifierTokens (ctx.packageNameFor t.packageId) t.packageId
              (toModulePath t.modulePath) t.name),
          escapeIdentifier t.name, contractOf t.name,
          ((contractOf t.name).contractIdName, []), [], []⟩ := by
  rw [quoteDamlTemplate_eq_ok, implementedInterfaces, hchoices, himplements]
  constructor
  · rintro ⟨record, _, _, _, hrecord, hnames, hmethods, himpls, hblocks, rfl⟩
    cases hmethods
    cases himpls
    cases hblocks
    exact ⟨record, hrecord, hnames, rfl⟩
  · rintro ⟨record, hrecord, hnames, rfl⟩
    exact ⟨record, [], [], [], hrecord, hnames, rfl, rfl, rfl, rfl⟩

/-- The macro reads the fields of the struct, and addresses the template by the id of the
package. -/
lemma damlTemplate_eq_ok {item : TemplateItemTokens} {tokens : TemplateTokens} :
    damlTemplate N (templateInfo item) item.input = .ok tokens ↔
      ∃ as record, extractStructData (item.fields.map FieldTokens.spelled) = .ok as ∧
        quoteDamlRecordAndImpl N defaultContext item.name (as.map AttrField.toDamlField) [] =
          .ok record ∧ QuotesNames N item.name ∧
        tokens = ⟨record, (escapeIdentifier item.name,
            .new item.packageId item.moduleName item.name),
          escapeIdentifier item.name, contractOf item.name,
          ((contractOf item.name).contractIdName, []), [], []⟩ := by
  have hrecord : ∀ as : List AttrField,
      quoteDamlRecordAndImpl N (templateContext item.packageId none) item.name
          (as.map AttrField.toDamlField) [] =
        quoteDamlRecordAndImpl N defaultContext item.name (as.map AttrField.toDamlField) [] := by
    intro as
    simp only [quoteDamlRecordAndImpl, supportedFields_toDamlField,
      supportedFields_of_checkTargetData (checkTargetData_templateContext item.packageId none)]
  have hcalls : damlTemplate N (templateInfo item) item.input =
      (derived (extractTemplate item.name item.packageId item.moduleName
        (item.fields.map FieldTokens.spelled) []) >>= fun template =>
          derived (rendered (Codegen.quoteDamlTemplate N (templateContext item.packageId none)
            template.toDamlTemplate))) := rfl
  rw [hcalls, Except.bind_eq_ok]
  simp only [derived_eq_ok, rendered_eq_ok, extractTemplate, Except.map_eq_ok]
  constructor
  · rintro ⟨_, ⟨as, has, rfl⟩, h⟩
    obtain ⟨record, hquote, hnames, rfl⟩ := (quoteDamlTemplate_plain rfl rfl).1 h
    refine ⟨as, record, has, (hrecord as).symm.trans hquote, hnames, ?_⟩
    simp only [AttrTemplate.toDamlTemplate, packageNameFor_templateContext,
      toModulePath_splitText, identifierTokens]
  · rintro ⟨as, record, has, hquote, hnames, rfl⟩
    refine ⟨_, ⟨as, has, rfl⟩, (quoteDamlTemplate_plain rfl rfl).2 ?_⟩
    refine ⟨record, (hrecord as).trans hquote, hnames, ?_⟩
    simp only [AttrTemplate.toDamlTemplate, packageNameFor_templateContext,
      toModulePath_splitText, identifierTokens]

/-! ### What the choices macro makes of a method -/

/-- The macros take a name for a data type by the name alone. -/
lemma dataTypeStringFromPath_eq_ok {ident data : String} :
    dataTypeStringFromPath [] ident [] = .ok data ↔ readingOf ident 0 = .tyCon ∧ data = ident := by
  constructor
  · intro h
    refine ⟨?_, eq_of_dataTypeStringFromPath h⟩
    obtain ⟨a, ha, h⟩ := Except.bind_eq_ok.1 h
    split at h
    · exact readingOf_of_tyCon ha
    · cases h
  · rintro ⟨h, rfl⟩
    have hread : damlTypeFromSegments [] data (fromTypes []) = .ok (.tyCon data [] []) :=
      damlTypeFromSegments_of_tyCon h
    rw [dataTypeStringFromPath, hread]
    rfl

/-- The macro reads the choice and the parameters of a method. -/
lemma getSingleAttrMethod_choiceItem {c : ChoiceItemTokens} {o : Option AttrChoice} :
    getSingleAttrMethod (choiceItem c) = .ok o ↔ readingOf c.choice 0 = .tyCon ∧
      ∃ as, extractStructData (c.arguments.map FieldTokens.spelled) = .ok as ∧
        some ⟨c.choice, as, .unit⟩ = o := by
  have hparam : ∀ f : FieldTokens, simpleMethodNameAndType (.typed (some f.label) f.ty.spelled) =
      some (AttrField.mk f.label <$> fromType f.ty.spelled) := by
    rintro ⟨label, ty⟩
    cases ty <;> rfl
  have harguments : ((FnArg.receiver :: c.arguments.map fun f =>
      .typed (some f.label) f.ty.spelled).filterMap simpleMethodNameAndType) =
        c.arguments.map fun f => AttrField.mk f.label <$> fromType f.ty.spelled := by
    rw [List.filterMap_cons_none rfl, List.filterMap_map, ← List.filterMap_eq_map]
    exact List.filterMap_congr fun f _ => hparam f
  have hextract :
      (c.arguments.map fun f => AttrField.mk f.label <$> fromType f.ty.spelled).mapM id =
      extractStructData (c.arguments.map FieldTokens.spelled) := by
    rw [extractStructData, List.mapM_map, List.mapM_map]
    rfl
  have hmethod : getSingleAttrMethod (choiceItem c) =
      (dataTypeStringFromPath [] c.choice [] >>= fun name =>
        ((FnArg.receiver :: c.arguments.map fun f =>
          .typed (some f.label) f.ty.spelled).filterMap simpleMethodNameAndType).mapM id >>=
            fun arguments => pure (some ⟨name, arguments, .unit⟩)) := rfl
  rw [hmethod, harguments, hextract]
  simp only [Except.bind_eq_ok, dataTypeStringFromPath_eq_ok, Except.pure_eq_ok]
  constructor
  · rintro ⟨_, ⟨hreading, rfl⟩, as, has, rfl⟩
    exact ⟨hreading, as, has, rfl⟩
  · rintro ⟨hreading, as, has, rfl⟩
    exact ⟨_, ⟨hreading, rfl⟩, as, has, rfl⟩

/-- The method that is rendered for a choice with its arguments. -/
lemma quoteChoiceMethod_eq_ok {name : String} {c : DamlChoice} {tokens : ChoiceTokens} :
    quoteChoiceMethod N name c = .ok tokens ↔
      Quotes N name ∧ Quotes N (N.toSnakeCase c.name ++ "_command") ∧
        ∃ f ty, c.fields.head? = some f ∧ quoteType N f.ty = .ok ty ∧
          tokens = ⟨escapeIdentifier (N.toSnakeCase c.name ++ "_command"), ty, c.name⟩ := by
  simp only [quoteChoiceMethod, quoteChoiceWith, Except.bind_eq_ok, quoteEscapedIdent_eq_ok_iff,
    and_assoc, exists_and_left, exists_eq_left]
  rcases c.fields.head? with - | f
  · simp
  · simp only [Except.bind_eq_ok, Except.pure_eq_ok, Option.some.injEq, exists_eq_left',
      eq_comm (a := tokens)]

/-- A choice that is quoted as a method, and what is rendered for it when the method is read. -/
def ExpandsTo (N : Naming) (ctx : RenderContext) (name : String) (c : DamlChoice)
    (tokens : ChoiceTokens) : Prop :=
  ∃ item, Intermediate.quoteChoice N ctx c = .ok item ∧
    ∃ choice, getSingleAttrMethod (choiceItem item) = .ok (some choice) ∧
      quoteChoiceMethod N name choice.toDamlChoice = .ok tokens

/-- A choice is the same when it has been read: it has its name, which no builtin type has, and its
argument is rendered and keeps its type. -/
structure KeptChoice (N : Naming) (ctx : RenderContext) (c : DamlChoice) : Prop where
  quotes : Quotes N c.name
  name : escapeIdentifier c.name = c.name
  reading : readingOf c.name 0 = .tyCon
  method : Quotes N (N.toSnakeCase c.name)
  argument : ∀ f ∈ c.fields, Quotes N f.name ∧ checkType ctx f.ty = true ∧ KeptType N f.ty

lemma intermediate_quoteChoice_eq_ok {c : DamlChoice} {item : ChoiceItemTokens} :
    Intermediate.quoteChoice N ctx c = .ok item ↔
      Quotes N c.name ∧ Quotes N (N.toSnakeCase c.name) ∧ ∃ body,
        (supportedFields ctx c.fields).mapM (quoteField N) = .ok body ∧
          item = ⟨escapeIdentifier c.name, escapeIdentifier (N.toSnakeCase c.name), body⟩ := by
  simp only [Intermediate.quoteChoice, Except.bind_eq_ok, Except.pure_eq_ok,
    quoteEscapedIdent_eq_ok_iff, and_assoc, exists_and_left, exists_eq_left, eq_comm (a := item)]

/-- The method that is expanded is the one that is rendered in full if and only if the choice is
kept. -/
lemma exists_expandsTo_iff {name owner : String} {c : DamlChoice} {f : DamlField DamlType}
    {full : ChoiceTokens} (hfield : c.fields = [f])
    (h : quoteChoiceMethod N name c = .ok full) :
    (∃ tokens, ExpandsTo N ctx name c tokens ∧ methodOf owner tokens = methodOf owner full) ↔
      KeptChoice N ctx c := by
  obtain ⟨hname, hmethod, f', ty, hf', hty, rfl⟩ := quoteChoiceMethod_eq_ok.1 h
  obtain rfl : f = f' := by
    rw [hfield] at hf'
    exact Option.some.inj hf'
  have hsupported : supportedFields ctx c.fields = if checkType ctx f.ty then [f] else [] := by
    rw [hfield, supportedFields, List.filter_singleton, Bool.cond_eq_ite]
  constructor
  · rintro ⟨tokens, ⟨item, hitem, choice, hitemread, htokens⟩, heq⟩
    obtain ⟨hquotes, hsnake, body, hbody, rfl⟩ := intermediate_quoteChoice_eq_ok.1 hitem
    obtain ⟨hreading, as, has, hchoice⟩ := getSingleAttrMethod_choiceItem.1 hitemread
    cases hchoice
    obtain ⟨-, -, f', ty', hf', hty', rfl⟩ := quoteChoiceMethod_eq_ok.1 htokens
    obtain ⟨-, hcname, hspelled⟩ : _ ∧ escapeIdentifier c.name = c.name ∧
        ty'.spelled = ty.spelled := by simpa [methodOf, AttrChoice.toDamlChoice] using heq
    have hreads := (extractStructData_eq_ok hbody).1 has
    rw [hsupported] at hbody hreads
    split_ifs at hbody hreads with hcheck
    · obtain ⟨a, rest, ⟨-, read, hread, hfrom⟩, -, rfl⟩ := List.forall₂_cons_left_iff.1 hreads
      cases hty.symm.trans hread
      cases hf'
      have hfname := (renders_quoteField.1 (renders_mapM.1 ⟨body, hbody⟩ f
        (List.mem_singleton_self f))).1
      have hkept := (rereads_quoteType_iff hty).1 ⟨a.fieldType, ty', hfrom, hty', hspelled⟩
      refine ⟨hquotes, hcname, hcname ▸ hreading, hsnake, ?_⟩
      rw [hfield]
      exact List.forall_mem_singleton.2 ⟨hfname, hcheck, hkept⟩
    · -- an argument that is not rendered leaves the method without one
      cases hreads
      cases hf'
  · rintro ⟨hquotes, hcname, hreading, hsnake, hargument⟩
    obtain ⟨hfname, hcheck, hkept⟩ := hargument f (by simp [hfield])
    obtain ⟨a, ty', hread, hty', hspelled⟩ := (rereads_quoteType_iff hty).2 hkept
    have hbody : (supportedFields ctx c.fields).mapM (quoteField N) =
        .ok [⟨escapeIdentifier f.name, ty⟩] := by
      rw [hsupported, if_pos hcheck, Except.mapM_eq_ok]
      refine List.forall₂_cons.2 ⟨quoteField_eq_ok.2 ⟨?_, hty⟩, .nil⟩
      exact quoteEscapedIdent_eq_ok_iff.2 ⟨hfname, rfl⟩
    have hreads : List.Forall₂ (ReadsField N) (supportedFields ctx c.fields)
        [⟨escapeIdentifier f.name, a⟩] := by
      rw [hsupported, if_pos hcheck]
      exact .cons ⟨rfl, ty, hty, hread⟩ .nil
    refine ⟨⟨escapeIdentifier (N.toSnakeCase c.name ++ "_command"), ty', c.name⟩,
      ⟨⟨c.name, escapeIdentifier (N.toSnakeCase c.name), [⟨escapeIdentifier f.name, ty⟩]⟩, ?_,
        ⟨c.name, [⟨escapeIdentifier f.name, a⟩], .unit⟩, ?_, ?_⟩, ?_⟩
    · exact intermediate_quoteChoice_eq_ok.2 ⟨hquotes, hsnake, _, hbody, by rw [hcname]⟩
    · exact getSingleAttrMethod_choiceItem.2
        ⟨hreading, _, (extractStructData_eq_ok hbody).2 hreads, rfl⟩
    · exact quoteChoiceMethod_eq_ok.2 ⟨hname, hmethod, _, ty', rfl, hty', rfl⟩
    · rw [methodOf, methodOf, hspelled]

/-- The same for all choices of a template. -/
lemma exists_methods_iff {name owner : String} {choices : List DamlChoice}
    {methods : List ChoiceTokens} (harg : ∀ c ∈ choices, ∃ f, c.fields = [f])
    (h : choices.mapM (quoteChoiceMethod N name) = .ok methods) :
    (∃ ms, List.Forall₂ (ExpandsTo N ctx name) choices ms ∧
        ms.map (methodOf owner) = methods.map (methodOf owner)) ↔
      ∀ c ∈ choices, KeptChoice N ctx c := by
  rw [Except.mapM_eq_ok] at h
  induction h with
  | nil => simp
  | @cons c m choices methods hm _ ih =>
    obtain ⟨⟨f, hfield⟩, harg⟩ := List.forall_mem_cons.1 harg
    rw [List.forall_mem_cons, ← ih harg, ← exists_expandsTo_iff hfield hm]
    constructor
    · rintro ⟨_, _ | ⟨hm, hms⟩, heq⟩
      obtain ⟨hhead, htail⟩ := List.cons.inj heq
      exact ⟨⟨_, hm, hhead⟩, _, hms, htail⟩
    · rintro ⟨⟨m, hm, hhead⟩, ms, hms, htail⟩
      exact ⟨m :: ms, .cons hm hms, by rw [List.map_cons, List.map_cons, hhead, htail]⟩

/-! ### What the macros make of a template -/

lemma extractAllChoices_choiceItem {items : List ChoiceItemTokens} {choices : List AttrChoice} :
    extractAllChoices (items.map choiceItem) = .ok choices ↔
      List.Forall₂ (fun i c => getSingleAttrMethod (choiceItem i) = .ok (some c)) items
        choices := by
  rw [extractAllChoices, Except.bind_eq_ok]
  simp only [Except.mapM_eq_ok, Except.pure_eq_ok, List.forall₂_map_left_iff]
  constructor
  · rintro ⟨os, hos, rfl⟩
    induction hos with
    | nil => exact .nil
    | cons h _ ih =>
      obtain ⟨-, as, -, rfl⟩ := getSingleAttrMethod_choiceItem.1 h
      exact .cons h ih
  · intro h
    refine ⟨choices.map some, List.forall₂_map_right_iff.2 h, ?_⟩
    rw [List.reduceOption, List.filterMap_map, Function.id_comp, List.filterMap_some]

lemma generateChoices_eq_ok {item : TemplateItemTokens} {tokens : String × List ChoiceTokens} :
    generateChoices N (choicesItem item) = .ok tokens ↔ readingOf item.name 0 = .tyCon ∧
      Quotes N (item.name ++ "ContractId") ∧ ∃ methods,
        List.Forall₂ (fun i m => ∃ c, getSingleAttrMethod (choiceItem i) = .ok (some c) ∧
          quoteChoiceMethod N item.name c.toDamlChoice = .ok m) item.choices methods ∧
        tokens = ((contractOf item.name).contractIdName, methods) := by
  have hcalls : generateChoices N (choicesItem item) =
      (dataTypeStringFromPath [] item.name [] >>= fun structName =>
        extractAllChoices (item.choices.map choiceItem) >>= fun choices =>
          rendered (quoteChoice N structName (choices.map AttrChoice.toDamlChoice))) := rfl
  rw [hcalls]
  simp only [Except.bind_eq_ok, dataTypeStringFromPath_eq_ok, extractAllChoices_choiceItem,
    rendered_eq_ok, quoteChoice, quoteContractIdStructName, quoteEscapedIdent_eq_ok_iff,
    Except.pure_eq_ok, Except.mapM_eq_ok, List.forall₂_map_left_iff, and_assoc, exists_and_left,
    exists_eq_left, ← List.exists_forall₂_trans_iff]
  constructor
  · rintro ⟨hreading, choices, hchoices, methods, hmethods, hid, rfl⟩
    exact ⟨hreading, hid, methods, ⟨choices, hchoices, hmethods⟩, rfl⟩
  · rintro ⟨hreading, hid, methods, ⟨choices, hchoices, hmethods⟩, rfl⟩
    exact ⟨hreading, choices, hchoices, methods, hmethods, hid, rfl⟩

/-- The record of a template. -/
def templateRecord (t : DamlTemplate) : DamlRecord :=
  ⟨t.name, t.packageId, t.modulePath, t.fields, [], true⟩

/-- The tokens that a template is expanded to, with its record and its methods. -/
def expandedTokens (t : DamlTemplate) (record : RecordTokens) (methods : List ChoiceTokens) :
    TemplateTokens × (String × List ChoiceTokens) :=
  let name := escapeIdentifier t.name
  let contract := contractOf name
  (⟨record, (name, .new t.packageId (toModulePath t.modulePath) name), name, contract,
    (contract.contractIdName, []), [], []⟩, (contract.contractIdName, methods))

lemma expandRecord_eq_ok {record : DamlRecord} {tokens : RecordTokens} :
    expandRecord N ctx record = .ok tokens ↔ Quotes N record.name ∧ ∃ body as,
      (supportedFields ctx record.fields).mapM (quoteField N) = .ok body ∧
      extractStructData (body.map FieldTokens.spelled) = .ok as ∧
      quoteDamlRecordAndImpl N defaultContext (escapeIdentifier record.name)
        (as.map AttrField.toDamlField) [] = .ok tokens := by
  have hgenerate : ∀ body : List FieldTokens, generateDataStruct N
      (IntermediateTokens.damlData (escapeIdentifier record.name) body).input =
        (extractStructData (body.map FieldTokens.spelled) >>= fun as =>
          rendered (quoteDamlRecordAndImpl N defaultContext (escapeIdentifier record.name)
            (as.map AttrField.toDamlField) [])) := fun _ => bind_map_left _ _ _
  simp only [expandRecord, Intermediate.quoteDamlRecord, Except.bind_eq_ok, rendered_eq_ok,
    quoteEscapedIdent_eq_ok_iff, Except.pure_eq_ok, and_assoc, exists_and_left, exists_eq_left,
    exists_exists_and_eq_and, hgenerate]

/-- A template is expanded to its record, as that is expanded on its own, and to its methods. -/
lemma expandTemplate_eq_ok {t : DamlTemplate}
    {e : TemplateTokens × (String × List ChoiceTokens)} :
    expandTemplate N ctx t = .ok e ↔ ∃ record methods,
      expandRecord N ctx (templateRecord t) = .ok record ∧
      QuotesNames N (escapeIdentifier t.name) ∧ readingOf (escapeIdentifier t.name) 0 = .tyCon ∧
      List.Forall₂ (ExpandsTo N ctx (escapeIdentifier t.name)) t.choices methods ∧
      e = expandedTokens t record methods := by
  have hexpands : ∀ methods, (∃ items, t.choices.mapM (Intermediate.quoteChoice N ctx) = .ok items ∧
      List.Forall₂ (fun i m => ∃ c, getSingleAttrMethod (choiceItem i) = .ok (some c) ∧
        quoteChoiceMethod N (escapeIdentifier t.name) c.toDamlChoice = .ok m) items methods) ↔
      List.Forall₂ (ExpandsTo N ctx (escapeIdentifier t.name)) t.choices methods := by
    intro methods
    simp only [Except.mapM_eq_ok, List.exists_forall₂_trans_iff]
    rfl
  simp only [expandTemplate, Except.bind_eq_ok, derived_eq_ok, rendered_eq_ok, damlTemplate_eq_ok,
    generateChoices_eq_ok, Except.pure_eq_ok, Intermediate.quoteDamlTemplate,
    quoteEscapedIdent_eq_ok_iff, expandRecord_eq_ok, ← hexpands, and_assoc, exists_and_left,
    exists_eq_left]
  constructor
  · rintro ⟨hname, _, ⟨body, hbody, items, hitems, rfl⟩, _,
      ⟨as, has, record, hrecord, hnames, rfl⟩, hreading, -, _, ⟨methods, hmethods, rfl⟩, rfl⟩
    refine ⟨hname, record, ⟨body, hbody, as, has, hrecord⟩, hnames, hreading, methods,
      ⟨items, hitems, hmethods⟩, ?_⟩
    simp only [expandedTokens, escapeIdentifier_escapeIdentifier]
  · rintro ⟨hname, record, ⟨body, hbody, as, has, hrecord⟩, hnames, hreading, methods,
      ⟨items, hitems, hmethods⟩, rfl⟩
    refine ⟨hname, _, ⟨body, hbody, items, hitems, rfl⟩, _,
      ⟨as, has, record, hrecord, hnames, rfl⟩, hreading, hnames.contractId, _,
      ⟨methods, hmethods, rfl⟩, ?_⟩
    simp only [expandedTokens, escapeIdentifier_escapeIdentifier]

end Parts

/-! ### The two renderers -/

/-- A template is the same when it has been read: its name and those of its fields are their own
escapes, no builtin type has its name, it has no interfaces, and its fields and choices are kept. -/
structure KeptTemplate (N : Naming) (ctx : RenderContext) (t : DamlTemplate) : Prop where
  name : escapeIdentifier t.name = t.name
  reading : readingOf t.name 0 = .tyCon
  implements : t.implements = []
  fields : ∀ f ∈ supportedFields ctx t.fields, escapeIdentifier f.name = f.name ∧ KeptType N f.ty
  choices : ∀ c ∈ t.choices, KeptChoice N ctx c

section Agree

seal escapeIdentifier

variable {N : Naming} {ctx : RenderContext} {t : DamlTemplate} {full : TemplateTokens}

lemma placeOf_identifierTokens (packageName : Option String)
    (packageId moduleName entityName : String) :
    placeOf (identifierTokens packageName packageId moduleName entityName) =
      (moduleName, entityName) := by
  cases packageName <;> rfl

/-- What an expanded template says. -/
lemma templateDefinition_expandedTokens {record : RecordTokens} {methods : List ChoiceTokens} :
    templateDefinition (expandedTokens t record methods).1
        [(expandedTokens t record methods).2] =
      ⟨recordDefinition record, (escapeIdentifier t.name, escapeIdentifier t.name),
        (toModulePath t.modulePath, escapeIdentifier t.name), contractOf (escapeIdentifier t.name),
        methods.map (methodOf (contractOf (escapeIdentifier t.name)).contractIdName), [], []⟩ := by
  simp [templateDefinition, expandedTokens, placeOf]

end Agree

/-- The choice `Pong`, whose argument is the record `Pong`. -/
def pongChoice : DamlChoice where
  name := "Pong"
  packageId := "pkg"
  modulePath := ["Main"]
  fields := [⟨"arg", .tyCon (.localTyCon ⟨"Pong", "pkg", "", ["Main"]⟩) []⟩]
  returnType := .unit
  consuming := true
  selfBinder := "self"
  update := .primLit (.text "")
  controllers := .nil .party
  observers := .nil .party

/-- The template `Ping` with that choice. -/
def pingTemplate : DamlTemplate where
  name := "Ping"
  packageId := "pkg"
  modulePath := ["Main"]
  fields := [⟨"sender", .party⟩]
  choices := [pongChoice]
  param := "this"
  implements := []
  precond := none
  signatories := .nil .party
  agreement := .primLit (.text "")
  observers := .nil .party
  key := none
  serializable := true

lemma keptTemplate_ping : KeptTemplate wordNaming emptyContext pingTemplate where
  name := rfl
  reading := rfl
  implements := rfl
  fields := List.forall_mem_singleton.2
    ⟨rfl, forall_reaches_iff.2 ⟨trivial, List.forall_mem_nil _⟩⟩
  choices := by
    refine List.forall_mem_singleton.2 ⟨⟨_, rfl⟩, rfl, rfl, ⟨_, rfl⟩, ?_⟩
    refine List.forall_mem_singleton.2 ⟨⟨_, rfl⟩, rfl, forall_reaches_iff.2 ⟨?_, ?_⟩⟩
    · have hkept : KeptPath wordNaming [] "Pong" := ⟨rfl, .inl rfl⟩
      have hreading : readingOf "Pong" ([] : List Reading).length = .tyCon := rfl
      exact (keptHead_of_tyCon hreading).2 hkept
    · exact List.forall_mem_nil _

end DamlBindings.Derive
