import DamlBindings.Codegen.EscapedNames
import DamlBindings.Codegen.Renders
import DamlBindings.Derive.KeptTypes

/-!
# Full and intermediate definitions

A definition that is rendered in full, and one that is rendered for the macros and expanded by them.
The intermediate renderer leaves out the type parameters and writes names escaped, and the macros
know a type by the last segment of its path, so that the two only agree where none of this changes
anything.
-/

namespace DamlBindings.Derive

open Lf Codegen Worklist

/-! ### What a definition says -/

/-- The name of a rendered definition, its type parameters, its fields or constructors with their
types, and the names in Daml that it writes and reads. -/
structure Definition where
  name : String
  typeParams : List ParamTokens
  members : List (String × Option SynType)
  written : List String
  read : List String

/-- What the tokens of a record say. -/
def recordDefinition (t : RecordTokens) : Definition where
  name := t.struct.name
  typeParams := t.struct.boundedParams
  members := t.struct.body.map fun f => (f.label, some f.ty.spelled)
  written := t.serialize.body.map SerializedField.fieldName
  read := t.deserialize.body.map DeserializedField.fieldName

/-- What the tokens of a variant or of an enum say. -/
def variantDefinition (t : VariantTokens) : Definition where
  name := t.enumTokens.name
  typeParams := t.enumTokens.boundedParams
  members := t.enumTokens.body.map fun c => (c.name, c.data.map TypeTokens.spelled)
  written := t.serialize.body.map MatchArm.constructor
  read := t.deserialize.body.map MatchArm.constructor

section Say

variable (N : Naming)

/-- The type that is spelled for a Daml type. -/
def spelledOf (ty : DamlType) : Option SynType :=
  (quoteType N ty).toOption.map TypeTokens.spelled

/-- The field of a struct. -/
def recordMember (f : DamlField DamlType) : String × Option SynType :=
  (escapeIdentifier f.name, spelledOf N f.ty)

/-- The constructor of a variant. -/
def variantMember (f : DamlField DamlType) : String × Option SynType :=
  (escapeIdentifier f.name, if isUnit f.ty then none else spelledOf N f.ty)

/-- The constructor of an enum. -/
def enumMember (constructor : String) : String × Option SynType :=
  (escapeIdentifier constructor, none)

/-- The definition with a name, type parameters and members. -/
def definitionOf {α : Type} (member : α → String × Option SynType) (damlName : α → String)
    (name : String) (typeParams : List ParamTokens) (xs : List α) : Definition :=
  ⟨escapeIdentifier name, typeParams, xs.map member, xs.map damlName, xs.map damlName⟩

variable {N} {ctx : RenderContext}

lemma spelledOf_of_ok {ty : DamlType} {tokens : TypeTokens} (h : quoteType N ty = .ok tokens) :
    spelledOf N ty = some tokens.spelled := by
  rw [spelledOf, h]
  rfl

lemma recordDefinition_of_ok {name : String} {fields : List (DamlField DamlType)}
    {params : List DamlTypeVarWithKind} {t : RecordTokens}
    (h : quoteDamlRecordAndImpl N ctx name fields params = .ok t) :
    ∃ bounded, quoteBoundedParams N params = .ok bounded ∧ recordDefinition t =
      definitionOf (recordMember N) DamlField.name name bounded (supportedFields ctx fields) := by
  obtain ⟨hstruct, -, hserialize, hdeserialize⟩ := quotedRecord_of_ok h
  refine ⟨t.struct.boundedParams, hstruct.boundedParams, ?_⟩
  have hmembers : t.struct.body.map (fun f => (f.label, some f.ty.spelled)) =
      (supportedFields ctx fields).map (recordMember N) :=
    Except.map_eq_of_mapM hstruct.body fun f tokens hf => by
      obtain ⟨hlabel, hty⟩ := quoteField_eq_ok.1 hf
      rw [recordMember, spelledOf_of_ok hty, (quoteEscapedIdent_eq_ok.1 hlabel).2]
  have hwritten : t.serialize.body.map SerializedField.fieldName =
      (supportedFields ctx fields).map DamlField.name :=
    Except.map_eq_of_mapM hserialize fun _ _ hb => (of_quoteSerializedField hb).1
  have hread : t.deserialize.body.map DeserializedField.fieldName =
      (supportedFields ctx fields).map DamlField.name :=
    Except.map_eq_of_mapM hdeserialize fun _ _ hb => (of_quoteDeserializedField hb).1
  simp only [recordDefinition, definitionOf, hmembers, hwritten, hread,
    (quoteEscapedIdent_eq_ok.1 hstruct.name).2]

lemma variantDefinition_of_ok {v : DamlVariant} {t : VariantTokens}
    (h : quoteDamlVariant N ctx v = .ok t) :
    ∃ bounded, quoteBoundedParams N v.typeParams = .ok bounded ∧ variantDefinition t =
      definitionOf (variantMember N) DamlField.name v.name bounded
        (supportedFields ctx v.fields) := by
  obtain ⟨henum, hserialize, hdeserialize⟩ := quotedVariant_of_ok h
  refine ⟨t.enumTokens.boundedParams, henum.boundedParams, ?_⟩
  have hmembers : t.enumTokens.body.map (fun c => (c.name, c.data.map TypeTokens.spelled)) =
      (supportedFields ctx v.fields).map (variantMember N) :=
    Except.map_eq_of_mapM henum.body fun f c hf => by
      obtain ⟨hname, hdata⟩ := quoteConstructor_eq_ok.1 hf
      rw [IsData] at hdata
      rw [variantMember, (quoteEscapedIdent_eq_ok.1 hname).2]
      split_ifs at hdata ⊢
      · rw [hdata]
        rfl
      · obtain ⟨data, hdata, heq⟩ := hdata
        rw [heq, spelledOf_of_ok hdata]
        rfl
  have hwritten : t.serialize.body.map MatchArm.constructor =
      (supportedFields ctx v.fields).map DamlField.name :=
    Except.map_eq_of_mapM hserialize fun _ _ hb => (of_quoteFromArm hb).1
  have hread : t.deserialize.body.map MatchArm.constructor =
      (supportedFields ctx v.fields).map DamlField.name :=
    Except.map_eq_of_mapM hdeserialize fun _ _ hb => (of_quoteTryFromArm hb).1
  simp only [variantDefinition, definitionOf, hmembers, hwritten, hread,
    (quoteEscapedIdent_eq_ok.1 henum.name).2]

lemma enumDefinition_of_ok {e : DamlEnum} {t : VariantTokens} (h : quoteDamlEnum N e = .ok t) :
    ∃ bounded, quoteBoundedParams N e.typeParams = .ok bounded ∧ variantDefinition t =
      definitionOf enumMember id e.name bounded e.constructors := by
  obtain ⟨henum, hserialize, hdeserialize⟩ := quotedDamlEnum_of_ok h
  refine ⟨t.enumTokens.boundedParams, henum.boundedParams, ?_⟩
  have hmembers : t.enumTokens.body.map (fun c => (c.name, c.data.map TypeTokens.spelled)) =
      e.constructors.map enumMember :=
    Except.map_eq_of_mapM henum.body fun s c hc => by
      obtain ⟨hname, hdata⟩ := of_quoteConstructorIdent hc
      rw [hname, hdata]
      rfl
  have harms : ∀ {arms : List MatchArm}, e.constructors.mapM (quoteEnumArm N e.name) = .ok arms →
      arms.map MatchArm.constructor = e.constructors.map id :=
    fun h => Except.map_eq_of_mapM h fun _ _ hb => (of_quoteEnumArm hb).1
  simp only [variantDefinition, definitionOf, hmembers, harms hserialize, harms hdeserialize,
    (quoteEscapedIdent_eq_ok.1 henum.name).2]

/-- A definition without type parameters is the same as another one if that one has none either and
the members agree one by one. -/
lemma definitionOf_eq_iff {α : Type} {member : α → String × Option SynType}
    {damlName : α → String} {name : String} {bounded : List ParamTokens} {xs ys : List α} :
    definitionOf member damlName (escapeIdentifier name) [] ys =
        definitionOf member damlName name bounded xs ↔
      bounded = [] ∧
        List.Forall₂ (fun x y => member y = member x ∧ damlName y = damlName x) xs ys := by
  have hmap : ∀ {β : Type} (f : α → β), ys.map f = xs.map f ↔
      List.Forall₂ (fun x y => f y = f x) xs ys := by
    intro β f
    rw [eq_comm, ← List.forall₂_eq_eq_eq, List.forall₂_map_left_iff, List.forall₂_map_right_iff]
    exact ⟨fun h => h.imp fun _ _ => Eq.symm, fun h => h.imp fun _ _ => Eq.symm⟩
  rw [definitionOf, definitionOf, Definition.mk.injEq,
    escapeIdentifier_escapeIdentifier, hmap, hmap]
  constructor
  · rintro ⟨-, hbounded, hmember, hname, -⟩
    exact ⟨hbounded.symm, hmember.and hname⟩
  · rintro ⟨rfl, h⟩
    have hname := h.imp fun _ _ h => h.2
    exact ⟨rfl, rfl, h.imp fun _ _ h => h.1, hname, hname⟩

lemma bounded_eq_nil_iff {params : List DamlTypeVarWithKind} {bounded : List ParamTokens}
    (h : quoteBoundedParams N params = .ok bounded) : bounded = [] ↔ params = [] := by
  rw [← List.length_eq_zero_iff, ← List.length_eq_zero_iff (l := params),
    (Except.mapM_eq_ok.1 h).length_eq]

end Say

/-! ### Records -/

section Expand

variable (N : Naming) (ctx : RenderContext)

/-- A record is rendered for the macro, which expands it. -/
def expandRecord (record : DamlRecord) : DeriveResult RecordTokens := do
  let item ← rendered (Intermediate.quoteDamlRecord N ctx record)
  generateDataStruct N item.input

variable {N} {ctx}

/-- What the macro reads of a field. -/
def ReadsField (N : Naming) (f : DamlField DamlType) (a : AttrField) : Prop :=
  a.fieldLabel = escapeIdentifier f.name ∧ ∃ tokens, quoteType N f.ty = .ok tokens ∧
    fromType tokens.spelled = .ok a.fieldType

/-- The member that is read can be rendered. -/
def MemberRenders (N : Naming) (a : AttrField) : Prop :=
  Quotes N a.fieldLabel ∧ Renders (quoteType N (toDamlType a.fieldType))

lemma quotes_escapeIdentifier {s : String} (h : Quotes N s) : Quotes N (escapeIdentifier s) := by
  obtain ⟨ident, hident⟩ := h
  obtain ⟨haccept, rfl⟩ := quoteEscapedIdent_eq_ok.1 hident
  refine ⟨escapeIdentifier s, quoteEscapedIdent_eq_ok.2 ?_⟩
  rw [escapeIdentifier_escapeIdentifier]
  exact ⟨haccept, rfl⟩

lemma extractStructData_eq_ok {fields : List (DamlField DamlType)} {body : List FieldTokens}
    (hbody : fields.mapM (quoteField N) = .ok body) {as : List AttrField} :
    extractStructData (body.map FieldTokens.spelled) = .ok as ↔
      List.Forall₂ (ReadsField N) fields as := by
  rw [extractStructData, Except.mapM_eq_ok, List.forall₂_map_left_iff]
  refine (Except.mapM_eq_ok.1 hbody).congr_left fun f tokens hf a => ?_
  obtain ⟨hlabel, hty⟩ := quoteField_eq_ok.1 hf
  obtain ⟨label, fieldType⟩ := a
  rw [Except.map_eq_ok, ReadsField, (quoteEscapedIdent_eq_ok.1 hlabel).2]
  constructor
  · rintro ⟨fieldType, hread, hmk⟩
    cases hmk
    exact ⟨rfl, tokens.ty, hty, hread⟩
  · rintro ⟨rfl, ty', hty', hread⟩
    cases hty.symm.trans hty'
    exact ⟨fieldType, hread, rfl⟩

/-- What a macro makes of members that it reads, renders and puts into a definition. -/
lemma exists_generated_iff {T : Type} {extract : DeriveResult (List AttrField)}
    {quote : List AttrField → Render T} {say : T → Definition}
    {Reads : DamlField DamlType → AttrField → Prop} {fields : List (DamlField DamlType)}
    {member : DamlField DamlType → String × Option SynType} {name : String}
    (hextract : ∀ as, extract = .ok as ↔ List.Forall₂ Reads fields as)
    (hrenders : ∀ as, Renders (quote as) ↔ ∀ a ∈ as, MemberRenders N a)
    (hsay : ∀ as t, quote as = .ok t → say t = definitionOf member DamlField.name name []
      (as.map AttrField.toDamlField)) {D : Definition} :
    (∃ t, (extract >>= fun as => rendered (quote as)) = .ok t ∧ say t = D) ↔
      ∃ as, List.Forall₂ (fun f a => Reads f a ∧ MemberRenders N a) fields as ∧
        definitionOf member DamlField.name name [] (as.map AttrField.toDamlField) = D := by
  constructor
  · rintro ⟨t, ht, rfl⟩
    obtain ⟨as, has, ht⟩ := Except.bind_eq_ok.1 ht
    have hquote := rendered_eq_ok.1 ht
    have hmembers := (hrenders as).1 ⟨t, hquote⟩
    refine ⟨as, ?_, (hsay as t hquote).symm⟩
    exact ((hextract as).1 has).imp_of_mem fun f _ a ha hread => ⟨hread, hmembers a ha⟩
  · rintro ⟨as, has, rfl⟩
    obtain ⟨t, ht⟩ := (hrenders as).2 fun a ha => by
      obtain ⟨f, -, -, hmember⟩ := has.exists_left ha
      exact hmember
    have hread := (hextract as).2 (has.imp fun _ _ h => h.1)
    exact ⟨t, Except.bind_eq_ok.2 ⟨as, hread, rendered_eq_ok.2 ht⟩, hsay as t ht⟩

/-- What the macro makes of the item of a record: the definition with the fields that it reads. -/
lemma exists_generateDataStruct_iff {name : String} (hname : Quotes N name)
    {fields : List (DamlField DamlType)} {body : List FieldTokens}
    (hbody : fields.mapM (quoteField N) = .ok body) {D : Definition} :
    (∃ t, generateDataStruct N (IntermediateTokens.damlData (escapeIdentifier name) body).input =
        .ok t ∧ recordDefinition t = D) ↔
      ∃ as, List.Forall₂ (fun f a => ReadsField N f a ∧ MemberRenders N a) fields as ∧
        definitionOf (recordMember N) DamlField.name (escapeIdentifier name) []
          (as.map AttrField.toDamlField) = D := by
  have hgenerate : generateDataStruct N
      (IntermediateTokens.damlData (escapeIdentifier name) body).input =
        (extractStructData (body.map FieldTokens.spelled) >>= fun as =>
          rendered (quoteDamlRecordAndImpl N defaultContext (escapeIdentifier name)
            (as.map AttrField.toDamlField) [])) := bind_map_left _ _ _
  rw [hgenerate]
  refine exists_generated_iff (fun as => extractStructData_eq_ok hbody) (fun as => ?_)
    fun as t ht => ?_
  · rw [renders_quoteDamlRecordAndImpl, supportedFields_toDamlField]
    constructor
    · exact fun h a ha => h.members a.toDamlField (List.mem_map_of_mem ha)
    · intro h
      refine ⟨quotes_escapeIdentifier hname, List.forall_mem_nil _, ?_, List.forall_mem_nil _⟩
      exact List.forall_mem_map.2 h
  · obtain ⟨bounded, hbounded, hdefinition⟩ := recordDefinition_of_ok ht
    cases hbounded
    rwa [supportedFields_toDamlField] at hdefinition

/-- A field is read as it was if its name is its own escape and its type is read back. -/
lemma exists_readsField_iff {f : DamlField DamlType} (hname : Quotes N f.name)
    {tokens : TypeTokens} (hty : quoteType N f.ty = .ok tokens) :
    (∃ a, (ReadsField N f a ∧ MemberRenders N a) ∧
        recordMember N a.toDamlField = recordMember N f ∧ a.toDamlField.name = f.name) ↔
      escapeIdentifier f.name = f.name ∧ Rereads N tokens.spelled := by
  constructor
  · rintro ⟨a, ⟨⟨hlabel, tokens', htokens', hread⟩, -, hrenders⟩, hmember, haname⟩
    cases hty.symm.trans htokens'
    obtain ⟨tokens', htokens'⟩ := hrenders
    have hspelled := congrArg Prod.snd hmember
    change spelledOf N (toDamlType a.fieldType) = spelledOf N f.ty at hspelled
    rw [spelledOf_of_ok htokens', spelledOf_of_ok hty, Option.some.injEq] at hspelled
    exact ⟨hlabel.symm.trans haname, a.fieldType, tokens', hread, htokens', hspelled⟩
  · rintro ⟨hescape, a, tokens', hread, htokens', hspelled⟩
    refine ⟨⟨f.name, a⟩, ⟨⟨hescape.symm, tokens, hty, hread⟩, hname, tokens', htokens'⟩, ?_, rfl⟩
    show (escapeIdentifier f.name, spelledOf N (toDamlType a)) = recordMember N f
    rw [recordMember, spelledOf_of_ok htokens', spelledOf_of_ok hty, hspelled]

/-- The record that is expanded is the one that is rendered in full if and only if it has no type
parameters and its fields keep their names and their types. -/
lemma expandRecord_iff {record : DamlRecord} {full : RecordTokens}
    (h : quoteDamlRecordAndImpl N ctx record.name record.fields record.typeParams = .ok full) :
    (∃ t, expandRecord N ctx record = .ok t ∧ recordDefinition t = recordDefinition full) ↔
      record.typeParams = [] ∧ ∀ f ∈ supportedFields ctx record.fields,
        escapeIdentifier f.name = f.name ∧ KeptType N f.ty := by
  obtain ⟨hname, -, hmembers, -⟩ := renders_quoteDamlRecordAndImpl.1 ⟨full, h⟩
  obtain ⟨body, hbody⟩ : Renders ((supportedFields ctx record.fields).mapM (quoteField N)) :=
    renders_mapM.2 fun f hf => renders_quoteField.2 (hmembers f hf)
  obtain ⟨bounded, hbounded, hfull⟩ := recordDefinition_of_ok h
  have hitem : Intermediate.quoteDamlRecord N ctx record =
      .ok (.damlData (escapeIdentifier record.name) body) := by
    obtain ⟨ident, hident⟩ := hname
    refine Except.bind_eq_ok.2 ⟨ident, hident, Except.bind_eq_ok.2 ⟨body, hbody, ?_⟩⟩
    rw [(quoteEscapedIdent_eq_ok.1 hident).2]
    rfl
  rw [expandRecord, hitem]
  -- the two definitions are compared field by field
  refine (exists_generateDataStruct_iff hname hbody).trans ?_
  simp only [hfull, definitionOf_eq_iff, List.forall₂_map_right_iff, bounded_eq_nil_iff hbounded,
    and_left_comm (b := record.typeParams = []), exists_and_left, List.exists_forall₂_and_iff]
  refine and_congr_right fun _ => forall₂_congr fun f hf => ?_
  obtain ⟨hfname, tokens, htokens⟩ := hmembers f hf
  rw [exists_readsField_iff hfname htokens, rereads_quoteType_iff htokens]

/-! ### Variants -/

variable (N ctx) in
/-- A variant is rendered for the macro, which expands it. -/
def expandVariant (variant : DamlVariant) : DeriveResult VariantTokens := do
  let item ← rendered (Intermediate.quoteDamlVariant N ctx variant)
  generateDataVariant N item.input

/-- What the macro reads of a constructor. -/
def ReadsConstructor (N : Naming) (f : DamlField DamlType) (a : AttrField) : Prop :=
  a.fieldLabel = escapeIdentifier f.name ∧
    if isUnit f.ty then a.fieldType = .unit
    else ∃ tokens, quoteType N f.ty = .ok tokens ∧ fromType tokens.spelled = .ok a.fieldType

lemma extractEnumData_eq_ok {fields : List (DamlField DamlType)} {body : List ConstructorTokens}
    (hbody : fields.mapM (quoteConstructor N) = .ok body) {as : List AttrField} :
    extractEnumData (body.map ConstructorTokens.spelled) = .ok as ↔
      List.Forall₂ (ReadsConstructor N) fields as := by
  rw [extractEnumData, Except.mapM_eq_ok, List.forall₂_map_left_iff]
  refine (Except.mapM_eq_ok.1 hbody).congr_left fun f c hf a => ?_
  obtain ⟨hname, hdata⟩ := quoteConstructor_eq_ok.1 hf
  obtain ⟨label, fieldType⟩ := a
  obtain ⟨name, data⟩ := c
  rw [IsData] at hdata
  rw [Except.map_eq_ok, ReadsConstructor, (quoteEscapedIdent_eq_ok.1 hname).2]
  split_ifs at hdata ⊢ with hunit
  · cases hdata
    constructor
    · rintro ⟨_, hread, hmk⟩
      cases hread
      cases hmk
      exact ⟨rfl, rfl⟩
    · rintro ⟨rfl, rfl⟩
      exact ⟨.unit, rfl, rfl⟩
  · obtain ⟨ty, hty, rfl⟩ := hdata
    constructor
    · rintro ⟨fieldType, hread, hmk⟩
      cases hmk
      exact ⟨rfl, ty, hty, hread⟩
    · rintro ⟨rfl, ty', hty', hread⟩
      cases hty.symm.trans hty'
      exact ⟨fieldType, hread, rfl⟩

/-- What the macro makes of the item of a variant: the definition with the constructors that it
reads. -/
lemma exists_generateDataVariant_iff {name : String} (hname : Quotes N name)
    {fields : List (DamlField DamlType)} {body : List ConstructorTokens}
    (hbody : fields.mapM (quoteConstructor N) = .ok body) {D : Definition} :
    (∃ t, generateDataVariant N
        (IntermediateTokens.damlVariant (escapeIdentifier name) body).input = .ok t ∧
          variantDefinition t = D) ↔
      ∃ as, List.Forall₂ (fun f a => ReadsConstructor N f a ∧ MemberRenders N a) fields as ∧
        definitionOf (variantMember N) DamlField.name (escapeIdentifier name) []
          (as.map AttrField.toDamlField) = D := by
  set variant : List AttrField → DamlVariant := fun as =>
    AttrRecord.toDamlVariant ⟨escapeIdentifier name, as, []⟩
  have hfields : ∀ as, supportedFields defaultContext (variant as).fields =
      as.map AttrField.toDamlField := supportedFields_toDamlField
  have hgenerate : generateDataVariant N
      (IntermediateTokens.damlVariant (escapeIdentifier name) body).input =
        (extractEnumData (body.map ConstructorTokens.spelled) >>= fun as =>
          rendered (quoteDamlVariant N defaultContext (variant as))) := bind_map_left _ _ _
  rw [hgenerate]
  refine exists_generated_iff (fun as => extractEnumData_eq_ok hbody) (fun as => ?_)
    fun as t ht => ?_
  · rw [renders_quoteDamlVariant, hfields]
    constructor
    · exact fun h a ha => h.members a.toDamlField (List.mem_map_of_mem ha)
    · intro h
      exact ⟨quotes_escapeIdentifier hname, List.forall_mem_nil _, List.forall_mem_map.2 h⟩
  · obtain ⟨bounded, hbounded, hdefinition⟩ := variantDefinition_of_ok ht
    cases hbounded
    rwa [hfields] at hdefinition

/-- A constructor is read as it was if its name is its own escape, its type is read back, and that
is not the unit type by its name only. -/
lemma exists_readsConstructor_iff {f : DamlField DamlType} (hname : Quotes N f.name)
    {tokens : TypeTokens} (hty : quoteType N f.ty = .ok tokens) :
    (∃ a, (ReadsConstructor N f a ∧ MemberRenders N a) ∧
        variantMember N a.toDamlField = variantMember N f ∧ a.toDamlField.name = f.name) ↔
      escapeIdentifier f.name = f.name ∧ KeptType N f.ty ∧
        (typeIdent N f.ty = "DamlUnit" → isUnit f.ty = true) := by
  by_cases hunit : isUnit f.ty = true
  · -- a constructor without data is read as one for the unit type
    have hkept : KeptType N f.ty := by
      obtain ⟨name, ty⟩ := f
      cases ty <;> cases hunit
      exact keptType_unit
    rw [and_iff_left ⟨hkept, fun _ => hunit⟩]
    constructor
    · rintro ⟨a, ⟨⟨hlabel, -⟩, -⟩, -, haname⟩
      exact hlabel.symm.trans haname
    · intro hescape
      have hread : ReadsConstructor N f ⟨f.name, .unit⟩ := by
        rw [ReadsConstructor, if_pos hunit]
        exact ⟨hescape.symm, rfl⟩
      obtain ⟨name, ty⟩ := f
      cases ty <;> cases hunit
      exact ⟨_, ⟨hread, hname, tokens, hty⟩, rfl, rfl⟩
  · constructor
    · rintro ⟨a, ⟨hread, -, hrenders⟩, hmember, haname⟩
      rw [ReadsConstructor, if_neg hunit] at hread
      obtain ⟨hlabel, tokens', htokens', hread⟩ := hread
      cases hty.symm.trans htokens'
      obtain ⟨tokens', htokens'⟩ := hrenders
      have hspelled := congrArg Prod.snd hmember
      simp only [variantMember, if_neg hunit, spelledOf_of_ok hty] at hspelled
      change (if isUnit (toDamlType a.fieldType) then none
        else spelledOf N (toDamlType a.fieldType)) = _ at hspelled
      split_ifs at hspelled with haunit
      rw [spelledOf_of_ok htokens', Option.some.injEq] at hspelled
      -- a type that is read as the unit type would leave the constructor without data
      refine ⟨hlabel.symm.trans haname, ?_, fun hident => ?_⟩
      · exact (rereads_quoteType_iff hty).1 ⟨a.fieldType, tokens', hread, htokens', hspelled⟩
      · exact absurd ((isUnit_of_fromType hty hread).2 hident) haunit
    · rintro ⟨hescape, hkept, hident⟩
      obtain ⟨a, tokens', hread, htokens', hspelled⟩ := (rereads_quoteType_iff hty).2 hkept
      have haunit : ¬ isUnit (toDamlType a) = true := fun haunit =>
        hunit (hident ((isUnit_of_fromType hty hread).1 haunit))
      refine ⟨⟨f.name, a⟩, ⟨?_, hname, tokens', htokens'⟩, ?_, rfl⟩
      · rw [ReadsConstructor, if_neg hunit]
        exact ⟨hescape.symm, tokens, hty, hread⟩
      · show (escapeIdentifier f.name, if isUnit (toDamlType a) then none
          else spelledOf N (toDamlType a)) = variantMember N f
        rw [variantMember, if_neg hunit, if_neg haunit, spelledOf_of_ok htokens',
          spelledOf_of_ok hty, hspelled]

lemma expandVariant_iff {variant : DamlVariant} {full : VariantTokens}
    (h : quoteDamlVariant N ctx variant = .ok full) :
    (∃ t, expandVariant N ctx variant = .ok t ∧ variantDefinition t = variantDefinition full) ↔
      variant.typeParams = [] ∧ ∀ f ∈ supportedFields ctx variant.fields,
        escapeIdentifier f.name = f.name ∧ KeptType N f.ty ∧
          (typeIdent N f.ty = "DamlUnit" → isUnit f.ty = true) := by
  obtain ⟨hname, -, hmembers⟩ := renders_quoteDamlVariant.1 ⟨full, h⟩
  obtain ⟨body, hbody⟩ : Renders ((supportedFields ctx variant.fields).mapM (quoteConstructor N)) :=
    renders_mapM.2 fun f hf => by
      obtain ⟨⟨ident, hident⟩, hty⟩ := hmembers f hf
      refine renders_bind.2 ⟨ident, hident, ?_⟩
      split_ifs
      · exact renders_pure _
      · exact renders_bind_pure.2 hty
  obtain ⟨bounded, hbounded, hfull⟩ := variantDefinition_of_ok h
  have hitem : Intermediate.quoteDamlVariant N ctx variant =
      .ok (.damlVariant (escapeIdentifier variant.name) body) := by
    obtain ⟨ident, hident⟩ := hname
    refine Except.bind_eq_ok.2 ⟨ident, hident, Except.bind_eq_ok.2 ⟨body, hbody, ?_⟩⟩
    rw [(quoteEscapedIdent_eq_ok.1 hident).2]
    rfl
  rw [expandVariant, hitem]
  -- the two definitions are compared constructor by constructor
  refine (exists_generateDataVariant_iff hname hbody).trans ?_
  simp only [hfull, definitionOf_eq_iff, List.forall₂_map_right_iff, bounded_eq_nil_iff hbounded,
    and_left_comm (b := variant.typeParams = []), exists_and_left, List.exists_forall₂_and_iff]
  refine and_congr_right fun _ => forall₂_congr fun f hf => ?_
  obtain ⟨hfname, tokens, htokens⟩ := hmembers f hf
  exact exists_readsConstructor_iff hfname htokens

/-! ### Enums -/

variable (N) in
/-- An enum is rendered for the macro, which expands it. -/
def expandEnum (dataEnum : DamlEnum) : DeriveResult VariantTokens := do
  let item ← rendered (Intermediate.quoteDamlEnum N dataEnum)
  generateDataEnum N item.input

lemma extractEnum_unit (name : String) (constructors : List String) :
    extractEnum name (constructors.map fun c => (c, .unit)) [] = .ok ⟨name, constructors, []⟩ := by
  have hdata : extractEnumData (constructors.map fun c => (c, .unit)) =
      .ok (constructors.map fun c => ⟨c, .unit⟩) := by
    rw [extractEnumData, Except.mapM_eq_ok, List.forall₂_map_left_iff, List.forall₂_map_right_iff]
    exact List.forall₂_same.2 fun _ _ => rfl
  have hfields : (constructors.map fun c => (⟨c, .unit⟩ : AttrField)).mapM enumConstructor =
      .ok constructors := by
    rw [Except.mapM_eq_ok, List.forall₂_map_left_iff]
    exact List.forall₂_same.2 fun _ _ => rfl
  exact Except.bind_eq_ok.2 ⟨_, hdata, Except.bind_eq_ok.2 ⟨_, hfields, rfl⟩⟩

lemma expandEnum_iff {dataEnum : DamlEnum} {full : VariantTokens}
    (h : quoteDamlEnum N dataEnum = .ok full) :
    (∃ t, expandEnum N dataEnum = .ok t ∧ variantDefinition t = variantDefinition full) ↔
      dataEnum.typeParams = [] ∧ ∀ c ∈ dataEnum.constructors, escapeIdentifier c = c := by
  obtain ⟨hname, -, hconstructors⟩ := renders_quoteDamlEnum.1 ⟨full, h⟩
  obtain ⟨bounded, hbounded, hfull⟩ := enumDefinition_of_ok h
  -- what is emitted for the macro: the names are escaped, the type parameters are left out
  have hitem : Intermediate.quoteDamlEnum N dataEnum = .ok (.damlEnum
      (escapeIdentifier dataEnum.name) (dataEnum.constructors.map escapeIdentifier)) := by
    obtain ⟨ident, hident⟩ := hname
    refine Except.bind_eq_ok.2 ⟨ident, hident, Except.bind_eq_ok.2
      ⟨dataEnum.constructors.map escapeIdentifier, ?_, ?_⟩⟩
    · rw [Except.mapM_eq_ok, List.forall₂_map_right_iff]
      refine List.forall₂_same.2 fun c hc => ?_
      obtain ⟨_, hident⟩ := hconstructors c hc
      rw [hident, (quoteEscapedIdent_eq_ok.1 hident).2]
    · rw [(quoteEscapedIdent_eq_ok.1 hident).2]
      rfl
  set read : AttrEnum :=
    ⟨escapeIdentifier dataEnum.name, dataEnum.constructors.map escapeIdentifier, []⟩
  have hexpand : expandEnum N dataEnum = rendered (quoteDamlEnum N read.toDamlEnum) := by
    rw [expandEnum, hitem]
    show (extractEnum (escapeIdentifier dataEnum.name) _ [] >>= _) = _
    rw [extractEnum_unit]
    rfl
  -- the macro renders what it has read, since an escape needs no further escape to be accepted
  obtain ⟨t, ht⟩ : Renders (quoteDamlEnum N read.toDamlEnum) := by
    refine renders_quoteDamlEnum.2 ⟨quotes_escapeIdentifier hname, List.forall_mem_nil _, ?_⟩
    exact List.forall_mem_map.2 fun c hc => quotes_escapeIdentifier (hconstructors c hc)
  obtain ⟨none, hnone, hdefinition⟩ := enumDefinition_of_ok ht
  cases hnone
  have hexists : (∃ t, expandEnum N dataEnum = .ok t ∧ variantDefinition t = variantDefinition full)
      ↔ variantDefinition t = variantDefinition full := by
    rw [hexpand, rendered_eq_ok.2 ht]
    simp
  rw [hexists, hdefinition, hfull]
  refine definitionOf_eq_iff.trans (and_congr (bounded_eq_nil_iff hbounded) ?_)
  show List.Forall₂ _ dataEnum.constructors (dataEnum.constructors.map escapeIdentifier) ↔ _
  rw [List.forall₂_map_right_iff, List.forall₂_same]
  refine forall₂_congr fun c _ => and_iff_right ?_
  rw [enumMember, enumMember, escapeIdentifier_escapeIdentifier]

end Expand

/-! ### The two renderers -/

/-- `data Cell a = Cell with content : a` -/
def cellRecord : DamlRecord :=
  ⟨"Cell", "pkg", ["Main"], [⟨"content", .var "a" []⟩], [⟨"a", .star⟩], true⟩

end DamlBindings.Derive
