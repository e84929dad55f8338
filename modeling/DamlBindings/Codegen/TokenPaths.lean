import DamlBindings.Codegen.Renders

/-!
# Paths in the generated code

The paths in the tokens of a definition, and the names that they are emitted for: those of the
types of fields and of choice arguments, and those of the interfaces that a template implements.
-/

namespace DamlBindings.Codegen

open Lf Worklist

/-- A type constructor in a type is rendered, with that path. -/
def SpellsPath (N : Naming) (t : DamlType) (n : DamlTyConName) (path : RustPath) : Prop :=
  ∃ s, Reaches DamlType.keptArguments t s ∧ s.head? = some n ∧ quoteTyconName N n = .ok path

/-- The paths that are emitted in a definition, with the names that they are emitted for. -/
inductive Emits (N : Naming) (ctx : RenderContext) : RenderItem → DamlTyConName → RustPath → Prop
  /-- A type constructor in the type of a field. -/
  | member {d : DamlData} {f : DamlField DamlType} {n : DamlTyConName} {path : RustPath}
      (hf : f ∈ supportedFields ctx d.fields) (h : SpellsPath N f.ty n path) :
      Emits N ctx (.data d) n path
  /-- A type constructor in the type of the argument of a choice. -/
  | argument {t : DamlTemplate} {c : DamlChoice} {f : DamlField DamlType} {n : DamlTyConName}
      {path : RustPath} (hc : c ∈ t.choices) (hf : c.argument? = some f)
      (h : SpellsPath N f.ty n path) : Emits N ctx (.data (.template t)) n path
  /-- The trait of an interface that a template implements. -/
  | trait {t : DamlTemplate} {n : DamlTyConName} {path : RustPath} (hn : n ∈ t.implements)
      (h : quoteInterfaceTraitPath N n = .ok path) : Emits N ctx (.data (.template t)) n path
  /-- A type constructor in the type of the argument of a choice of such an interface. -/
  | interfaceArgument {t : DamlTemplate} {n n' : DamlTyConName} {i : DamlInterface} {c : DamlChoice}
      {f : DamlField DamlType} {path : RustPath} (hn : n ∈ t.implements)
      (hi : ctx.archive.interfaceByTyconName n = some i) (hc : c ∈ i.choices)
      (hf : c.argument? = some f) (h : SpellsPath N f.ty n' path) :
      Emits N ctx (.data (.template t)) n' path
  /-- The trait of such an interface, in the methods of its choices. -/
  | interfaceTrait {t : DamlTemplate} {n : DamlTyConName} {i : DamlInterface} {path : RustPath}
      (hn : n ∈ t.implements) (hi : ctx.archive.interfaceByTyconName n = some i)
      (hchoices : i.choices ≠ [])
      (h : quoteInterfacePathFromParts N (ctx.packageNameFor i.packageId) i.modulePath i.name =
        .ok path) : Emits N ctx (.data (.template t)) n path

/-! ### Tokens -/

mutual

/-- The paths in the tokens of a type. -/
def TypeTokens.paths : TypeTokens → List RustPath
  | .var _ => []
  | .path p args => p :: pathsOf args
termination_by structural t => t

def pathsOf : List TypeTokens → List RustPath
  | [] => []
  | t :: ts => t.paths ++ pathsOf ts
termination_by structural ts => ts

end

/-- The paths in the tokens of a record. -/
def RecordTokens.paths (t : RecordTokens) : List RustPath :=
  t.struct.body.flatMap (fun f => f.ty.paths) ++
    (t.newMethod.arguments.flatMap (fun f => f.ty.paths) ++
      (t.serialize.body.flatMap (fun f => f.ty.paths) ++
        t.deserialize.body.flatMap fun f => f.ty.paths))

/-- The paths in the tokens of a variant or of an enum. -/
def VariantTokens.paths (t : VariantTokens) : List RustPath :=
  t.enumTokens.body.flatMap (fun c => c.data.toList.flatMap TypeTokens.paths) ++
    (t.serialize.body.flatMap (fun a => a.data.toList.flatMap TypeTokens.paths) ++
      t.deserialize.body.flatMap fun a => a.data.toList.flatMap TypeTokens.paths)

/-- The paths in the methods of choices. -/
def choicePaths (ts : List ChoiceTokens) : List RustPath := ts.flatMap fun c => c.argTy.paths

/-- The paths in the methods of the choices of an interface. -/
def InterfaceChoicesTokens.paths (t : InterfaceChoicesTokens) : List RustPath :=
  t.ifacePath :: choicePaths t.methods

/-- The paths in the tokens of a template. -/
def TemplateTokens.paths (t : TemplateTokens) : List RustPath :=
  t.record.paths ++ (choicePaths t.choices.2 ++ (t.interfaceImpls.map Prod.fst ++
    t.interfaceChoices.flatMap InterfaceChoicesTokens.paths))

/-- The paths in the tokens of a definition. -/
def ItemTokens.paths : ItemTokens → List RustPath
  | .record t => t.paths
  | .variant t => t.paths
  | .enum t => t.paths
  | .template t => t.paths
  | .interface _ => []

section Paths

variable {N : Naming} {ctx : RenderContext} {p : RustPath} (hp : p.start = .crate)

lemma pathsOf_eq (ts : List TypeTokens) : pathsOf ts = ts.flatMap TypeTokens.paths := by
  induction ts with
  | nil => rfl
  | cons t ts ih => exact congrArg (t.paths ++ ·) ih

lemma mem_paths_path {q : RustPath} {args : List TypeTokens} :
    p ∈ (TypeTokens.path q args).paths ↔ p = q ∨ p ∈ args.flatMap TypeTokens.paths := by
  show p ∈ q :: pathsOf args ↔ _
  rw [List.mem_cons, pathsOf_eq]

/-- A path comes from the type constructor or from the arguments that are rendered. -/
lemma spellsPath_iff {t : DamlType} {n : DamlTyConName} :
    SpellsPath N t n p ↔ t.head? = some n ∧ quoteTyconName N n = .ok p ∨
      ∃ a ∈ t.keptArguments, SpellsPath N a n p := by
  constructor
  · rintro ⟨s, hreach, hhead, hpath⟩
    obtain rfl | ⟨a, ha, hreach⟩ := reaches_iff.1 hreach
    · exact .inl ⟨hhead, hpath⟩
    · exact .inr ⟨a, ha, s, hreach, hhead, hpath⟩
  · rintro (⟨hhead, hpath⟩ | ⟨a, ha, s, hreach, hhead, hpath⟩)
    · exact ⟨t, .refl, hhead, hpath⟩
    · exact ⟨s, reaches_iff.2 (.inr ⟨a, ha, hreach⟩), hhead, hpath⟩

include hp in
lemma mem_paths_apply {t : DamlType} {head : TypeHead} (h : quoteHead N t = .ok head)
    {args : List TypeTokens} (hargs : ∀ v as, t = .var v as → args = []) :
    p ∈ (head.apply args).paths ↔ (∃ n, t.head? = some n ∧ quoteTyconName N n = .ok p) ∨
      p ∈ args.flatMap TypeTokens.paths := by
  -- a plain name is not a path from the crate, so only type constructors have one
  have hhere : ∀ ident, p ≠ .name ident := by
    rintro ident rfl
    cases hp
  have hname : ∀ {x : Render String}, t.head? = none →
      (fun ident => TypeHead.path (.name ident)) <$> x = .ok head →
      (p ∈ (head.apply args).paths ↔ (∃ n, t.head? = some n ∧ quoteTyconName N n = .ok p) ∨
        p ∈ args.flatMap TypeTokens.paths) := by
    intro x hhead hx
    obtain ⟨ident, -, rfl⟩ := Except.map_eq_ok.1 hx
    refine mem_paths_path.trans (or_congr_left (iff_of_false (hhere ident) ?_))
    rintro ⟨n, hn, -⟩
    rw [hhead] at hn
    cases hn
  have htycon : ∀ {n : DamlTyConName} {q : RustPath}, t.head? = some n →
      quoteTyconName N n = .ok q →
      (p = q ↔ ∃ n, t.head? = some n ∧ quoteTyconName N n = .ok p) := by
    intro n q hhead hq
    constructor
    · rintro rfl
      exact ⟨n, hhead, hq⟩
    · rintro ⟨n', hn', hp'⟩
      cases hhead.symm.trans hn'
      exact Except.ok.inj (hp'.symm.trans hq)
  cases t with
  -- `TypeHead.apply` drops the arguments of a variable, which has none
  | var v as =>
    obtain ⟨ident, -, rfl⟩ := Except.map_eq_ok.1 h
    rw [hargs v as rfl]
    refine iff_of_false (List.not_mem_nil) ?_
    rintro (⟨n, hn, -⟩ | hmem)
    · cases hn
    · cases hmem
  | tyCon tycon as =>
    obtain ⟨q, hq, rfl⟩ := Except.map_eq_ok.1 h
    exact mem_paths_path.trans (or_congr_left (htycon rfl hq))
  | boxedTyCon tycon as =>
    obtain ⟨q, hq, rfl⟩ := Except.map_eq_ok.1 h
    have hbox : p ∈ (TypeTokens.path (.name "Box") [.path q args]).paths ↔
        p ∈ (TypeTokens.path q args).paths := by
      rw [mem_paths_path, or_iff_right (hhere "Box"), List.flatMap_cons, List.flatMap_nil,
        List.append_nil]
    exact hbox.trans (mem_paths_path.trans (or_congr_left (htycon rfl hq)))
  | nat n => exact hname rfl h
  | list as => exact hname rfl h
  | optional as => exact hname rfl h
  | numeric as => exact hname rfl h
  | textMap as => exact hname rfl h
  | genMap as => exact hname rfl h
  | contractId inner => exact hname rfl h
  | int64 => exact hname rfl h
  | text => exact hname rfl h
  | timestamp => exact hname rfl h
  | party => exact hname rfl h
  | bool => exact hname rfl h
  | unit => exact hname rfl h
  | date => exact hname rfl h
  | _ => cases h

include hp in
/-- The paths from the crate in the tokens of a type are those of its type constructors. -/
lemma mem_paths_quoteType {t : DamlType} {tokens : TypeTokens} (h : quoteType N t = .ok tokens) :
    p ∈ tokens.paths ↔ ∃ n, SpellsPath N t n p := by
  induction t using DamlType.arguments_induction generalizing tokens with
  | h t ih =>
    obtain ⟨head, hhead, args, hargs, rfl⟩ := quoteType_eq_ok.1 h
    have hquoted := Except.mapM_eq_ok.1 hargs
    have hvar : ∀ v as, t = .var v as → args = [] := by
      rintro v as rfl
      exact List.length_eq_zero_iff.1 hquoted.length_eq.symm
    rw [mem_paths_apply hp hhead hvar, List.mem_flatMap]
    constructor
    · rintro (⟨n, hn, hpath⟩ | ⟨toks, htoks, hmem⟩)
      · exact ⟨n, spellsPath_iff.2 (.inl ⟨hn, hpath⟩)⟩
      · obtain ⟨a, ha, hquote⟩ := hquoted.exists_left htoks
        obtain ⟨n, hn⟩ := (ih a (t.keptArguments_sublist.subset ha) hquote).1 hmem
        exact ⟨n, spellsPath_iff.2 (.inr ⟨a, ha, hn⟩)⟩
    · rintro ⟨n, hn⟩
      rcases spellsPath_iff.1 hn with ⟨hn, hpath⟩ | ⟨a, ha, hn⟩
      · exact .inl ⟨n, hn, hpath⟩
      · obtain ⟨toks, htoks, hquote⟩ := hquoted.exists_right ha
        exact .inr ⟨toks, htoks, (ih a (t.keptArguments_sublist.subset ha) hquote).2 ⟨n, hn⟩⟩

/-- The path is emitted for the type of one of the fields. -/
def InFields (N : Naming) (fields : List (DamlField DamlType)) (p : RustPath) : Prop :=
  ∃ f ∈ fields, ∃ n, SpellsPath N f.ty n p

include hp in
lemma mem_paths_record {name : String} {fields : List (DamlField DamlType)}
    {params : List DamlTypeVarWithKind} {tokens : RecordTokens}
    (h : quoteDamlRecordAndImpl N ctx name fields params = .ok tokens) :
    p ∈ tokens.paths ↔ InFields N (supportedFields ctx fields) p := by
  have ht := quotedRecord_of_ok h
  have hfield : ∀ (f : DamlField DamlType) (t : FieldTokens), quoteField N f = .ok t →
      (p ∈ t.ty.paths ↔ ∃ n, SpellsPath N f.ty n p) :=
    fun f t ht => mem_paths_quoteType hp (quoteField_eq_ok.1 ht).2
  have hserialize : ∀ (f : DamlField DamlType) (t : SerializedField),
      quoteSerializedField N f = .ok t → (p ∈ t.ty.paths ↔ ∃ n, SpellsPath N f.ty n p) :=
    fun f t ht => mem_paths_quoteType hp (of_quoteSerializedField ht).2
  have hdeserialize : ∀ (f : DamlField DamlType) (t : DeserializedField),
      quoteDeserializedField N f = .ok t → (p ∈ t.ty.paths ↔ ∃ n, SpellsPath N f.ty n p) :=
    fun f t ht => mem_paths_quoteType hp (of_quoteDeserializedField ht).2
  simp only [RecordTokens.paths, List.mem_append, Except.mem_flatMap_of_mapM ht.struct.body hfield,
    Except.mem_flatMap_of_mapM ht.arguments hfield,
    Except.mem_flatMap_of_mapM ht.serialize hserialize,
    Except.mem_flatMap_of_mapM ht.deserialize hdeserialize, or_self, InFields]

/-- There is no path in the unit type. -/
lemma not_spellsPath_unit {t : DamlType} (h : isUnit t = true) : ¬ ∃ n, SpellsPath N t n p := by
  cases t with
  | unit =>
    rintro ⟨n, hn⟩
    rcases spellsPath_iff.1 hn with ⟨hhead, -⟩ | ⟨a, ha, -⟩
    · cases hhead
    · cases ha
  | _ => cases h

include hp in
/-- The data of a constructor, which one for the unit type does not have. -/
lemma mem_paths_data {t : DamlType} {data : Option TypeTokens} (h : IsData N t data) :
    p ∈ data.toList.flatMap TypeTokens.paths ↔ ∃ n, SpellsPath N t n p := by
  unfold IsData at h
  split_ifs at h with hunit
  · subst h
    exact iff_of_false List.not_mem_nil (not_spellsPath_unit hunit)
  · obtain ⟨tokens, htokens, rfl⟩ := h
    rw [Option.toList_some, List.flatMap_cons, List.flatMap_nil, List.append_nil]
    exact mem_paths_quoteType hp htokens

include hp in
lemma mem_paths_variant {v : DamlVariant} {tokens : VariantTokens}
    (h : quoteDamlVariant N ctx v = .ok tokens) :
    p ∈ tokens.paths ↔ InFields N (supportedFields ctx v.fields) p := by
  have ht := quotedVariant_of_ok h
  have hconstructor : ∀ (f : DamlField DamlType) (t : ConstructorTokens),
      quoteConstructor N f = .ok t →
      (p ∈ t.data.toList.flatMap TypeTokens.paths ↔ ∃ n, SpellsPath N f.ty n p) :=
    fun f t ht => mem_paths_data hp (quoteConstructor_eq_ok.1 ht).2
  have hfrom : ∀ (f : DamlField DamlType) (t : MatchArm), quoteFromArm N v.name f = .ok t →
      (p ∈ t.data.toList.flatMap TypeTokens.paths ↔ ∃ n, SpellsPath N f.ty n p) :=
    fun f t ht => mem_paths_data hp (of_quoteFromArm ht).2
  have htry : ∀ (f : DamlField DamlType) (t : MatchArm), quoteTryFromArm N v.name f = .ok t →
      (p ∈ t.data.toList.flatMap TypeTokens.paths ↔ ∃ n, SpellsPath N f.ty n p) :=
    fun f t ht => mem_paths_data hp (of_quoteTryFromArm ht).2
  simp only [VariantTokens.paths, List.mem_append,
    Except.mem_flatMap_of_mapM ht.enumTokens.body hconstructor,
    Except.mem_flatMap_of_mapM ht.serialize hfrom, Except.mem_flatMap_of_mapM ht.deserialize htry,
    or_self, InFields]

/-- There is no path in the tokens of an enum. -/
lemma paths_enum {e : DamlEnum} {tokens : VariantTokens} (h : quoteDamlEnum N e = .ok tokens) :
    tokens.paths = [] := by
  have ht := quotedDamlEnum_of_ok h
  have harm : ∀ {arms : List MatchArm}, e.constructors.mapM (quoteEnumArm N e.name) = .ok arms →
      arms.flatMap (fun a => a.data.toList.flatMap TypeTokens.paths) = [] := by
    intro arms harms
    refine List.flatMap_eq_nil_iff.2 fun a ha => ?_
    obtain ⟨s, -, hs⟩ := (Except.mapM_eq_ok.1 harms).exists_left ha
    rw [(of_quoteEnumArm hs).2]
    rfl
  have hbody : tokens.enumTokens.body.flatMap
      (fun c => c.data.toList.flatMap TypeTokens.paths) = [] := by
    refine List.flatMap_eq_nil_iff.2 fun c hc => ?_
    obtain ⟨s, -, hs⟩ := (Except.mapM_eq_ok.1 ht.enumTokens.body).exists_left hc
    rw [(of_quoteConstructorIdent hs).2]
    rfl
  simp only [VariantTokens.paths, hbody, harm ht.serialize, harm ht.deserialize, List.append_nil]

/-- The path is emitted for the type of the argument of the choice. -/
def InArgument (N : Naming) (p : RustPath) (c : DamlChoice) : Prop :=
  ∃ f, c.argument? = some f ∧ ∃ n, SpellsPath N f.ty n p

include hp in
lemma mem_paths_choice {method : String} {c : DamlChoice} {tokens : ChoiceTokens}
    (h : quoteChoiceWith N method c = .ok tokens) :
    p ∈ tokens.argTy.paths ↔ InArgument N p c := by
  obtain ⟨_, -, h⟩ := Except.bind_eq_ok.1 h
  rw [InArgument, DamlChoice.argument?]
  rcases hfield : c.fields.head? with _ | f <;> rw [hfield] at h
  · cases h
  · obtain ⟨argTy, hargTy, h⟩ := Except.bind_eq_ok.1 h
    cases h
    exact (mem_paths_quoteType hp hargTy).trans (by simp)

include hp in
lemma mem_paths_interfaceChoices {templateName : String} {i : DamlInterface}
    {o : Option InterfaceChoicesTokens} (h : quoteInterfaceChoices N ctx templateName i = .ok o) :
    p ∈ o.toList.flatMap InterfaceChoicesTokens.paths ↔ i.choices ≠ [] ∧
      (quoteInterfacePathFromParts N (ctx.packageNameFor i.packageId) i.modulePath i.name = .ok p ∨
        ∃ c ∈ i.choices, InArgument N p c) := by
  simp only [quoteInterfaceChoices, Except.bind_eq_ok, Except.pure_eq_ok] at h
  obtain ⟨_, -, path, hpath, methods, hmethods, rfl⟩ := h
  have hlength := (Except.mapM_eq_ok.1 hmethods).length_eq
  have hmem : p ∈ choicePaths methods ↔ ∃ c ∈ i.choices, InArgument N p c :=
    Except.mem_flatMap_of_mapM hmethods fun c tokens hc => mem_paths_choice hp hc
  split_ifs with hempty
  · -- without methods there is no impl block
    rw [List.isEmpty_iff.1 hempty, List.length_nil, List.length_eq_zero_iff] at hlength
    exact iff_of_false List.not_mem_nil fun h => h.1 hlength
  · have hchoices : i.choices ≠ [] := by
      rintro hnil
      rw [hnil, List.length_nil, eq_comm, List.length_eq_zero_iff] at hlength
      exact hempty (List.isEmpty_iff.2 hlength)
    rw [Option.toList_some, List.flatMap_cons, List.flatMap_nil, List.append_nil,
      and_iff_right hchoices, ← hmem, hpath, InterfaceChoicesTokens.paths, List.mem_cons]
    exact or_congr_left ⟨fun h => congrArg _ h.symm, fun h => (Except.ok.inj h).symm⟩

include hp in
lemma mem_paths_template {t : DamlTemplate} {tokens : TemplateTokens}
    (h : quoteDamlTemplate N ctx t = .ok tokens) :
    p ∈ tokens.paths ↔ InFields N (supportedFields ctx t.fields) p ∨
      (∃ c ∈ t.choices, InArgument N p c) ∨
      (∃ n ∈ t.implements, quoteInterfaceTraitPath N n = .ok p) ∨
      ∃ i ∈ implementedInterfaces ctx t, i.choices ≠ [] ∧
        (quoteInterfacePathFromParts N (ctx.packageNameFor i.packageId) i.modulePath i.name =
            .ok p ∨
          ∃ c ∈ i.choices, InArgument N p c) := by
  simp only [quoteDamlTemplate, quoteChoice, Except.bind_eq_ok, Except.pure_eq_ok] at h
  obtain ⟨record, hrecord, _, -, _, -, _, ⟨methods, hmethods, _, -, rfl⟩, id, -, impls, himpls, os,
    hos, rfl⟩ := h
  have hchoices : p ∈ choicePaths methods ↔ ∃ c ∈ t.choices, InArgument N p c := by
    refine Except.mem_flatMap_of_mapM hmethods fun c tokens hc => ?_
    obtain ⟨_, -, hc⟩ := Except.bind_eq_ok.1 hc
    exact mem_paths_choice hp hc
  have himplements : p ∈ impls.map Prod.fst ↔
      ∃ n ∈ t.implements, quoteInterfaceTraitPath N n = .ok p := by
    have hmap : impls.map Prod.fst = impls.flatMap fun e => [e.1] := List.map_eq_flatMap
    rw [hmap]
    refine Except.mem_flatMap_of_mapM himpls fun n e hn => ?_
    obtain ⟨path, hpath, rfl⟩ := Except.map_eq_ok.1 hn
    rw [hpath, List.mem_singleton]
    exact ⟨fun h => congrArg _ h.symm, fun h => (Except.ok.inj h).symm⟩
  have hinterfaces : p ∈ os.reduceOption.flatMap InterfaceChoicesTokens.paths ↔
      p ∈ os.flatMap fun o => o.toList.flatMap InterfaceChoicesTokens.paths := by
    simp [List.mem_flatMap, List.reduceOption_mem_iff]
  simp only [TemplateTokens.paths, List.mem_append, mem_paths_record hp hrecord, hchoices,
    himplements, hinterfaces,
    Except.mem_flatMap_of_mapM hos fun i o hi => mem_paths_interfaceChoices hp hi]

include hp in
/-- The paths from the crate in the tokens of a definition are those that are emitted for a name. -/
theorem mem_paths_quoteItem {i : RenderItem} {tokens : ItemTokens}
    (h : quoteItem N ctx i = .ok tokens) : p ∈ tokens.paths ↔ ∃ n, Emits N ctx i n p := by
  -- records, variants and enums only have members; the other cases of `Emits` are for templates
  have hplain : ∀ d : DamlData, (∀ t, d ≠ .template t) →
      (InFields N (supportedFields ctx d.fields) p ↔ ∃ n, Emits N ctx (.data d) n p) := by
    intro d hd
    constructor
    · rintro ⟨f, hf, n, hn⟩
      exact ⟨n, .member hf hn⟩
    · rintro ⟨n, hn⟩
      cases hn with
      | member hf hn => exact ⟨_, hf, n, hn⟩
      | argument => exact absurd rfl (hd _)
      | trait => exact absurd rfl (hd _)
      | interfaceArgument => exact absurd rfl (hd _)
      | interfaceTrait => exact absurd rfl (hd _)
  cases i with
  | data d =>
    cases d with
    | record r =>
      obtain ⟨t, ht, rfl⟩ := Except.map_eq_ok.1 h
      exact (mem_paths_record hp ht).trans (hplain (.record r) (by simp))
    | variant v =>
      obtain ⟨t, ht, rfl⟩ := Except.map_eq_ok.1 h
      exact (mem_paths_variant hp ht).trans (hplain (.variant v) (by simp))
    | enum e =>
      obtain ⟨t, ht, rfl⟩ := Except.map_eq_ok.1 h
      refine Iff.trans ?_ (hplain (.enum e) (by simp))
      show p ∈ t.paths ↔ _
      rw [paths_enum ht]
      refine iff_of_false List.not_mem_nil ?_
      rintro ⟨f, hf, -⟩
      cases hf
    | template t =>
      obtain ⟨tokens, ht, rfl⟩ := Except.map_eq_ok.1 h
      refine (mem_paths_template hp ht).trans ?_
      constructor
      · rintro (⟨f, hf, n, hn⟩ | ⟨c, hc, f, hf, n, hn⟩ | ⟨n, hn, hpath⟩ |
          ⟨i, hi, hchoices, hpath | ⟨c, hc, f, hf, n, hn⟩⟩)
        · exact ⟨n, .member hf hn⟩
        · exact ⟨n, .argument hc hf hn⟩
        · exact ⟨n, .trait hn hpath⟩
        · obtain ⟨n, hn, hi⟩ := List.mem_filterMap.1 hi
          exact ⟨n, .interfaceTrait hn hi hchoices hpath⟩
        · obtain ⟨n', hn', hi⟩ := List.mem_filterMap.1 hi
          exact ⟨n, .interfaceArgument hn' hi hc hf hn⟩
      · rintro ⟨n, hn⟩
        cases hn with
        | member hf hn => exact .inl ⟨_, hf, n, hn⟩
        | argument hc hf hn => exact .inr (.inl ⟨_, hc, _, hf, n, hn⟩)
        | trait hn hpath => exact .inr (.inr (.inl ⟨n, hn, hpath⟩))
        | interfaceArgument hn hi hc hf hspells =>
          exact .inr (.inr (.inr ⟨_, List.mem_filterMap.2 ⟨_, hn, hi⟩, List.ne_nil_of_mem hc,
            .inr ⟨_, hc, _, hf, n, hspells⟩⟩))
        | interfaceTrait hn hi hchoices hpath =>
          exact .inr (.inr (.inr ⟨_, List.mem_filterMap.2 ⟨_, hn, hi⟩, hchoices, .inl hpath⟩))
  -- an interface is rendered to a trait, in which no type constructor stands
  | interface i =>
    obtain ⟨t, ht, rfl⟩ := Except.map_eq_ok.1 h
    refine iff_of_false List.not_mem_nil ?_
    rintro ⟨n, hn⟩
    cases hn

end Paths

end DamlBindings.Codegen
